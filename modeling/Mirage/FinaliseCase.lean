import Mirage.ReportWorkers
import Mirage.ExportGeneration
import Mathlib.Data.List.MinMax

/-! `finalise-case-evidence` on a case whose evidence, exports and reports go on beside
it. A run checks the ledger, looks a completed report up, inserts one under a fixed key
where there is none, and polls its report; each of these is a step. -/

namespace Mirage.FinaliseCase
open EventRun ReportWorkers

/-- A row of `evidence_objects`. -/
structure Evidence where
  evidenceType : String
  requiredForExport : Bool
  verified : Bool
  deriving DecidableEq

structure Manifest where
  evidenceObjects : List ℕ
  ledger : ℕ
  deriving DecidableEq

/-- A row of `evidence_exports`, with what the worker that holds it has loaded. -/
structure Export where
  verificationStatus : VerificationStatus
  loaded : Option Manifest
  manifest : Option Manifest
  deriving DecidableEq

structure CaseReport where
  idempotencyKey : String
  completedAt : ℕ
  row : Report
  deriving DecidableEq

inductive RunPhase where
  | checked | inserting | waiting (reportId : ℕ) | raised | passed (reportId : ℕ) | blocked
  deriving DecidableEq

structure FinaliseRun where
  required : List ℕ
  phase : RunPhase
  deriving DecidableEq

structure State where
  caseId : String
  evidence : List Evidence
  gaps : ℕ
  exports : List Export
  reports : List CaseReport
  runs : List FinaliseRun

def isManifestEvidence (evidence : List Evidence) (evidenceId : ℕ) : Bool :=
  (evidence[evidenceId]?).any fun row => !ExportGeneration.isPackagePart row.evidenceType

def loadManifestData (evidence : List Evidence) : Manifest :=
  ⟨(List.range evidence.length).filter (isManifestEvidence evidence), evidence.length⟩

def requiredEvidence (evidence : List Evidence) : List ℕ :=
  (List.range evidence.length).filter fun evidenceId =>
    isManifestEvidence evidence evidenceId && (evidence[evidenceId]?).any Evidence.requiredForExport

def setExport (s : State) (exportId : ℕ) (f : Export → Export) : State :=
  { s with exports := s.exports.modify exportId f }

def pendingExport : Export := ⟨.pending, none, none⟩

def loadManifest (evidence : List Evidence) (row : Export) : Export :=
  if row.verificationStatus = .pending ∧ row.manifest = none then
    { row with loaded := some (loadManifestData evidence) }
  else row

def components : List Evidence :=
  ["MANIFEST", "SIGNATURE", "VERIFICATION_REPORT", "EXPORT"].map fun evidenceType => ⟨evidenceType, false, true⟩

/-- The commit of `generate_export`, or the mark behind its failure. -/
def finishExport (s : State) (exportId : ℕ) (signed : Bool) : State :=
  match (s.exports[exportId]?).bind Export.loaded with
  | none => s
  | some manifest =>
    if signed then
      setExport { s with evidence := s.evidence ++ components } exportId fun _ => ⟨.verified, none, some manifest⟩
    else setExport s exportId fun row => { row with verificationStatus := .failed, loaded := none }

def setReport (s : State) (reportId : ℕ) (f : Report → Report) : State :=
  { s with reports := s.reports.modify reportId fun report => { report with row := f report.row } }

/-- `INSERT INTO case_reports`, under `UNIQUE (case_id, idempotency_key)`. -/
def insertReport (s : State) (idempotencyKey : String) : Option State :=
  if s.reports.any fun report => report.idempotencyKey = idempotencyKey then none
  else some { s with reports := s.reports ++ [⟨idempotencyKey, 0, newReport⟩] }

def createCaseReport (s : State) (idempotencyKey : String) : State := (insertReport s idempotencyKey).getD s

def linkedExport (s : State) (row : Report) : LinkedExport :=
  match row.exportId.bind fun x => s.exports[x]? with
  | none => .missing
  | some found =>
    match found.verificationStatus with
    | .pending => .pending
    | .verified => .verified
    | .failed => .failed

/-- `process_next_report` up to its first commit, with the export that it may queue. -/
def processReport (s : State) (reportId : ℕ) (timedOut : Bool) (report : CaseReport) : State :=
  let row := processNextReport timedOut (linkedExport s report.row) s.exports.length report.row
  { s with
    exports := if row.exportId = report.row.exportId then s.exports else s.exports ++ [pendingExport]
    reports := s.reports.set reportId { report with row } }

def finishReport (s : State) (reportId : ℕ) (sha256 : String) (verified : Bool) (completedAt : ℕ)
    (report : CaseReport) : State :=
  if report.row.phase ≠ .generating then s
  else if report.row.status = .cancelRequested then
    setReport s reportId fun row => { setCancelled row with phase := .idle }
  else if verified then
    { s with
      evidence := s.evidence ++ [⟨"EXPORT", false, true⟩]
      reports := s.reports.set reportId
        { report with completedAt, row := completeRow s.evidence.length sha256 report.row } }
  else setReport s reportId raise

def checks (s : State) : Bool :=
  s.evidence.any Evidence.requiredForExport &&
    (s.evidence.all fun row => !row.requiredForExport || row.verified) && s.gaps == 0

def isCompleted (report : CaseReport) : Bool :=
  report.row.status = .completed && report.row.verificationStatus = .verified

/-- `ORDER BY completed_at DESC LIMIT 1` over the completed reports. -/
def existing (s : State) : Option ℕ :=
  ((List.range s.reports.length).filter fun i => (s.reports[i]?).any isCompleted).argmax fun i =>
    (s.reports[i]?).elim 0 CaseReport.completedAt

def finalKey (s : State) : String := "final-teardown:" ++ s.caseId

def setPhase (s : State) (runId : ℕ) (phase : RunPhase) : State :=
  { s with runs := s.runs.modify runId fun r => { r with phase } }

def lookUp (s : State) (runId : ℕ) : State :=
  match existing s with
  | some reportId => setPhase s runId (.waiting reportId)
  | none => setPhase s runId .inserting

def insertFinal (s : State) (runId : ℕ) : State :=
  match insertReport s (finalKey s) with
  | none => setPhase s runId .raised
  | some s' => setPhase s' runId (.waiting s.reports.length)

def passes (s : State) (reportId : ℕ) : Bool :=
  (s.reports[reportId]?).any fun report => isCompleted report && linkedExport s report.row = .verified

def poll (s : State) (runId reportId : ℕ) : State :=
  match s.reports[reportId]? with
  | none => setPhase s runId .blocked
  | some report =>
    match report.row.status with
    | .completed => setPhase s runId (if passes s reportId then .passed reportId else .blocked)
    | .failed | .cancelled => setPhase s runId .blocked
    | _ => s

inductive Action where
  | acquire (row : Evidence)
  | verify (evidenceId : ℕ) (verified : Bool)
  | openGap
  | resolveGap
  | createExport
  | requestExportVerification (exportId : ℕ)
  | loadManifest (exportId : ℕ)
  | finishExport (exportId : ℕ) (signed : Bool)
  | crashExport (exportId : ℕ)
  | createCaseReport (idempotencyKey : String)
  | cancelCaseReport (reportId : ℕ)
  | processReport (reportId : ℕ) (timedOut : Bool)
  | finishReport (reportId : ℕ) (sha256 : String) (verified : Bool) (completedAt : ℕ)
  | raise (reportId : ℕ)
  | failRaised (reportId : ℕ)
  | crashReport (reportId : ℕ)
  | check
  | continueRun (runId : ℕ)
  | timeout (runId : ℕ)

def continueRun (s : State) (runId : ℕ) (r : FinaliseRun) : State :=
  match r.phase with
  | .checked => lookUp s runId
  | .inserting => insertFinal s runId
  | .waiting reportId => poll s runId reportId
  | _ => s

def step (s : State) : Action → State
  | .acquire row => { s with evidence := s.evidence ++ [row] }
  | .verify evidenceId verified =>
    { s with evidence := s.evidence.modify evidenceId fun row => { row with verified } }
  | .openGap => { s with gaps := s.gaps + 1 }
  | .resolveGap => { s with gaps := s.gaps - 1 }
  | .createExport => { s with exports := s.exports ++ [pendingExport] }
  | .requestExportVerification exportId => setExport s exportId fun row => { row with verificationStatus := .pending }
  | .loadManifest exportId => setExport s exportId (loadManifest s.evidence)
  | .finishExport exportId signed => finishExport s exportId signed
  | .crashExport exportId => setExport s exportId fun row => { row with loaded := none }
  | .createCaseReport idempotencyKey => createCaseReport s idempotencyKey
  | .cancelCaseReport reportId => setReport s reportId cancelCaseReport
  | .processReport reportId timedOut => (s.reports[reportId]?).elim s (processReport s reportId timedOut)
  | .finishReport reportId sha256 verified completedAt =>
    (s.reports[reportId]?).elim s (finishReport s reportId sha256 verified completedAt)
  | .raise reportId => setReport s reportId raise
  | .failRaised reportId => setReport s reportId failRaised
  | .crashReport reportId => setReport s reportId crash
  | .check => if checks s then { s with runs := s.runs ++ [⟨requiredEvidence s.evidence, .checked⟩] } else s
  | .continueRun runId => (s.runs[runId]?).elim s (continueRun s runId)
  | .timeout runId => setPhase s runId .blocked

def Holds (row : Export) (manifest : Manifest) : Prop := row.loaded = some manifest ∨ row.manifest = some manifest

def Covered (s : State) (required : List ℕ) (reportId : ℕ) : Prop :=
  ∀ report, s.reports[reportId]? = some report → ∀ x, report.row.exportId = some x →
    ∀ found, s.exports[x]? = some found → ∀ manifest, Holds found manifest → ∀ i ∈ required, i < manifest.ledger

/-- A run reuses no report whose export was read before a required object came, and
inserts its report where the fixed key is free. -/
def Admissible (s : State) : Action → Prop
  | .continueRun runId => ∀ r, s.runs[runId]? = some r →
      (r.phase = .checked → ∀ reportId, existing s = some reportId → Covered s r.required reportId) ∧
        (r.phase = .inserting → ∀ report ∈ s.reports, report.idempotencyKey ≠ finalKey s)
  | _ => True

/-! What a step leaves of the ledger, the exports and the reports. -/

structure EvidenceGrows (evidence evidence' : List Evidence) : Prop where
  length : evidence.length ≤ evidence'.length
  same : ∀ i, i < evidence.length → isManifestEvidence evidence' i = isManifestEvidence evidence i

def Signed (row : Export) : Prop := row.verificationStatus = .verified → row.manifest.isSome

def ExportsGrow (evidence : List Evidence) (exports exports' : List Export) : Prop :=
  ∀ (x : ℕ) (found : Export), exports'[x]? = some found → found = pendingExport ∨
    ∃ old, exports[x]? = some old ∧ (Signed old → Signed found) ∧
      ∀ manifest, Holds found manifest → manifest = loadManifestData evidence ∨ Holds old manifest

def ReportsGrow (exports : List Export) (reports reports' : List CaseReport) : Prop :=
  ∀ (reportId : ℕ) (report' : CaseReport), reports'[reportId]? = some report' →
    ∀ x, report'.row.exportId = some x → x = exports.length ∨
      ∃ report, reports[reportId]? = some report ∧ report.row.exportId = some x

structure Grows (s s' : State) : Prop where
  evidence : EvidenceGrows s.evidence s'.evidence
  exports : ExportsGrow s.evidence s.exports s'.exports
  reports : ReportsGrow s.exports s.reports s'.reports

theorem evidenceGrows_refl (evidence : List Evidence) : EvidenceGrows evidence evidence :=
  ⟨le_rfl, fun _ _ => rfl⟩

theorem evidenceGrows_append (evidence more : List Evidence) : EvidenceGrows evidence (evidence ++ more) := by
  refine ⟨by simp, fun i inside => ?_⟩
  rw [isManifestEvidence, isManifestEvidence, List.getElem?_append_left inside]

theorem evidenceGrows_verify (evidence : List Evidence) (evidenceId : ℕ) (verified : Bool) :
    EvidenceGrows evidence (evidence.modify evidenceId fun row => { row with verified }) := by
  refine ⟨by simp, fun i inside => ?_⟩
  rw [isManifestEvidence, isManifestEvidence, List.getElem?_modify, List.getElem?_eq_getElem inside]
  by_cases here : evidenceId = i <;> simp [here]

theorem exportsGrow_refl (evidence : List Evidence) (exports : List Export) :
    ExportsGrow evidence exports exports :=
  fun _ found located => .inr ⟨found, located, id, fun _ => .inr⟩

theorem exportsGrow_append (evidence : List Evidence) (exports : List Export) :
    ExportsGrow evidence exports (exports ++ [pendingExport]) := by
  intro x found located
  by_cases inside : x < exports.length
  · rw [List.getElem?_append_left inside] at located
    exact exportsGrow_refl evidence exports x found located
  · have last := List.mem_of_getElem? (List.getElem?_append_right (not_lt.mp inside) ▸ located)
    exact .inl (List.mem_singleton.mp last)

theorem exportsGrow_modify {evidence : List Evidence} {exports : List Export} {exportId : ℕ} {f : Export → Export}
    (changed : ∀ old, exports[exportId]? = some old → (Signed old → Signed (f old)) ∧
      ∀ manifest, Holds (f old) manifest → manifest = loadManifestData evidence ∨ Holds old manifest) :
    ExportsGrow evidence exports (exports.modify exportId f) := by
  intro x found located
  rw [List.getElem?_modify] at located
  obtain ⟨old, there, rfl⟩ := Option.map_eq_some_iff.mp located
  by_cases same : exportId = x
  · subst same
    rw [if_pos rfl]
    exact .inr ⟨old, there, changed old there⟩
  · rw [if_neg same]
    exact .inr ⟨old, there, id, fun _ => .inr⟩

theorem reportsGrow_refl (exports : List Export) (reports : List CaseReport) :
    ReportsGrow exports reports reports :=
  fun _ report located _ linked => .inr ⟨report, located, linked⟩

theorem reportsGrow_append (exports : List Export) (reports : List CaseReport) (idempotencyKey : String) :
    ReportsGrow exports reports (reports ++ [⟨idempotencyKey, 0, newReport⟩]) := by
  intro reportId report located x linked
  by_cases inside : reportId < reports.length
  · rw [List.getElem?_append_left inside] at located
    exact .inr ⟨report, located, linked⟩
  · have last := List.mem_of_getElem? (List.getElem?_append_right (not_lt.mp inside) ▸ located)
    rw [List.mem_singleton.mp last] at linked
    cases linked

theorem reportsGrow_set {exports : List Export} {reports : List CaseReport} {reportId : ℕ}
    {report report' : CaseReport} (there : reports[reportId]? = some report)
    (kept : report'.row.exportId = report.row.exportId ∨ report'.row.exportId = some exports.length) :
    ReportsGrow exports reports (reports.set reportId report') := by
  intro i found located x linked
  by_cases same : reportId = i
  · subst same
    rw [List.getElem?_set_self (List.getElem?_eq_some_iff.mp there).1] at located
    cases located
    rcases kept with kept | fresh
    · exact .inr ⟨report, there, kept.symm.trans linked⟩
    · exact .inl (Option.some.inj (linked.symm.trans fresh))
  · rw [List.getElem?_set_ne same] at located
    exact .inr ⟨found, located, linked⟩

theorem reportsGrow_modify {exports : List Export} {reports : List CaseReport} {reportId : ℕ} {f : Report → Report}
    (kept : ∀ row, (f row).exportId = row.exportId) :
    ReportsGrow exports reports (reports.modify reportId fun report => { report with row := f report.row }) := by
  intro i found located x linked
  rw [List.getElem?_modify] at located
  obtain ⟨old, there, rfl⟩ := Option.map_eq_some_iff.mp located
  refine .inr ⟨old, there, ?_⟩
  by_cases same : reportId = i
  · rw [if_pos same] at linked
    exact (kept old.row).symm.trans linked
  · rw [if_neg same] at linked
    exact linked

theorem exportId_processNextReport (timedOut : Bool) (linked : LinkedExport) (queuedExport : ℕ) (row : Report) :
    (processNextReport timedOut linked queuedExport row).exportId = row.exportId ∨
      (processNextReport timedOut linked queuedExport row).exportId = some queuedExport := by
  unfold processNextReport
  cases row.status with
  | queued | waitingForExport =>
    cases timedOut with
    | true => exact .inl rfl
    | false =>
      simp only [Bool.false_eq_true, if_false]
      split
      · exact .inr rfl
      · split <;> exact .inl rfl
  | _ => exact .inl rfl

theorem exportId_cancelCaseReport (row : Report) : (cancelCaseReport row).exportId = row.exportId := by
  unfold cancelCaseReport
  split <;> rfl

theorem exportId_raise (row : Report) : (raise row).exportId = row.exportId := by
  unfold raise
  split <;> rfl

theorem exportId_failRaised (row : Report) : (failRaised row).exportId = row.exportId := by
  unfold failRaised
  split <;> rfl

theorem grows_same {s s' : State} (evidence : s'.evidence = s.evidence) (exports : s'.exports = s.exports)
    (reports : s'.reports = s.reports) : Grows s s' := by
  refine ⟨?_, ?_, ?_⟩
  · rw [evidence]
    exact evidenceGrows_refl _
  · rw [exports]
    exact exportsGrow_refl _ _
  · rw [reports]
    exact reportsGrow_refl _ _

theorem grows_setExport {s : State} {exportId : ℕ} {f : Export → Export}
    (changed : ∀ old, s.exports[exportId]? = some old → (Signed old → Signed (f old)) ∧
      ∀ manifest, Holds (f old) manifest → manifest = loadManifestData s.evidence ∨ Holds old manifest) :
    Grows s (setExport s exportId f) :=
  ⟨evidenceGrows_refl _, exportsGrow_modify changed, reportsGrow_refl _ _⟩

theorem grows_setReport {s : State} {reportId : ℕ} {f : Report → Report}
    (kept : ∀ row, (f row).exportId = row.exportId) : Grows s (setReport s reportId f) :=
  ⟨evidenceGrows_refl _, exportsGrow_refl _ _, reportsGrow_modify kept⟩

theorem grows_loadManifest (s : State) (exportId : ℕ) :
    Grows s (setExport s exportId (loadManifest s.evidence)) := by
  refine grows_setExport fun old _ => ?_
  unfold loadManifest
  split
  · refine ⟨id, fun manifest held => ?_⟩
    rcases held with loaded | signed
    · exact .inl (Option.some.inj loaded).symm
    · exact .inr (.inr signed)
  · exact ⟨id, fun _ => .inr⟩

theorem grows_finishExport (s : State) (exportId : ℕ) (signed : Bool) :
    Grows s (finishExport s exportId signed) := by
  unfold finishExport
  cases found : (s.exports[exportId]?).bind Export.loaded with
  | none => exact grows_same rfl rfl rfl
  | some manifest =>
    obtain ⟨row, there, loaded⟩ := Option.bind_eq_some_iff.mp found
    cases signed with
    | false =>
      refine grows_setExport fun old _ => ⟨fun _ done => (by cases done), fun other held => ?_⟩
      rcases held with empty | kept
      · cases empty
      · exact .inr (.inr kept)
    | true =>
      refine ⟨evidenceGrows_append _ _, exportsGrow_modify fun old located => ?_, reportsGrow_refl _ _⟩
      refine ⟨fun _ _ => rfl, fun other held => ?_⟩
      rw [there] at located
      cases located
      rcases held with empty | kept
      · cases empty
      · exact .inr (.inl (loaded.trans kept))

theorem grows_insertReport {s s' : State} {idempotencyKey : String}
    (inserted : insertReport s idempotencyKey = some s') : Grows s s' := by
  unfold insertReport at inserted
  split at inserted
  · cases inserted
  · cases inserted
    exact ⟨evidenceGrows_refl _, exportsGrow_refl _ _, reportsGrow_append _ _ _⟩

theorem grows_processReport {s : State} {reportId : ℕ} {timedOut : Bool} {report : CaseReport}
    (there : s.reports[reportId]? = some report) : Grows s (processReport s reportId timedOut report) := by
  refine ⟨evidenceGrows_refl _, ?_, reportsGrow_set there (exportId_processNextReport _ _ _ _)⟩
  simp only [processReport]
  split
  · exact exportsGrow_refl _ _
  · exact exportsGrow_append _ _

theorem grows_finishReport {s : State} {reportId : ℕ} {sha256 : String} {verified : Bool} {completedAt : ℕ}
    {report : CaseReport} (there : s.reports[reportId]? = some report) :
    Grows s (finishReport s reportId sha256 verified completedAt report) := by
  unfold finishReport
  split
  · exact grows_same rfl rfl rfl
  · split
    · exact grows_setReport fun _ => rfl
    · split
      · exact ⟨evidenceGrows_append _ _, exportsGrow_refl _ _, reportsGrow_set there (.inl rfl)⟩
      · exact grows_setReport exportId_raise

theorem grows_continueRun (s : State) (runId : ℕ) (r : FinaliseRun) : Grows s (continueRun s runId r) := by
  unfold continueRun
  split
  · unfold lookUp
    split <;> exact grows_same rfl rfl rfl
  · unfold insertFinal
    cases inserted : insertReport s (finalKey s) with
    | none => exact grows_same rfl rfl rfl
    | some s' =>
      have grows := grows_insertReport inserted
      exact ⟨grows.evidence, grows.exports, grows.reports⟩
  · unfold poll
    split
    · exact grows_same rfl rfl rfl
    · split <;> exact grows_same rfl rfl rfl
  · exact grows_same rfl rfl rfl

theorem grows_step (s : State) (a : Action) : Grows s (step s a) := by
  cases a with
  | acquire row => exact ⟨evidenceGrows_append _ _, exportsGrow_refl _ _, reportsGrow_refl _ _⟩
  | verify evidenceId verified => exact ⟨evidenceGrows_verify _ _ _, exportsGrow_refl _ _, reportsGrow_refl _ _⟩
  | openGap | resolveGap | timeout => exact grows_same rfl rfl rfl
  | createExport => exact ⟨evidenceGrows_refl _, exportsGrow_append _ _, reportsGrow_refl _ _⟩
  | requestExportVerification exportId =>
    exact grows_setExport fun _ _ => ⟨fun _ done => (by cases done), fun _ => .inr⟩
  | loadManifest exportId => exact grows_loadManifest s exportId
  | finishExport exportId signed => exact grows_finishExport s exportId signed
  | crashExport exportId =>
    refine grows_setExport fun old _ => ⟨id, fun manifest held => ?_⟩
    rcases held with empty | kept
    · cases empty
    · exact .inr (.inr kept)
  | createCaseReport idempotencyKey =>
    simp only [step, createCaseReport]
    cases inserted : insertReport s idempotencyKey with
    | none => exact grows_same rfl rfl rfl
    | some s' => exact grows_insertReport inserted
  | cancelCaseReport reportId => exact grows_setReport exportId_cancelCaseReport
  | processReport reportId timedOut =>
    simp only [step]
    cases found : s.reports[reportId]? with
    | none => exact grows_same rfl rfl rfl
    | some report => exact grows_processReport found
  | finishReport reportId sha256 verified completedAt =>
    simp only [step]
    cases found : s.reports[reportId]? with
    | none => exact grows_same rfl rfl rfl
    | some report => exact grows_finishReport found
  | raise reportId => exact grows_setReport exportId_raise
  | failRaised reportId => exact grows_setReport exportId_failRaised
  | crashReport reportId => exact grows_setReport fun _ => rfl
  | check =>
    simp only [step]
    split
    · exact grows_same rfl rfl rfl
    · exact grows_same rfl rfl rfl
  | continueRun runId =>
    simp only [step]
    cases found : s.runs[runId]? with
    | none => exact grows_same rfl rfl rfl
    | some r => exact grows_continueRun s runId r

structure Read (evidence : List Evidence) (manifest : Manifest) : Prop where
  ledger : manifest.ledger ≤ evidence.length
  complete : ∀ i, i < manifest.ledger → isManifestEvidence evidence i = true → i ∈ manifest.evidenceObjects

structure RunSound (s : State) (r : FinaliseRun) : Prop where
  required : ∀ i ∈ r.required, isManifestEvidence s.evidence i = true
  lives : r.phase ≠ .raised
  covered : ∀ reportId, r.phase = .waiting reportId → Covered s r.required reportId

structure Sound (s : State) : Prop where
  read : ∀ found ∈ s.exports, ∀ manifest, Holds found manifest → Read s.evidence manifest
  signed : ∀ found ∈ s.exports, Signed found
  runs : ∀ r ∈ s.runs, RunSound s r

theorem inside_of_isManifestEvidence {evidence : List Evidence} {i : ℕ}
    (taken : isManifestEvidence evidence i = true) : i < evidence.length := by
  by_contra outside
  rw [isManifestEvidence, List.getElem?_eq_none (not_lt.mp outside)] at taken
  cases taken

theorem read_loadManifestData (evidence : List Evidence) : Read evidence (loadManifestData evidence) :=
  ⟨le_rfl, fun _ inside taken => List.mem_filter.mpr ⟨List.mem_range.mpr inside, taken⟩⟩

theorem read_grows {evidence evidence' : List Evidence} {manifest : Manifest} (grows : EvidenceGrows evidence evidence')
    (read : Read evidence manifest) : Read evidence' manifest := by
  refine ⟨read.ledger.trans grows.length, fun i inside taken => read.complete i inside ?_⟩
  rw [← grows.same i (inside.trans_le read.ledger)]
  exact taken

theorem not_holds_pendingExport {manifest : Manifest} : ¬ Holds pendingExport manifest := by
  rintro (held | held) <;> cases held

theorem runSound_grows {s s' : State} {r : FinaliseRun} (grows : Grows s s') (sound : RunSound s r) :
    RunSound s' r := by
  refine ⟨fun i mem => ?_, sound.lives,
    fun reportId waits report' located x linked found there manifest held i mem => ?_⟩
  · have taken := sound.required i mem
    rw [grows.evidence.same i (inside_of_isManifestEvidence taken)]
    exact taken
  · rcases grows.exports x found there with rfl | ⟨old, before, -, kept⟩
    · exact absurd held not_holds_pendingExport
    · rcases kept manifest held with rfl | earlier
      · exact inside_of_isManifestEvidence (sound.required i mem)
      · rcases grows.reports reportId report' located x linked with rfl | ⟨report, known, same⟩
        · rw [List.getElem?_eq_none le_rfl] at before
          cases before
        · exact sound.covered reportId waits report known x same old before manifest earlier i mem

theorem sound_grows {s s' : State} (sound : Sound s) (grows : Grows s s')
    (runs : ∀ r ∈ s'.runs, r ∈ s.runs ∨ RunSound s' r) : Sound s' := by
  have here : ∀ found ∈ s'.exports, found = pendingExport ∨ ∃ old ∈ s.exports, (Signed old → Signed found) ∧
      ∀ manifest, Holds found manifest → manifest = loadManifestData s.evidence ∨ Holds old manifest := by
    intro found mem
    obtain ⟨x, located⟩ := List.mem_iff_getElem?.mp mem
    rcases grows.exports x found located with fresh | ⟨old, there, kept⟩
    · exact .inl fresh
    · exact .inr ⟨old, List.mem_of_getElem? there, kept⟩
  refine ⟨fun found mem manifest held => ?_, fun found mem => ?_, fun r mem => ?_⟩
  · rcases here found mem with rfl | ⟨old, known, -, kept⟩
    · exact absurd held not_holds_pendingExport
    · rcases kept manifest held with rfl | earlier
      · exact read_grows grows.evidence (read_loadManifestData s.evidence)
      · exact read_grows grows.evidence (sound.read old known manifest earlier)
  · rcases here found mem with rfl | ⟨old, known, kept, -⟩
    · intro done
      cases done
    · exact kept (sound.signed old known)
  · rcases runs r mem with old | new
    · exact runSound_grows grows (sound.runs r old)
    · exact new

theorem mem_modify_runs {runs : List FinaliseRun} {runId : ℕ} {phase : RunPhase} {r : FinaliseRun}
    (mem : r ∈ runs.modify runId fun r => { r with phase }) :
    r ∈ runs ∨ ∃ old, runs[runId]? = some old ∧ r = { old with phase } := by
  obtain ⟨i, located⟩ := List.mem_iff_getElem?.mp mem
  rw [List.getElem?_modify] at located
  obtain ⟨old, there, rfl⟩ := Option.map_eq_some_iff.mp located
  by_cases same : runId = i
  · subst same
    rw [if_pos rfl]
    exact .inr ⟨old, there, rfl⟩
  · rw [if_neg same]
    exact .inl (List.mem_of_getElem? there)

theorem runs_setPhase {s : State} {runId : ℕ} {phase : RunPhase} {r : FinaliseRun} (sound : Sound s)
    (found : s.runs[runId]? = some r) (lives : phase ≠ .raised)
    (covered : ∀ reportId, phase = .waiting reportId → Covered s r.required reportId) :
    ∀ r' ∈ (setPhase s runId phase).runs, r' ∈ s.runs ∨ RunSound (setPhase s runId phase) r' := by
  intro r' mem
  rcases mem_modify_runs mem with old | ⟨old, there, rfl⟩
  · exact .inl old
  · rw [found] at there
    cases there
    exact .inr ⟨(sound.runs r (List.mem_of_getElem? found)).required, lives, covered⟩

theorem covered_of_unlinked {s : State} {required : List ℕ} {reportId : ℕ}
    (unlinked : ∀ report, s.reports[reportId]? = some report → report.row.exportId = none) :
    Covered s required reportId := by
  intro report located x linked
  rw [unlinked report located] at linked
  cases linked

theorem sound_setPhase {s : State} {runId : ℕ} {phase : RunPhase} {r : FinaliseRun} (sound : Sound s)
    (found : s.runs[runId]? = some r) (lives : phase ≠ .raised)
    (covered : ∀ reportId, phase = .waiting reportId → Covered s r.required reportId) :
    Sound (setPhase s runId phase) :=
  sound_grows sound (grows_same rfl rfl rfl) (runs_setPhase sound found lives covered)

theorem insertReport_of_free {s : State} {idempotencyKey : String}
    (free : ∀ report ∈ s.reports, report.idempotencyKey ≠ idempotencyKey) :
    insertReport s idempotencyKey = some { s with reports := s.reports ++ [⟨idempotencyKey, 0, newReport⟩] } := by
  have absent : (s.reports.any fun report => report.idempotencyKey = idempotencyKey) = false := by
    simpa using free
  rw [insertReport, absent]
  rfl

theorem sound_insertFinal {s : State} {runId : ℕ} {r : FinaliseRun} (sound : Sound s)
    (found : s.runs[runId]? = some r) (free : ∀ report ∈ s.reports, report.idempotencyKey ≠ finalKey s) :
    Sound (insertFinal s runId) := by
  have inserted := insertReport_of_free free
  rw [insertFinal, inserted]
  have grown := sound_grows sound (grows_insertReport inserted) fun r mem => .inl mem
  refine sound_setPhase grown found (fun raised => by cases raised) fun reportId same => ?_
  cases same
  refine covered_of_unlinked fun report located => ?_
  rw [List.getElem?_concat_length] at located
  cases located
  rfl

theorem sound_continueRun {s : State} {runId : ℕ} {r : FinaliseRun} (sound : Sound s)
    (found : s.runs[runId]? = some r)
    (reuses : r.phase = .checked → ∀ reportId, existing s = some reportId → Covered s r.required reportId)
    (inserts : r.phase = .inserting → ∀ report ∈ s.reports, report.idempotencyKey ≠ finalKey s) :
    Sound (continueRun s runId r) := by
  unfold continueRun
  split
  · rename_i checked
    unfold lookUp
    split
    · rename_i reportId latest
      refine sound_setPhase sound found (fun raised => by cases raised) fun other same => ?_
      cases same
      exact reuses checked reportId latest
    · exact sound_setPhase sound found (fun raised => by cases raised) fun _ same => by cases same
  · rename_i inserting
    exact sound_insertFinal sound found (inserts inserting)
  · unfold poll
    have ends : ∀ phase : RunPhase, phase ≠ .raised → (∀ reportId, phase ≠ .waiting reportId) →
        Sound (setPhase s runId phase) := fun phase lives elsewhere =>
      sound_setPhase sound found lives fun reportId same => absurd same (elsewhere reportId)
    split
    · exact ends .blocked (by decide) fun _ same => by cases same
    · split
      · split
        · exact ends (.passed _) (fun same => by cases same) fun _ same => by cases same
        · exact ends .blocked (by decide) fun _ same => by cases same
      · exact ends .blocked (by decide) fun _ same => by cases same
      · exact ends .blocked (by decide) fun _ same => by cases same
      · exact sound
  · exact sound

theorem sound_beside {s : State} {a : Action} (sound : Sound s) (same : (step s a).runs = s.runs) :
    Sound (step s a) := by
  refine sound_grows sound (grows_step s a) fun r mem => ?_
  rw [same] at mem
  exact .inl mem

theorem sound_check {s : State} (sound : Sound s) : Sound (step s .check) := by
  simp only [step]
  split
  · refine sound_grows sound (grows_same rfl rfl rfl) fun r mem => ?_
    rcases List.mem_append.mp mem with old | new
    · exact .inl old
    · rw [List.mem_singleton.mp new]
      refine .inr ⟨fun i required => ?_, fun raised => (by cases raised), fun _ same => (by cases same)⟩
      exact (Bool.and_eq_true_iff.mp (List.mem_filter.mp required).2).1
  · exact sound

theorem sound_timeout {s : State} (runId : ℕ) (sound : Sound s) : Sound (step s (.timeout runId)) := by
  simp only [step]
  cases found : s.runs[runId]? with
  | none =>
    refine sound_grows sound (grows_same rfl rfl rfl) fun r mem => ?_
    rcases mem_modify_runs mem with old | ⟨_, there, -⟩
    · exact .inl old
    · rw [found] at there
      cases there
  | some r => exact sound_setPhase sound found (by decide) fun _ same => by cases same

theorem runs_insertReport {s s' : State} {idempotencyKey : String}
    (inserted : insertReport s idempotencyKey = some s') : s'.runs = s.runs := by
  unfold insertReport at inserted
  split at inserted
  · cases inserted
  · cases inserted
    rfl

theorem runs_finishExport (s : State) (exportId : ℕ) (signed : Bool) :
    (finishExport s exportId signed).runs = s.runs := by
  unfold finishExport
  split
  · rfl
  · split <;> rfl

theorem runs_finishReport (s : State) (reportId : ℕ) (sha256 : String) (verified : Bool) (completedAt : ℕ)
    (report : CaseReport) : (finishReport s reportId sha256 verified completedAt report).runs = s.runs := by
  unfold finishReport
  split
  · rfl
  · split
    · rfl
    · split <;> rfl

theorem sound_step {s : State} {a : Action} (sound : Sound s) (admissible : Admissible s a) : Sound (step s a) := by
  cases a with
  | check => exact sound_check sound
  | timeout runId => exact sound_timeout runId sound
  | continueRun runId =>
    simp only [step]
    cases found : s.runs[runId]? with
    | none => exact sound
    | some r => exact sound_continueRun sound found (admissible r found).1 (admissible r found).2
  | finishExport exportId signed => exact sound_beside sound (runs_finishExport s exportId signed)
  | createCaseReport idempotencyKey =>
    refine sound_beside sound ?_
    simp only [step, createCaseReport]
    cases inserted : insertReport s idempotencyKey with
    | none => rfl
    | some s' => exact runs_insertReport inserted
  | processReport reportId timedOut =>
    refine sound_beside sound ?_
    simp only [step]
    cases s.reports[reportId]? <;> rfl
  | finishReport reportId sha256 verified completedAt =>
    refine sound_beside sound ?_
    simp only [step]
    cases s.reports[reportId]? with
    | none => rfl
    | some report => exact runs_finishReport s reportId sha256 verified completedAt report
  | _ => exact sound_beside sound rfl

def Lists (s : State) (required : List ℕ) (reportId : ℕ) : Prop :=
  ∃ report exportId found manifest, s.reports[reportId]? = some report ∧ report.row.status = .completed ∧
    report.row.exportId = some exportId ∧ s.exports[exportId]? = some found ∧ found.manifest = some manifest ∧
      ∀ i ∈ required, i ∈ manifest.evidenceObjects

theorem lists_of_passes {s : State} {r : FinaliseRun} {reportId : ℕ} (sound : Sound s) (mem : r ∈ s.runs)
    (waits : r.phase = .waiting reportId) (passed : passes s reportId = true) : Lists s r.required reportId := by
  obtain ⟨report, located, good⟩ := (Option.any_eq_true _ _).mp passed
  rw [Bool.and_eq_true, decide_eq_true_eq] at good
  obtain ⟨completed, verified⟩ := good
  unfold linkedExport at verified
  cases linked : report.row.exportId.bind fun x => s.exports[x]? with
  | none =>
    rw [linked] at verified
    cases verified
  | some found =>
    obtain ⟨exportId, named, there⟩ := Option.bind_eq_some_iff.mp linked
    have memExport := List.mem_of_getElem? there
    have signed : found.verificationStatus = .verified := by
      rw [linked] at verified
      cases status : found.verificationStatus <;> simp only [status] at verified <;> first | rfl | cases verified
    obtain ⟨manifest, recorded⟩ := Option.isSome_iff_exists.mp (sound.signed found memExport signed)
    have runSound := sound.runs r mem
    refine ⟨report, exportId, found, manifest, located, ?_, named, there, recorded, fun i required => ?_⟩
    · simp only [isCompleted, Bool.and_eq_true, decide_eq_true_eq] at completed
      exact completed.1
    · have earlier := runSound.covered reportId waits report located exportId named found there manifest
        (.inr recorded) i required
      exact (sound.read found memExport manifest (.inr recorded)).complete i earlier (runSound.required i required)

structure Opening (s : State) : Prop where
  evidence : s.evidence = []
  exports : s.exports = []
  reports : s.reports = []
  runs : s.runs = []

/-- In every run of admissible steps what would be printed as PASS names a report whose
manifest lists what the run required, and no run of the script fails behind its checks. -/
theorem finalisation_sound_and_retried {s : State} (opening : Opening s) {actions : List Action}
    (along : Along step Admissible s actions) {front : List Action} (reached : front <+: actions) :
    ∀ r ∈ (run step s front).runs, r.phase ≠ .raised ∧ ∀ reportId, r.phase = .waiting reportId →
      passes (run step s front) reportId = true → Lists (run step s front) r.required reportId := by
  have initial : Sound s := by
    refine ⟨fun found mem => ?_, fun found mem => ?_, fun r mem => ?_⟩
    · rw [opening.exports] at mem
      cases mem
    · rw [opening.exports] at mem
      cases mem
    · rw [opening.runs] at mem
      cases mem
  have throughout := throughout_of_along (I := Sound) (P := Sound)
    (fun _ _ before admissible => sound_step before admissible) (fun _ good => good) initial along
  have here := (throughout_iff_front _ _ _ _).mp throughout front reached
  intro r mem
  exact ⟨(here.runs r mem).lives, fun reportId waits passed => lists_of_passes here mem waits passed⟩

/-! A case that is finalised, once more behind another object, and again behind a
cancellation. -/

def emptyCase : State := ⟨"CASE", [], 0, [], [], []⟩

def required : Evidence := ⟨"LOG", true, true⟩

def finalising : List Action :=
  [.acquire required, .check, .continueRun 0, .continueRun 0, .processReport 0 false, .loadManifest 0,
    .finishExport 0 true, .processReport 0 false, .finishReport 0 "0" true 1]

theorem finalising_passes : passes (run step emptyCase finalising) 0 = true ∧
    ∀ r ∈ (run step emptyCase finalising).runs, r.phase ≠ .raised ∧ ∀ reportId, r.phase = .waiting reportId →
      passes (run step emptyCase finalising) reportId = true →
        Lists (run step emptyCase finalising) r.required reportId := by
  have along : Along step Admissible emptyCase finalising := by
    refine ⟨trivial, trivial, fun r found => ?_, fun r found => ?_, trivial, trivial, trivial, trivial, trivial, trivial⟩
    · cases found
      exact ⟨fun _ _ reused => (by cases reused), fun inserting => (by cases inserting)⟩
    · cases found
      exact ⟨fun checked => (by cases checked), fun _ report mem => (by cases mem)⟩
  exact ⟨by decide, finalisation_sound_and_retried ⟨rfl, rfl, rfl, rfl⟩ along (List.prefix_refl _)⟩

/-- The report is reused for an object that its manifest has not, and no report follows
a cancelled one. -/
theorem finalisation_unsound_and_refused :
    (let again := run step emptyCase (finalising ++ [.acquire required, .check, .continueRun 1])
     (again.runs.map FinaliseRun.required = [[0], [0, 6]]) ∧
       (again.runs.map FinaliseRun.phase = [.waiting 0, .waiting 0]) ∧ passes again 0 = true ∧
       (again.exports.map fun row => row.manifest.map Manifest.evidenceObjects) = [some [0]]) ∧
      (run step emptyCase [.acquire required, .check, .continueRun 0, .continueRun 0, .cancelCaseReport 0, .check,
        .continueRun 1, .continueRun 1]).runs.map FinaliseRun.phase = [.waiting 0, .raised] := by
  decide

end Mirage.FinaliseCase
