import Mirage.ReportRun

/-! `create_case_report` and the worker that serves its requests. -/

namespace Mirage.ReportRequests
open EvidenceAcquisition ExportEligibility ExportGeneration RowLocks
open ReportRun (evidenceIds included packageable)

/-- The request with the case of its path and its `Idempotency-Key`; of the override
the policy decision that it names. -/
structure ReportCreateRequest where
  caseId : String
  idempotencyKey : String
  exportMode : String
  selectedEvidenceIds : List String
  collectionGapOverride : Option String
  deriving DecidableEq

/-- A row of `policy_decisions` with the case of its proposal. -/
structure PolicyDecision where
  decisionId : String
  caseId : String
  decision : String

inductive ExportStatus where
  | pending
  | verified (manifest : List EvidenceRow)
  | failed

structure Export where
  caseId : String
  status : ExportStatus

inductive Status where
  | queued
  | waitingForExport (exportId : ℕ)
  | completed
  | failed

structure Report where
  request : ReportCreateRequest
  status : Status

inductive Refusal where
  | badRequest (message : String)
  | unprocessable (message : String)
  | notEligible (reasons : List String)
  | noAllowDecision
  | selectedNotEligible (absent unverified : List String)
  | caseNotFound
  | uniqueViolation

structure Answer where
  request : ReportCreateRequest
  reply : Except Refusal ℕ

structure Service where
  cases : List String
  evidence : Evidence
  decisions : List PolicyDecision
  exports : List Export
  reports : List Report
  /-- The requests that passed their lookup and have not inserted their row. -/
  inFlight : List ReportCreateRequest
  answers : List Answer

def allows (decisions : List PolicyDecision) (caseId decisionId : String) : Bool :=
  decisions.any fun row => row.decisionId = decisionId && row.caseId = caseId && row.decision = "ALLOW"

def isAbsent (e : Evidence) (caseId evidenceId : String) : Bool :=
  (e.ofCase caseId).all fun row => row.evidenceId ≠ evidenceId

def isUnverified (e : Evidence) (caseId evidenceId : String) : Bool :=
  (e.ofCase caseId).any fun row => row.evidenceId = evidenceId && row.verificationStatus ≠ verified

def sortedIds (ids : List String) : List String := ids.dedup.insertionSort fun a b => a ≤ b

def check (s : Service) (r : ReportCreateRequest) : Except Refusal Unit := do
  require (1 ≤ r.idempotencyKey.length && r.idempotencyKey.length ≤ 256)
    (.badRequest "Idempotency-Key must contain 1 to 256 characters")
  require (!(r.exportMode = "SELECTED_EVIDENCE" && r.selectedEvidenceIds.isEmpty))
    (.unprocessable "SELECTED_EVIDENCE requires selected_evidence_ids")
  require (r.exportMode = "SELECTED_EVIDENCE" || r.selectedEvidenceIds.isEmpty)
    (.unprocessable "selected_evidence_ids is valid only for SELECTED_EVIDENCE")
  require ((exportEligibility s.evidence r.caseId).1 || r.collectionGapOverride.isSome)
    (.notEligible (exportEligibility s.evidence r.caseId).2)
  require (r.collectionGapOverride.all (allows s.decisions r.caseId)) .noAllowDecision
  let absent := sortedIds (r.selectedEvidenceIds.filter (isAbsent s.evidence r.caseId))
  let unverified := sortedIds (r.selectedEvidenceIds.filter (isUnverified s.evidence r.caseId))
  require (absent.isEmpty && unverified.isEmpty) (.selectedNotEligible absent unverified)

def sameKey (r other : ReportCreateRequest) : Bool :=
  other.caseId = r.caseId && other.idempotencyKey = r.idempotencyKey

def lookup (reports : List Report) (r : ReportCreateRequest) : Option ℕ :=
  reports.findIdx? fun row => sameKey r row.request

def Service.answer (s : Service) (r : ReportCreateRequest) (reply : Except Refusal ℕ) : Service :=
  { s with answers := s.answers ++ [⟨r, reply⟩] }

def openRequest (s : Service) (r : ReportCreateRequest) : Service :=
  match check s r with
  | .error refusal => s.answer r (.error refusal)
  | .ok () =>
    match lookup s.reports r with
    | some reportId => s.answer r (.ok reportId)
    | none =>
      if r.caseId ∈ s.cases then { s with inFlight := s.inFlight ++ [r] }
      else s.answer r (.error .caseNotFound)

/-- The INSERT and the commit; `(case_id, idempotency_key)` is unique. -/
def commitRequest (s : Service) (r : ReportCreateRequest) : Service :=
  if r ∈ s.inFlight then
    let s := { s with inFlight := s.inFlight.erase r }
    match lookup s.reports r with
    | some _ => s.answer r (.error .uniqueViolation)
    | none => Service.answer { s with reports := s.reports ++ [⟨r, .queued⟩] } r (.ok s.reports.length)
  else s

structure Worker extends Verifier where
  sign : List EvidenceRow → String
  limitations : List String

def ExportStatus.isPending : ExportStatus → Bool
  | .pending => true
  | _ => false

def Status.isOpen : Status → Bool
  | .queued | .waitingForExport _ => true
  | _ => false

def verifiedLedger (v : Verifier) (e : Evidence) (caseId : String) : Evidence :=
  match verifyAll v e (preExportEvidenceIds e caseId) with
  | .error _ => e
  | .ok (e, _) => e

def generate (w : Worker) (s : Service) (x : ℕ) (row : Export) : Service :=
  match generateExport w.toVerifier w.sign w.limitations s.evidence row.caseId with
  | .ok (evidence, package) =>
    { s with evidence, exports := s.exports.set x { row with status := .verified package.evidenceObjects } }
  | .error (.notEligible _) =>
    { s with
      evidence := verifiedLedger w.toVerifier s.evidence row.caseId
      exports := s.exports.set x { row with status := .failed } }
  | .error _ => { s with exports := s.exports.set x { row with status := .failed } }

def Service.setStatus (s : Service) (reportId : ℕ) (row : Report) (status : Status) : Service :=
  { s with reports := s.reports.set reportId { row with status } }

def process (s : Service) (reportId : ℕ) (row : Report) : Service :=
  match row.status with
  | .queued =>
    Service.setStatus { s with exports := s.exports ++ [⟨row.request.caseId, .pending⟩] } reportId row
      (.waitingForExport s.exports.length)
  | .waitingForExport x =>
    match (s.exports[x]?).map Export.status with
    | none | some .failed => s.setStatus reportId row .failed
    | some .pending => s
    | some (.verified manifest) =>
      if packageable row.request.exportMode row.request.selectedEvidenceIds
          (manifestEvidence s.evidence row.request.caseId) manifest then
        s.setStatus reportId row .completed
      else s.setStatus reportId row .failed
  | _ => s

def work (w : Worker) (s : Service) : Service :=
  match s.exports.findIdx? fun row => row.status.isPending with
  | some x => (s.exports[x]?).elim s (generate w s x)
  | none =>
    match s.reports.findIdx? fun row => row.status.isOpen with
    | some reportId => (s.reports[reportId]?).elim s (process s reportId)
    | none => s

inductive Action where
  | openRequest (r : ReportCreateRequest)
  | commitRequest (r : ReportCreateRequest)
  | rollback (r : ReportCreateRequest)
  | createExport (caseId : String)
  | work (w : Worker)
  | change (cases : List String) (evidence : Evidence) (decisions : List PolicyDecision)

def step (s : Service) : Action → Service
  | .openRequest r => openRequest s r
  | .commitRequest r => commitRequest s r
  | .rollback r => { s with inFlight := s.inFlight.erase r }
  | .createExport caseId => { s with exports := s.exports ++ [⟨caseId, .pending⟩] }
  | .work w => work w s
  | .change cases evidence decisions => { s with cases, evidence, decisions }

structure Passes (s : Service) (r : ReportCreateRequest) : Prop where
  key : 1 ≤ r.idempotencyKey.length ∧ r.idempotencyKey.length ≤ 256
  selection : r.exportMode = "SELECTED_EVIDENCE" ↔ r.selectedEvidenceIds ≠ []
  eligible : (exportEligibility s.evidence r.caseId).1 = true ∨ r.collectionGapOverride.isSome = true
  allowed : ∀ decisionId, r.collectionGapOverride = some decisionId → allows s.decisions r.caseId decisionId = true
  selected : ∀ evidenceId ∈ r.selectedEvidenceIds,
    ∃ row ∈ s.evidence.ofCase r.caseId, row.evidenceId = evidenceId ∧ row.verificationStatus = verified

structure Deliverable (v : Verifier) (e : Evidence) (r : ReportCreateRequest) : Prop where
  intact : ∀ row ∈ manifestEvidence e r.caseId, (v.store row.location).intact v.sha256 row.sha256 = true
  components : ∀ row ∈ e.ofCase r.caseId, row.requiredForExport = true →
    row.evidenceType ∈ ["SIGNATURE", "VERIFICATION_REPORT"] → row.verificationStatus = verified
  gaps : e.openGaps r.caseId = []
  mode : r.exportMode ∈ ["METADATA_ONLY", "SELECTED_EVIDENCE", "COMPLETE_CASE"]
  selected : r.exportMode = "SELECTED_EVIDENCE" → ∀ evidenceId ∈ r.selectedEvidenceIds,
    evidenceId ∈ evidenceIds (manifestEvidence e r.caseId)

def Admissible (v : Verifier) (s : Service) : Action → Prop
  | .openRequest r => ((∃ row ∈ s.reports, sameKey r row.request = true) → Passes s r) ∧
      ∀ other ∈ s.inFlight, sameKey r other = false
  | .commitRequest r => r ∈ s.inFlight → Deliverable v s.evidence r
  | _ => True

/-! The answers to requests with one key. -/

theorem check_of_passes {s : Service} {r : ReportCreateRequest} (passes : Passes s r) : check s r = .ok () := by
  have key : (1 ≤ r.idempotencyKey.length && r.idempotencyKey.length ≤ 256) = true := by
    simp only [passes.key.1, passes.key.2, decide_true, Bool.and_self]
  have given : (!(r.exportMode = "SELECTED_EVIDENCE" && r.selectedEvidenceIds.isEmpty)) = true := by
    by_cases selected : r.exportMode = "SELECTED_EVIDENCE"
    · have filled := passes.selection.mp selected
      simp [filled]
    · simp [selected]
  have only : (r.exportMode = "SELECTED_EVIDENCE" || r.selectedEvidenceIds.isEmpty) = true := by
    by_cases selected : r.exportMode = "SELECTED_EVIDENCE"
    · simp [selected]
    · have absent : r.selectedEvidenceIds = [] := by
        by_contra filled
        exact selected (passes.selection.mpr filled)
      simp [absent]
  have eligible : ((exportEligibility s.evidence r.caseId).1 || r.collectionGapOverride.isSome) = true :=
    (Bool.or_eq_true _ _).mpr passes.eligible
  have allowed : r.collectionGapOverride.all (allows s.decisions r.caseId) = true := by
    cases decision : r.collectionGapOverride with
    | none => rfl
    | some decisionId => exact passes.allowed decisionId decision
  have present : r.selectedEvidenceIds.filter (isAbsent s.evidence r.caseId) = [] := by
    rw [List.filter_eq_nil_iff]
    intro evidenceId mem absent
    obtain ⟨row, memRow, same, -⟩ := passes.selected evidenceId mem
    have other := List.all_eq_true.mp absent row memRow
    exact of_decide_eq_true other same
  have checked : r.selectedEvidenceIds.filter (isUnverified s.evidence r.caseId) = [] := by
    rw [List.filter_eq_nil_iff]
    intro evidenceId mem unverified
    obtain ⟨row, memRow, same, good⟩ := passes.selected evidenceId mem
    obtain ⟨other, memOther, bad⟩ := List.any_eq_true.mp unverified
    rw [Bool.and_eq_true, decide_eq_true_eq, decide_eq_true_eq] at bad
    have one := s.evidence.rows.key_injective (List.mem_filter.mp memOther).1 (List.mem_filter.mp memRow).1
      (bad.1.trans same.symm)
    rw [one] at bad
    exact bad.2 good
  unfold check
  rw [key, given, only, eligible, allowed, present, checked]
  rfl

theorem sameKey_comm (r other : ReportCreateRequest) : sameKey r other = sameKey other r := by
  simp only [sameKey, eq_comm]

theorem sameKey_iff {r other : ReportCreateRequest} :
    sameKey r other = true ↔ other.caseId = r.caseId ∧ other.idempotencyKey = r.idempotencyKey := by
  simp only [sameKey, Bool.and_eq_true, decide_eq_true_eq]

theorem lookup_eq_none {reports : List Report} {r : ReportCreateRequest} :
    lookup reports r = none ↔ ∀ row ∈ reports, sameKey r row.request = false := by
  simp only [lookup, List.findIdx?_eq_none_iff]

theorem lookup_eq_some {reports : List Report} {r : ReportCreateRequest} {reportId : ℕ}
    (found : lookup reports r = some reportId) :
    ∃ row, reports[reportId]? = some row ∧ sameKey r row.request = true := by
  obtain ⟨inside, same, -⟩ := List.findIdx?_eq_some_iff_getElem.mp found
  exact ⟨reports[reportId], List.getElem?_eq_getElem inside, same⟩

def Consistent (a b : Answer) : Prop :=
  sameKey a.request b.request = true → ∀ reportId, a.reply = .ok reportId → b.reply = .ok reportId

structure Indexed (s : Service) : Prop where
  answered : ∀ a ∈ s.answers, ∀ reportId, a.reply = .ok reportId →
    ∃ row, s.reports[reportId]? = some row ∧ sameKey a.request row.request = true
  unique : ∀ (i j : ℕ) (row row' : Report), s.reports[i]? = some row → s.reports[j]? = some row' →
    sameKey row.request row'.request = true → i = j
  apart : ∀ r ∈ s.inFlight, ∀ row ∈ s.reports, sameKey r row.request = false
  single : s.inFlight.Pairwise fun r other => sameKey r other = false
  consistent : s.answers.Pairwise Consistent

theorem sameKey_trans {a b c : ReportCreateRequest} (left : sameKey a b = true) (right : sameKey b c = true) :
    sameKey a c = true := by
  obtain ⟨first, second⟩ := sameKey_iff.mp left
  obtain ⟨third, fourth⟩ := sameKey_iff.mp right
  exact sameKey_iff.mpr ⟨third.trans first, fourth.trans second⟩

theorem indexed_answer {s : Service} {r : ReportCreateRequest} {reply : Except Refusal ℕ} (indexed : Indexed s)
    (accepted : ∀ reportId, reply = .ok reportId →
      ∃ row, s.reports[reportId]? = some row ∧ sameKey r row.request = true)
    (agrees : ∀ a ∈ s.answers, Consistent a ⟨r, reply⟩) : Indexed (s.answer r reply) where
  answered := by
    intro a mem reportId good
    rcases List.mem_append.mp mem with old | new
    · exact indexed.answered a old reportId good
    · rw [List.mem_singleton.mp new] at good ⊢
      exact accepted reportId good
  unique := indexed.unique
  apart := indexed.apart
  single := indexed.single
  consistent := by
    refine List.pairwise_append.mpr ⟨indexed.consistent, List.pairwise_singleton _ _, ?_⟩
    intro a mem b memB
    rw [List.mem_singleton.mp memB]
    exact agrees a mem

theorem consistent_of_free {s : Service} {r : ReportCreateRequest} {reply : Except Refusal ℕ}
    (indexed : Indexed s) (free : ∀ row ∈ s.reports, sameKey r row.request = false) :
    ∀ a ∈ s.answers, Consistent a ⟨r, reply⟩ := by
  intro a mem same reportId good
  obtain ⟨row, found, sameRow⟩ := indexed.answered a mem reportId good
  have back : sameKey r a.request = true := by rw [sameKey_comm]; exact same
  have taken := free row (List.mem_of_getElem? found)
  rw [sameKey_trans back sameRow] at taken
  cases taken

theorem indexed_openRequest {s : Service} {r : ReportCreateRequest} (indexed : Indexed s)
    (passes : (∃ row ∈ s.reports, sameKey r row.request = true) → Passes s r)
    (alone : ∀ other ∈ s.inFlight, sameKey r other = false) : Indexed (openRequest s r) := by
  by_cases taken : ∃ row ∈ s.reports, sameKey r row.request = true
  · rw [openRequest, check_of_passes (passes taken)]
    cases found : lookup s.reports r with
    | none =>
      obtain ⟨row, mem, same⟩ := taken
      rw [lookup_eq_none.mp found row mem] at same
      cases same
    | some reportId =>
      obtain ⟨row, located, same⟩ := lookup_eq_some found
      refine indexed_answer indexed (fun other good => ?_) fun a mem sameAnswer other good => ?_
      · cases good
        exact ⟨row, located, same⟩
      · obtain ⟨row', located', same'⟩ := indexed.answered a mem other good
        have back : sameKey row'.request a.request = true := by rw [sameKey_comm]; exact same'
        have one := indexed.unique other reportId row' row located' located
          (sameKey_trans (sameKey_trans back sameAnswer) same)
        rw [one]
  · have free : ∀ row ∈ s.reports, sameKey r row.request = false := by
      intro row mem
      rw [← Bool.not_eq_true]
      exact fun same => taken ⟨row, mem, same⟩
    unfold openRequest
    split
    · exact indexed_answer indexed (fun _ good => by cases good) (consistent_of_free indexed free)
    · rw [lookup_eq_none.mpr free]
      simp only
      split
      · refine ⟨indexed.answered, indexed.unique, fun other mem row memRow => ?_, ?_, indexed.consistent⟩
        · rcases List.mem_append.mp mem with old | new
          · exact indexed.apart other old row memRow
          · rw [List.mem_singleton.mp new]
            exact free row memRow
        · refine List.pairwise_append.mpr ⟨indexed.single, List.pairwise_singleton _ _, ?_⟩
          intro other mem new memNew
          rw [List.mem_singleton.mp memNew, sameKey_comm]
          exact alone other mem
      · exact indexed_answer indexed (fun _ good => by cases good) (consistent_of_free indexed free)

theorem indexed_erase {s : Service} (r : ReportCreateRequest) (indexed : Indexed s) :
    Indexed { s with inFlight := s.inFlight.erase r } where
  answered := indexed.answered
  unique := indexed.unique
  apart other mem := indexed.apart other (List.mem_of_mem_erase mem)
  single := indexed.single.sublist List.erase_sublist
  consistent := indexed.consistent

theorem sameKey_self (r : ReportCreateRequest) : sameKey r r = true := sameKey_iff.mpr ⟨rfl, rfl⟩

theorem apart_of_mem_erase {requests : List ReportCreateRequest} {r other : ReportCreateRequest}
    (single : requests.Pairwise fun r other => sameKey r other = false) (mem : r ∈ requests)
    (memOther : other ∈ requests.erase r) : sameKey other r = false := by
  have moved := single.perm (List.perm_cons_erase mem) fun {a b} apart => by rw [sameKey_comm]; exact apart
  rw [sameKey_comm]
  exact (List.pairwise_cons.mp moved).1 other memOther

theorem indexed_commitRequest {s : Service} (r : ReportCreateRequest) (indexed : Indexed s) :
    Indexed (commitRequest s r) := by
  unfold commitRequest
  split
  · rename_i mem
    have free := indexed.apart r mem
    have left := indexed_erase r indexed
    simp only [lookup_eq_none.mpr free]
    have last : (s.reports ++ [⟨r, .queued⟩])[s.reports.length]? = some (⟨r, .queued⟩ : Report) :=
      List.getElem?_concat_length
    have old : ∀ (i : ℕ) (row : Report), s.reports[i]? = some row →
        (s.reports ++ [⟨r, .queued⟩])[i]? = some row := by
      exact fun i row found => EventRun.concat_old found
    have split : ∀ (i : ℕ) (row : Report), (s.reports ++ [⟨r, .queued⟩])[i]? = some row →
        s.reports[i]? = some row ∨ (i = s.reports.length ∧ row = ⟨r, .queued⟩) := by
      exact fun i row found => EventRun.concat_cases found
    have inserted : Indexed { s with
        inFlight := s.inFlight.erase r, reports := s.reports ++ [⟨r, .queued⟩] } := by
      refine ⟨fun a memA reportId good => ?_, fun i j row row' found found' same => ?_,
        fun other memOther row memRow => ?_, left.single, left.consistent⟩
      · obtain ⟨row, found, same⟩ := indexed.answered a memA reportId good
        exact ⟨row, old reportId row found, same⟩
      · rcases split i row found with here | ⟨rfl, rfl⟩ <;> rcases split j row' found' with there | ⟨rfl, rfl⟩
        · exact indexed.unique i j row row' here there same
        · rw [sameKey_comm, free row (List.mem_of_getElem? here)] at same
          cases same
        · rw [free row' (List.mem_of_getElem? there)] at same
          cases same
        · rfl
      · rcases List.mem_append.mp memRow with before | new
        · exact left.apart other memOther row before
        · rw [List.mem_singleton.mp new]
          exact apart_of_mem_erase indexed.single mem memOther
    refine indexed_answer inserted (fun reportId good => ?_) fun a memA => consistent_of_free indexed free a memA
    cases good
    exact ⟨_, last, sameKey_self r⟩
  · exact indexed

/-! The ledger behind verifications. -/

structure Reverified (v : Verifier) (e e' : Evidence) : Prop where
  rows : ∃ ids, e'.rows.rows = e.rows.rows.map (verifiedRow v ids) ∧
    ∀ row ∈ e.rows.rows, row.evidenceId ∈ ids → isPackagePart row.evidenceType = false
  gaps : e'.gaps = e.gaps

theorem reverified_refl (v : Verifier) (e : Evidence) : Reverified v e e where
  rows := by
    refine ⟨[], ?_, fun row _ mem => absurd mem List.not_mem_nil⟩
    have same : verifiedRow v [] = id := by
      funext row
      rw [verifiedRow, if_neg List.not_mem_nil, id]
    rw [same, List.map_id]
  gaps := rfl

theorem reverified_of_verifyAll {v : Verifier} {e e' : Evidence} {caseId : String}
    {results : List (String × String)}
    (ran : verifyAll v e (preExportEvidenceIds e caseId) = .ok (e', results)) : Reverified v e e' where
  rows := by
    refine ⟨_, (verifyAll_spec ran).1, fun row mem chosen => ?_⟩
    obtain ⟨other, memOther, -, same⟩ := mem_preExportEvidenceIds.mp chosen
    have one := e.rows.key_injective (mem_manifestEvidence.mp memOther).1.1 mem same
    rw [← one]
    exact (mem_manifestEvidence.mp memOther).2
  gaps := (verifyAll_spec ran).2.1

theorem reverified_verifiedLedger (v : Verifier) (e : Evidence) (caseId : String) :
    Reverified v e (verifiedLedger v e caseId) := by
  unfold verifiedLedger
  split
  · exact reverified_refl v e
  · rename_i ran
    exact reverified_of_verifyAll ran

theorem evidenceIds_reverified {v : Verifier} {e e' : Evidence} (again : Reverified v e e')
    (caseId evidenceId : String) :
    evidenceId ∈ evidenceIds (manifestEvidence e' caseId) ↔ evidenceId ∈ evidenceIds (manifestEvidence e caseId) := by
  obtain ⟨ids, rows, -⟩ := again.rows
  simp only [evidenceIds, List.mem_map, mem_manifestEvidence_map rows]
  constructor
  · rintro ⟨_, ⟨old, mem, rfl⟩, rfl⟩
    exact ⟨old, mem, (verifiedRow_fields v ids old).2.2.1.symm⟩
  · rintro ⟨old, mem, rfl⟩
    exact ⟨_, ⟨old, mem, rfl⟩, (verifiedRow_fields v ids old).2.2.1⟩

theorem deliverable_reverified {v : Verifier} {e e' : Evidence} {r : ReportCreateRequest}
    (deliverable : Deliverable v e r) (again : Reverified v e e') : Deliverable v e' r where
  intact := by
    obtain ⟨ids, rows, -⟩ := again.rows
    intro row mem
    obtain ⟨old, memOld, rfl⟩ := (mem_manifestEvidence_map rows).mp mem
    obtain ⟨-, -, -, sameHash, sameLocation, -, -⟩ := verifiedRow_fields v ids old
    rw [sameHash, sameLocation]
    exact deliverable.intact old memOld
  components := by
    obtain ⟨ids, rows, parts⟩ := again.rows
    intro row mem required kind
    obtain ⟨memRows, ofCase⟩ := List.mem_filter.mp mem
    rw [rows] at memRows
    obtain ⟨old, memOld, rfl⟩ := List.mem_map.mp memRows
    obtain ⟨sameCase, sameType, -, -, -, sameRequired, -⟩ := verifiedRow_fields v ids old
    rw [sameType] at kind
    rw [sameRequired] at required
    have unlisted : old.evidenceId ∉ ids := by
      intro listed
      have part := parts old memOld listed
      simp only [isPackagePart, decide_eq_false_iff_not] at part
      exact part (List.mem_cons_of_mem _ (List.mem_cons_of_mem _ kind))
    have same : verifiedRow v ids old = old := by rw [verifiedRow, if_neg unlisted]
    rw [same] at ofCase ⊢
    exact deliverable.components old (List.mem_filter.mpr ⟨memOld, ofCase⟩) required kind
  gaps := by
    rw [Evidence.openGaps, again.gaps]
    exact deliverable.gaps
  mode := deliverable.mode
  selected := by
    intro mode evidenceId mem
    rw [evidenceIds_reverified again]
    exact deliverable.selected mode evidenceId mem

theorem embedAll_of_intact {v : Verifier} {rows : List EvidenceRow}
    (intact : ∀ row ∈ rows, (v.store row.location).intact v.sha256 row.sha256 = true) :
    ∃ objects, embedAll v rows = .ok objects := by
  induction rows with
  | nil => exact ⟨[], rfl⟩
  | cons row rest ih =>
    obtain ⟨objects, embedded⟩ := ih fun other mem => intact other (List.mem_cons_of_mem row mem)
    have good := intact row List.mem_cons_self
    cases answer : v.store row.location with
    | missing =>
      rw [answer] at good
      cases good
    | raised exc =>
      rw [answer] at good
      cases good
    | content bytes =>
      rw [answer] at good
      have same : v.sha256 bytes = row.sha256 := of_decide_eq_true good
      exact ⟨(row.evidenceId, bytes) :: objects, by simp only [embedAll, embed, answer, same, if_true, embedded]; rfl⟩

theorem generateExport_of_deliverable {w : Worker} {e : Evidence} {r : ReportCreateRequest}
    (deliverable : Deliverable w.toVerifier e r) : ∃ e' package,
      generateExport w.toVerifier w.sign w.limitations e r.caseId = .ok (e', package) ∧
        Reverified w.toVerifier e e' ∧ package.evidenceObjects = manifestEvidence e' r.caseId := by
  have known : ∀ evidenceId ∈ preExportEvidenceIds e r.caseId,
      evidenceId ∈ e.rows.rows.map EvidenceRow.evidenceId := by
    intro evidenceId mem
    obtain ⟨row, memRow, -, rfl⟩ := mem_preExportEvidenceIds.mp mem
    exact List.mem_map_of_mem (mem_manifestEvidence.mp memRow).1.1
  obtain ⟨e', results, ran⟩ := verifyAll_total w.toVerifier known
  have again := reverified_of_verifyAll ran
  have after := deliverable_reverified deliverable again
  have eligible : (exportEligibility e' r.caseId).1 = true := by
    refine (exportEligibility_iff e' r.caseId).mpr ⟨fun row mem required kind => ?_, after.gaps⟩
    by_cases part : isPackagePart row.evidenceType = true
    · refine after.components row mem required ?_
      simp only [isPackagePart, isPackage, List.mem_cons, List.not_mem_nil, or_false, decide_eq_true_eq,
        Bool.not_eq_true', decide_eq_false_iff_not, not_or] at part kind
      simp only [List.mem_cons, List.not_mem_nil, or_false]
      rcases part with first | second | rest
      · exact absurd first kind.1
      · exact absurd second kind.2
      · exact rest
    · obtain ⟨memRows, ofCase⟩ := List.mem_filter.mp mem
      rw [(verifyAll_spec ran).1] at memRows
      obtain ⟨old, memOld, rfl⟩ := List.mem_map.mp memRows
      obtain ⟨sameCase, sameType, -, -, -, sameRequired, -⟩ :=
        verifiedRow_fields w.toVerifier (preExportEvidenceIds e r.caseId) old
      rw [sameCase, decide_eq_true_eq] at ofCase
      rw [sameType, Bool.not_eq_true] at part
      rw [sameRequired] at required
      have memManifest := mem_manifestEvidence.mpr ⟨⟨memOld, ofCase⟩, part⟩
      have listed := mem_preExportEvidenceIds.mpr ⟨old, memManifest, required, rfl⟩
      rw [verifiedRow, if_pos listed]
      exact (status_verified w.toVerifier old).mpr (deliverable.intact old memManifest)
  have loaded : loadManifest w.toVerifier e r.caseId = .ok (e', manifestEvidence e' r.caseId) :=
    loadManifest_eq_ok.mpr ⟨⟨results, ran⟩, eligible, rfl⟩
  obtain ⟨objects, embedded⟩ := embedAll_of_intact after.intact
  have signed : generateExport w.toVerifier w.sign w.limitations e r.caseId =
      .ok (e', ⟨manifestEvidence e' r.caseId, objects,
        verificationReport (w.sign (manifestEvidence e' r.caseId)) (manifestEvidence e' r.caseId) w.limitations⟩) := by
    rw [generateExport, loaded]
    simp only [embedded]
    rfl
  exact ⟨e', _, signed, again, rfl⟩

theorem packageable_of_deliverable {v : Verifier} {e : Evidence} {r : ReportCreateRequest}
    {manifest : List EvidenceRow} (deliverable : Deliverable v e r)
    (same : ∀ evidenceId, evidenceId ∈ evidenceIds manifest ↔
      evidenceId ∈ evidenceIds (manifestEvidence e r.caseId)) :
    packageable r.exportMode r.selectedEvidenceIds (manifestEvidence e r.caseId) manifest = true := by
  have inside : ∀ evidenceId ∈ included r.exportMode r.selectedEvidenceIds (manifestEvidence e r.caseId),
      evidenceId ∈ evidenceIds (manifestEvidence e r.caseId) := by
    intro evidenceId mem
    unfold included at mem
    split at mem
    · cases mem
    · rename_i notMetadata
      split at mem
      · exact mem
      · rename_i notComplete
        have mode := deliverable.mode
        simp only [List.mem_cons, List.not_mem_nil, or_false] at mode
        rcases mode with metadata | selected | complete
        · exact absurd metadata notMetadata
        · exact deliverable.selected selected evidenceId mem
        · exact absurd complete notComplete
  simp only [packageable, Bool.and_eq_true, Bool.or_eq_true, List.all_eq_true, decide_eq_true_eq]
  refine ⟨⟨⟨deliverable.mode, inside⟩, ?_⟩, fun evidenceId mem => (same evidenceId).mpr (inside evidenceId mem)⟩
  by_cases complete : r.exportMode = "COMPLETE_CASE"
  · refine .inr fun evidenceId mem => ?_
    rw [included, complete, if_neg (by decide), if_pos rfl]
    exact (same evidenceId).mp mem
  · exact .inl complete

end Mirage.ReportRequests
