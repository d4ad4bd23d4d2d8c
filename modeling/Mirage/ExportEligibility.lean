import Mirage.EvidenceAcquisition

/-! Whether a case may be exported: `export_eligibility`, the verification of evidence by
`EvidenceService.verify` and `verify_case_evidence` of evidence.py, and the summary row
that `_refresh_summary` of dashboard.py writes. -/

namespace Mirage.ExportEligibility
open EvidenceAcquisition RowLocks

/-- A row of `evidence_collection_gaps`. -/
structure Gap where
  gapId : String
  caseId : String
  required : Bool
  reason : String
  resolvedAt : Option Int

/-- A row of `evidence_verification_history`. -/
structure Verification where
  verificationId : String
  evidenceId : String
  reason : String
  status : String
  expectedSha256 : String
  calculatedSha256 : Option String
  error : Option String
  requestedBy : String

structure Evidence extends Ledger where
  history : List Verification
  gaps : List Gap

def verified : String := "VERIFIED"

def Evidence.ofCase (e : Evidence) (caseId : String) : List EvidenceRow :=
  e.rows.rows.filter fun row => row.caseId = caseId

def Evidence.openGaps (e : Evidence) (caseId : String) : List Gap :=
  e.gaps.filter fun gap => gap.caseId = caseId && gap.required && gap.resolvedAt.isNone

/-! Verification of one object. -/

inductive Reading where
  | content (bytes : Bytes)
  | missing
  | raised (exc : String)

structure Assessment where
  status : String
  calculated : Option String
  error : Option String

/-- The outcome of a reading where `expected` is recorded. -/
def assess (sha256 : Bytes → String) (expected : String) : Reading → Assessment
  | .content bytes =>
    if sha256 bytes = expected then ⟨verified, some (sha256 bytes), none⟩
    else ⟨"HASH_MISMATCH", some (sha256 bytes), some "calculated SHA-256 differs from immutable ledger"⟩
  | .missing => ⟨"MISSING", none, some "object missing at exact bucket/key/version"⟩
  | .raised exc => ⟨"FAILED", none, some (String.ofList (exc.toList.take 1024))⟩

def Reading.intact (sha256 : Bytes → String) (expected : String) : Reading → Bool
  | .content bytes => sha256 bytes = expected
  | _ => false

/-- Why and for whom objects are verified, the identifiers that are drawn for them,
and what the store answers. -/
structure Verifier where
  sha256 : Bytes → String
  store : Location → Reading
  reason : String
  requestedBy : String
  verificationId : String → String

def Verifier.verification (v : Verifier) (row : EvidenceRow) : Verification :=
  let found := assess v.sha256 row.sha256 (v.store row.location)
  { verificationId := v.verificationId row.evidenceId, evidenceId := row.evidenceId, reason := v.reason,
    status := found.status, expectedSha256 := row.sha256, calculatedSha256 := found.calculated,
    error := found.error, requestedBy := v.requestedBy }

def setStatus (status : String) (row : EvidenceRow) : EvidenceRow :=
  { row with verificationStatus := status }

def Evidence.record (e : Evidence) (found : Verification) : Evidence :=
  { e with
    rows := e.rows.update found.evidenceId (setStatus found.status) fun _ => rfl
    history := e.history ++ [found] }

def verify (v : Verifier) (e : Evidence) (evidenceId : String) : Except EvidenceAcquisition.Raised (Evidence × String) := do
  let row ← present (e.rows.find evidenceId) ⟨.evidence, evidenceId⟩
  return (e.record (v.verification row), (v.verification row).status)

def verifyAll (v : Verifier) : Evidence → List String → Except EvidenceAcquisition.Raised (Evidence × List (String × String))
  | e, [] => .ok (e, [])
  | e, evidenceId :: rest => do
    let (e, status) ← verify v e evidenceId
    let (e, results) ← verifyAll v e rest
    return (e, (evidenceId, status) :: results)

/-! The three readings of the ledger. -/

def exportEligibility (e : Evidence) (caseId : String) : Bool × List String :=
  let required := (e.ofCase caseId).filter fun row =>
    row.requiredForExport && row.evidenceType ∉ ["EXPORT", "MANIFEST"]
  let reasons :=
    (required.filter fun row => row.verificationStatus ≠ verified).map (fun row =>
      "required evidence " ++ row.evidenceId ++ " is " ++ row.verificationStatus) ++
    (e.openGaps caseId).map fun gap => "required collection gap " ++ gap.gapId ++ ": " ++ gap.reason
  (reasons.isEmpty, reasons)

def byHash (a b : EvidenceRow) : Bool :=
  a.sha256 < b.sha256 || a.sha256 = b.sha256 && a.evidenceId ≤ b.evidenceId

def caseEvidence (e : Evidence) (caseId : String) : List EvidenceRow :=
  ((e.ofCase caseId).filter fun row => row.evidenceType ∉ ["EXPORT", "MANIFEST", "SIGNATURE"]).insertionSort
    fun a b => byHash a b

def verifyCaseEvidence (v : Verifier) (e : Evidence) (caseId : String) (sampleLimit : Option Int) :
    Except EvidenceAcquisition.Raised (Evidence × List (String × String)) := do
  require (v.reason ∈ ["SCHEDULED_SAMPLE", "FINAL_CASE_CONCLUSION", "PRE_EXPORT"])
    ⟨.value, "unsupported case verification reason"⟩
  require (sampleLimit.all fun limit => 1 ≤ limit) ⟨.value, "sample_limit must be positive"⟩
  let evidenceIds := (caseEvidence e caseId).map EvidenceRow.evidenceId
  verifyAll v e (sampleLimit.elim evidenceIds fun limit => evidenceIds.take limit.toNat)

structure CaseSource where
  caseId : String
  state : String
  version : Int
  severity : String
  owner : Option String

structure CaseSession where
  caseId : String
  status : String

/-- A row of `dashboard_case_summary`, less what a refresh neither reads nor writes. -/
structure Summary where
  caseId : String
  state : String
  caseVersion : Int
  severity : String
  owner : Option String
  activeSessionCount : ℕ
  evidenceVerifiedCount : ℕ
  evidenceTotalCount : ℕ
  unresolvedGapCount : ℕ
  exportEligible : Bool
  projectedAt : Int

structure Database where
  evidence : Evidence
  cases : KeyedTable CaseSource.caseId
  sessions : List CaseSession
  summaries : KeyedTable Summary.caseId

def refreshed (db : Database) (now : Int) (source : CaseSource) (summary : Summary) : Summary :=
  let rows := db.evidence.ofCase summary.caseId
  { summary with
    state := source.state, caseVersion := source.version, severity := source.severity
    owner := source.owner
    activeSessionCount :=
      db.sessions.countP fun session => session.caseId = summary.caseId && session.status = "ACTIVE"
    evidenceVerifiedCount := rows.countP fun row => row.verificationStatus = verified
    evidenceTotalCount := rows.length
    unresolvedGapCount := (db.evidence.openGaps summary.caseId).length
    exportEligible :=
      !(rows.any fun row => row.requiredForExport && row.verificationStatus ≠ verified) &&
        (db.evidence.openGaps summary.caseId).isEmpty
    projectedAt := now }

theorem refreshed_caseId (db : Database) (now : Int) (source : CaseSource) (summary : Summary) :
    (refreshed db now source summary).caseId = summary.caseId := rfl

/-- `_refresh_summary`; a case without a row in `cases` keeps its summary. -/
def refreshSummary (db : Database) (caseId : String) (now : Int) : Database :=
  match db.cases.find caseId with
  | none => db
  | some source =>
    { db with
      summaries := db.summaries.update caseId (refreshed db now source) (refreshed_caseId db now source) }

/-- The required objects of the case whose type is among `types` are VERIFIED. -/
def AllVerified (e : Evidence) (caseId : String) (types : String → Bool) : Prop :=
  ∀ row ∈ e.ofCase caseId, row.requiredForExport = true → types row.evidenceType = true →
    row.verificationStatus = verified

def isPackage (evidenceType : String) : Bool := evidenceType ∈ ["EXPORT", "MANIFEST"]

def isComponent (evidenceType : String) : Bool := evidenceType ∈ ["EXPORT", "MANIFEST", "SIGNATURE"]

theorem exportEligibility_iff (e : Evidence) (caseId : String) :
    (exportEligibility e caseId).1 = true ↔
      AllVerified e caseId (fun evidenceType => !isPackage evidenceType) ∧ e.openGaps caseId = [] := by
  simp only [exportEligibility, List.isEmpty_iff, List.append_eq_nil_iff, List.map_eq_nil_iff,
    List.filter_eq_nil_iff, List.mem_filter, AllVerified, isPackage]
  refine and_congr_left fun _ => ⟨fun none row mem required kind => ?_, fun all row mem => ?_⟩
  · by_contra other
    exact none row ⟨mem, by simpa [required] using kind⟩ (by simpa using other)
  · obtain ⟨mem, chosen⟩ := mem
    rw [Bool.and_eq_true] at chosen
    have status := all row mem chosen.1 (by simpa using chosen.2)
    simp [status]

theorem refreshed_exportEligible (db : Database) (now : Int) (source : CaseSource) (summary : Summary) :
    (refreshed db now source summary).exportEligible = true ↔
      AllVerified db.evidence summary.caseId (fun _ => true) ∧
        db.evidence.openGaps summary.caseId = [] := by
  simp only [refreshed, Bool.and_eq_true, Bool.not_eq_true', List.isEmpty_iff, List.any_eq_false,
    AllVerified]
  refine and_congr_left fun _ => ⟨fun none row mem required _ => ?_, fun all row mem chosen => ?_⟩
  · by_contra other
    exact none row mem (by simp [required, other])
  · have status := all row mem chosen.1 trivial
    simp [status] at chosen

theorem allVerified_split (e : Evidence) (caseId : String) (types : String → Bool) :
    AllVerified e caseId (fun _ => true) ↔
      AllVerified e caseId (fun evidenceType => !types evidenceType) ∧ AllVerified e caseId types := by
  constructor
  · intro all
    exact ⟨fun row mem required _ => all row mem required rfl,
      fun row mem required _ => all row mem required rfl⟩
  · intro both row mem required _
    cases kind : types row.evidenceType with
    | false => exact both.1 row mem required (by simp [kind])
    | true => exact both.2 row mem required kind

theorem status_verified (v : Verifier) (row : EvidenceRow) :
    (v.verification row).status = verified ↔
      (v.store row.location).intact v.sha256 row.sha256 = true := by
  have mismatch : "HASH_MISMATCH" ≠ verified := by decide
  have missing : "MISSING" ≠ verified := by decide
  have failed : "FAILED" ≠ verified := by decide
  cases answer : v.store row.location with
  | content bytes =>
    by_cases same : v.sha256 bytes = row.sha256 <;>
      simp [Verifier.verification, answer, assess, Reading.intact, same, mismatch]
  | missing => simp [Verifier.verification, answer, assess, Reading.intact, missing]
  | raised exc => simp [Verifier.verification, answer, assess, Reading.intact, failed]

/-- Every object of `evidenceIds` has the status of its verification. -/
def verifiedRow (v : Verifier) (evidenceIds : List String) (row : EvidenceRow) : EvidenceRow :=
  if row.evidenceId ∈ evidenceIds then setStatus (v.verification row).status row else row

theorem verifiedRow_fields (v : Verifier) (evidenceIds : List String) (row : EvidenceRow) :
    (verifiedRow v evidenceIds row).caseId = row.caseId ∧
      (verifiedRow v evidenceIds row).evidenceType = row.evidenceType ∧
      (verifiedRow v evidenceIds row).evidenceId = row.evidenceId ∧
      (verifiedRow v evidenceIds row).sha256 = row.sha256 ∧
      (verifiedRow v evidenceIds row).location = row.location ∧
      (verifiedRow v evidenceIds row).requiredForExport = row.requiredForExport ∧
      v.verification (verifiedRow v evidenceIds row) = v.verification row := by
  unfold verifiedRow
  split <;> exact ⟨rfl, rfl, rfl, rfl, rfl, rfl, rfl⟩

theorem verify_eq_ok {v : Verifier} {e e' : Evidence} {evidenceId status : String} :
    verify v e evidenceId = .ok (e', status) ↔ ∃ row, e.rows.find evidenceId = some row ∧
      e' = e.record (v.verification row) ∧ status = (v.verification row).status := by
  unfold verify
  cases found : e.rows.find evidenceId with
  | none => simp [present, bind, Except.bind]
  | some row => simp [present, bind, Except.bind, pure, Except.pure, eq_comm]

theorem record_rows (v : Verifier) {e : Evidence} {row : EvidenceRow} (mem : row ∈ e.rows.rows) :
    (e.record (v.verification row)).rows.rows = e.rows.rows.map (verifiedRow v [row.evidenceId]) := by
  change e.rows.rows.map _ = _
  apply List.map_congr_left
  intro other memOther
  change (if other.evidenceId = row.evidenceId then _ else _) = _
  by_cases same : other.evidenceId = row.evidenceId
  · have one : other = row := e.rows.key_injective memOther mem same
    simp [verifiedRow, one]
  · simp [verifiedRow, same]

theorem verifiedRow_cons (v : Verifier) (evidenceId : String) (rest : List String) (row : EvidenceRow) :
    verifiedRow v rest (verifiedRow v [evidenceId] row) = verifiedRow v (evidenceId :: rest) row := by
  unfold verifiedRow
  by_cases first : row.evidenceId = evidenceId
  · have one : row.evidenceId ∈ [evidenceId] := List.mem_singleton.mpr first
    have listed : row.evidenceId ∈ evidenceId :: rest := first ▸ List.mem_cons_self
    rw [if_pos one, if_pos listed]
    split <;> rfl
  · have none : row.evidenceId ∉ [evidenceId] := fun one => first (List.mem_singleton.mp one)
    have same : row.evidenceId ∈ evidenceId :: rest ↔ row.evidenceId ∈ rest := by simp [first]
    rw [if_neg none]
    simp only [same]

theorem verifyAll_spec {v : Verifier} {e e' : Evidence} {evidenceIds : List String}
    {results : List (String × String)} (ran : verifyAll v e evidenceIds = .ok (e', results)) :
    e'.rows.rows = e.rows.rows.map (verifiedRow v evidenceIds) ∧ e'.gaps = e.gaps ∧
      ∀ result, result ∈ results ↔ ∃ row ∈ e.rows.rows, row.evidenceId ∈ evidenceIds ∧
        result = (row.evidenceId, (v.verification row).status) := by
  induction evidenceIds generalizing e results with
  | nil =>
    cases ran
    refine ⟨(List.map_id' e'.rows.rows).symm, rfl, fun result => ?_⟩
    simp
  | cons evidenceId rest ih =>
    rw [verifyAll, bind_eq_ok] at ran
    obtain ⟨⟨next, status⟩, one, ran⟩ := ran
    rw [bind_eq_ok] at ran
    obtain ⟨⟨last, more⟩, others, returned⟩ := ran
    cases returned
    obtain ⟨row, found, rfl, rfl⟩ := verify_eq_ok.mp one
    obtain ⟨rfl⟩ := e.rows.key_of_find found
    have mem := e.rows.mem_of_find found
    obtain ⟨rows, gaps, answers⟩ := ih others
    refine ⟨?_, gaps, ?_⟩
    · rw [rows, record_rows v mem, List.map_map]
      apply List.map_congr_left
      intro other _
      exact verifiedRow_cons v row.evidenceId rest other
    · intro result
      have old : ∀ other ∈ e.rows.rows, v.verification (verifiedRow v [row.evidenceId] other) =
          v.verification other ∧
            (verifiedRow v [row.evidenceId] other).evidenceId = other.evidenceId := by
        intro other _
        obtain ⟨-, -, sameId, -, -, -, sameFound⟩ := verifiedRow_fields v [row.evidenceId] other
        exact ⟨sameFound, sameId⟩
      rw [List.mem_cons, answers, record_rows v mem]
      simp only [List.mem_map, exists_exists_and_eq_and]
      constructor
      · rintro (rfl | ⟨other, memOther, later, rfl⟩)
        · exact ⟨row, mem, List.mem_cons_self, rfl⟩
        · obtain ⟨sameFound, sameId⟩ := old other memOther
          rw [sameId] at later
          exact ⟨other, memOther, List.mem_cons_of_mem _ later, by rw [sameFound, sameId]⟩
      · rintro ⟨other, memOther, listed, rfl⟩
        obtain ⟨sameFound, sameId⟩ := old other memOther
        rcases List.mem_cons.mp listed with same | later
        · rw [e.rows.key_injective memOther mem same]
          exact .inl rfl
        · exact .inr ⟨other, memOther, by rw [sameId]; exact later, by rw [sameFound, sameId]⟩

theorem mem_caseEvidence {e : Evidence} {caseId : String} {row : EvidenceRow} :
    row ∈ caseEvidence e caseId ↔ row ∈ e.ofCase caseId ∧ isComponent row.evidenceType = false := by
  simp [caseEvidence, isComponent]

theorem record_ids (e : Evidence) (found : Verification) :
    (e.record found).rows.rows.map EvidenceRow.evidenceId = e.rows.rows.map EvidenceRow.evidenceId := by
  change (e.rows.rows.map _).map _ = _
  rw [List.map_map]
  apply List.map_congr_left
  intro row _
  change (if row.evidenceId = found.evidenceId then setStatus found.status row else row).evidenceId = _
  split <;> rfl

theorem verifyAll_total (v : Verifier) {e : Evidence} {evidenceIds : List String}
    (known : ∀ evidenceId ∈ evidenceIds, evidenceId ∈ e.rows.rows.map EvidenceRow.evidenceId) :
    ∃ e' results, verifyAll v e evidenceIds = .ok (e', results) := by
  induction evidenceIds generalizing e with
  | nil => exact ⟨e, [], rfl⟩
  | cons evidenceId rest ih =>
    obtain ⟨row, found⟩ : ∃ row, e.rows.find evidenceId = some row := by
      cases found : e.rows.find evidenceId with
      | none => exact absurd (known evidenceId List.mem_cons_self) (e.rows.find_eq_none.mp found)
      | some row => exact ⟨row, rfl⟩
    have next : ∀ other ∈ rest,
        other ∈ (e.record (v.verification row)).rows.rows.map EvidenceRow.evidenceId := by
      intro other mem
      rw [record_ids]
      exact known other (List.mem_cons_of_mem evidenceId mem)
    obtain ⟨e', results, ran⟩ := ih next
    have one : verify v e evidenceId = .ok (e.record (v.verification row), (v.verification row).status) :=
      verify_eq_ok.mpr ⟨row, found, rfl, rfl⟩
    exact ⟨e', _, bind_eq_ok.mpr ⟨_, one, bind_eq_ok.mpr ⟨_, ran, rfl⟩⟩⟩

theorem verifyCaseEvidence_spec {v : Verifier} {e e' : Evidence} {caseId : String}
    {results : List (String × String)}
    (ran : verifyCaseEvidence v e caseId none = .ok (e', results)) :
    e'.openGaps caseId = e.openGaps caseId ∧
      (∀ row, row ∈ e'.ofCase caseId ↔ ∃ old ∈ e.ofCase caseId,
        row = if isComponent old.evidenceType then old else setStatus (v.verification old).status old) ∧
      ((∀ result ∈ results, result.2 = verified) ↔ ∀ row ∈ e.ofCase caseId,
        isComponent row.evidenceType = false → (v.verification row).status = verified) := by
  simp only [verifyCaseEvidence, bind_eq_ok, Option.elim_none] at ran
  obtain ⟨-, -, -, -, ran⟩ := ran
  obtain ⟨rows, gaps, answers⟩ := verifyAll_spec ran
  have listed : ∀ row ∈ e.ofCase caseId,
      row.evidenceId ∈ (caseEvidence e caseId).map EvidenceRow.evidenceId ↔
        isComponent row.evidenceType = false := by
    intro row mem
    have memRows := (List.mem_filter.mp mem).1
    constructor
    · intro chosen
      obtain ⟨other, memOther, same⟩ := List.mem_map.mp chosen
      obtain ⟨ofCase, kind⟩ := mem_caseEvidence.mp memOther
      rw [← e.rows.key_injective (List.mem_filter.mp ofCase).1 memRows same]
      exact kind
    · intro kind
      exact List.mem_map_of_mem (mem_caseEvidence.mpr ⟨mem, kind⟩)
  have changed : ∀ row ∈ e.ofCase caseId,
      verifiedRow v ((caseEvidence e caseId).map EvidenceRow.evidenceId) row =
        if isComponent row.evidenceType then row else setStatus (v.verification row).status row := by
    intro row mem
    unfold verifiedRow
    cases kind : isComponent row.evidenceType with
    | false => rw [if_pos ((listed row mem).mpr kind)]; rfl
    | true =>
      have unlisted := (listed row mem).not.mpr (by simp [kind])
      rw [if_neg unlisted]
      rfl
  have sameCase : ∀ row, (verifiedRow v ((caseEvidence e caseId).map EvidenceRow.evidenceId) row).caseId =
      row.caseId := by
    intro row
    exact (verifiedRow_fields v _ row).1
  refine ⟨by rw [Evidence.openGaps, gaps, Evidence.openGaps], fun row => ⟨fun mem => ?_, ?_⟩,
    fun all row mem kind => ?_, fun all result mem => ?_⟩
  · obtain ⟨memRows, ofCase⟩ := List.mem_filter.mp mem
    rw [rows] at memRows
    obtain ⟨old, memOld, rfl⟩ := List.mem_map.mp memRows
    have oldOfCase : old ∈ e.ofCase caseId := by
      rw [sameCase] at ofCase
      exact List.mem_filter.mpr ⟨memOld, ofCase⟩
    exact ⟨old, oldOfCase, changed old oldOfCase⟩
  · rintro ⟨old, memOld, rfl⟩
    rw [← changed old memOld]
    obtain ⟨memRows, ofCase⟩ := List.mem_filter.mp memOld
    refine List.mem_filter.mpr ⟨?_, by rw [sameCase]; exact ofCase⟩
    rw [rows]
    exact List.mem_map_of_mem memRows
  · exact all (row.evidenceId, _)
      ((answers _).mpr ⟨row, (List.mem_filter.mp mem).1, (listed row mem).mpr kind, rfl⟩)
  · obtain ⟨row, memRows, chosen, rfl⟩ := (answers result).mp mem
    obtain ⟨other, memOther, same⟩ := List.mem_map.mp chosen
    obtain ⟨ofCase, kind⟩ := mem_caseEvidence.mp memOther
    have one := e.rows.key_injective (List.mem_filter.mp ofCase).1 memRows same
    subst one
    exact all other ofCase kind

theorem eligible_after_iff {v : Verifier} {e e' : Evidence} {caseId : String}
    {results : List (String × String)} (ran : verifyCaseEvidence v e caseId none = .ok (e', results))
    (intact : ∀ row ∈ e.ofCase caseId, isComponent row.evidenceType = false →
      (v.verification row).status = verified) (closed : e.openGaps caseId = []) :
    (exportEligibility e' caseId).1 = true ↔
      AllVerified e caseId fun evidenceType => evidenceType = "SIGNATURE" := by
  obtain ⟨gaps, rows, -⟩ := verifyCaseEvidence_spec ran
  have signature : isPackage "SIGNATURE" = false := by decide
  have component : isComponent "SIGNATURE" = true := by decide
  rw [exportEligibility_iff, gaps, closed, and_iff_left rfl]
  constructor
  · intro all row mem required kind
    have kind : row.evidenceType = "SIGNATURE" := by simpa using kind
    refine all row ((rows row).mpr ⟨row, mem, ?_⟩) required (by simp [kind, signature])
    rw [kind, if_pos component]
  · intro all row mem required kind
    obtain ⟨old, memOld, rfl⟩ := (rows row).mp mem
    by_cases stays : isComponent old.evidenceType = true
    · rw [if_pos stays] at required kind ⊢
      refine all old memOld required ?_
      simp [isPackage] at kind
      simpa [isComponent, kind] using stays
    · rw [if_neg stays]
      exact intact old memOld (by simpa using stays)

/-- An object that blocks the export, by `export_eligibility`. -/
def Blocking (row : EvidenceRow) : Prop :=
  row.requiredForExport = true ∧ isPackage row.evidenceType = false ∧ row.verificationStatus ≠ verified

theorem exists_blocking {e : Evidence} {caseId : String} :
    (∃ row ∈ e.ofCase caseId, Blocking row) ↔
      ¬ AllVerified e caseId fun evidenceType => !isPackage evidenceType := by
  simp [AllVerified, Blocking]

theorem summary_agrees_iff {db : Database} {now : Int} {source : CaseSource} {summary : Summary} :
    (refreshed db now source summary).exportEligible =
        (exportEligibility db.evidence summary.caseId).1 ↔
      (AllVerified db.evidence summary.caseId isPackage ∨ db.evidence.openGaps summary.caseId ≠ [] ∨
        ∃ row ∈ db.evidence.ofCase summary.caseId, Blocking row) := by
  rw [Bool.eq_iff_iff, refreshed_exportEligible, exportEligibility_iff,
    allVerified_split db.evidence summary.caseId isPackage, exists_blocking]
  tauto

theorem verified_agrees_iff {v : Verifier} {e : Evidence} {caseId : String}
    (supported : v.reason ∈ ["SCHEDULED_SAMPLE", "FINAL_CASE_CONCLUSION", "PRE_EXPORT"]) :
    (∀ e' results, verifyCaseEvidence v e caseId none = .ok (e', results) →
        (∀ result ∈ results, result.2 = verified) → e'.openGaps caseId = [] →
        (exportEligibility e' caseId).1 = true) ↔
      (AllVerified e caseId (fun evidenceType => evidenceType = "SIGNATURE") ∨
        e.openGaps caseId ≠ [] ∨
        ∃ row ∈ e.ofCase caseId, isComponent row.evidenceType = false ∧
          (v.store row.location).intact v.sha256 row.sha256 = false) := by
  constructor
  · intro agrees
    by_contra fails
    simp only [not_or, not_not, not_exists, not_and, Bool.not_eq_false] at fails
    obtain ⟨unsigned, closed, intact⟩ := fails
    have known : ∀ evidenceId ∈ (caseEvidence e caseId).map EvidenceRow.evidenceId,
        evidenceId ∈ e.rows.rows.map EvidenceRow.evidenceId := by
      intro evidenceId listed
      obtain ⟨row, mem, rfl⟩ := List.mem_map.mp listed
      exact List.mem_map_of_mem (List.mem_filter.mp (mem_caseEvidence.mp mem).1).1
    obtain ⟨e', results, verifications⟩ := verifyAll_total v known
    have ran : verifyCaseEvidence v e caseId none = .ok (e', results) := by
      simp only [verifyCaseEvidence, bind_eq_ok, require_eq_ok]
      exact ⟨(), decide_eq_true supported, (), rfl, verifications⟩
    have statuses : ∀ row ∈ e.ofCase caseId, isComponent row.evidenceType = false →
        (v.verification row).status = verified :=
      fun row mem kind => (status_verified v row).mpr (intact row mem kind)
    obtain ⟨gaps, -, answers⟩ := verifyCaseEvidence_spec ran
    have eligible := agrees e' results ran (answers.mpr statuses) (gaps.trans closed)
    exact unsigned ((eligible_after_iff ran statuses closed).mp eligible)
  · intro condition e' results ran all closed
    obtain ⟨gaps, -, answers⟩ := verifyCaseEvidence_spec ran
    rw [gaps] at closed
    have statuses := answers.mp all
    rw [eligible_after_iff ran statuses closed]
    rcases condition with signed | opened | ⟨row, mem, kind, broken⟩
    · exact signed
    · exact absurd closed opened
    · have intact := (status_verified v row).mp (statuses row mem kind)
      rw [intact] at broken
      cases broken

/-- The dashboard and `verify_case_evidence` agree with `export_eligibility` up to
the required objects of the types that only one of them reads. -/
theorem eligibility_agrees_iff (db : Database) (caseId : String) (now : Int) (v : Verifier)
    {source : CaseSource} {summary : Summary} (known : db.cases.find caseId = some source)
    (shown : db.summaries.find caseId = some summary)
    (supported : v.reason ∈ ["SCHEDULED_SAMPLE", "FINAL_CASE_CONCLUSION", "PRE_EXPORT"]) :
    ((∀ row, (refreshSummary db caseId now).summaries.find caseId = some row →
        row.exportEligible = (exportEligibility db.evidence caseId).1) ∧
      ∀ e results, verifyCaseEvidence v db.evidence caseId none = .ok (e, results) →
        (∀ result ∈ results, result.2 = verified) → e.openGaps caseId = [] →
        (exportEligibility e caseId).1 = true) ↔
    (AllVerified db.evidence caseId isPackage ∨ db.evidence.openGaps caseId ≠ [] ∨
        ∃ row ∈ db.evidence.ofCase caseId, Blocking row) ∧
      (AllVerified db.evidence caseId (fun evidenceType => evidenceType = "SIGNATURE") ∨
        db.evidence.openGaps caseId ≠ [] ∨
        ∃ row ∈ db.evidence.ofCase caseId, isComponent row.evidenceType = false ∧
          (v.store row.location).intact v.sha256 row.sha256 = false) := by
  have sameCase := db.summaries.key_of_find shown
  subst sameCase
  have rows : ∀ row, (refreshSummary db summary.caseId now).summaries.find summary.caseId = some row ↔
      refreshed db now source summary = row := by
    intro row
    simp only [refreshSummary, known]
    rw [KeyedTable.find_update, if_pos rfl, shown, Option.map_some, Option.some.injEq]
  simp only [rows, forall_eq']
  exact and_congr summary_agrees_iff (verified_agrees_iff supported)

/-! A case whose package and signature are recorded as required. -/

def sampleCase : String := "01HX3QK7Z0000000000000CASE"

def sampleRow (evidenceId evidenceType status : String) : EvidenceRow where
  caseId := sampleCase
  sessionId := none
  evidenceType
  sourceId := "mirage-report-worker"
  sourceSequence := 1
  sourceCertificateSerial := none
  relatedEventIds := []
  acquisitionTime := 0
  originalFilename := none
  mediaType := "application/octet-stream"
  collectionMethod := "REPORT_WORKER_EXPORT"
  classification := "SENSITIVE"
  metadata := []
  requiredForExport := true
  evidenceId
  storedTime := 0
  sizeBytes := 0
  sha256 := "0"
  location := ⟨"evidence", evidenceId, "1"⟩
  verificationStatus := status

def sampleDatabase (row : EvidenceRow) : Database where
  evidence := { rows := ⟨[row], List.nodup_singleton _⟩, audit := [], outbox := .empty, history := [], gaps := [] }
  cases := ⟨[⟨sampleCase, "ACTIVE", 1, "HIGH", none⟩], List.nodup_singleton _⟩
  sessions := []
  summaries := ⟨[⟨sampleCase, "ACTIVE", 1, "HIGH", none, 0, 0, 0, 0, false, 0⟩], List.nodup_singleton _⟩

def sampleVerifier : Verifier where
  sha256 _ := "0"
  store _ := .content []
  reason := "FINAL_CASE_CONCLUSION"
  requestedBy := "analyst"
  verificationId evidenceId := evidenceId

def pendingLog : EvidenceRow := sampleRow "01HX3QK7Z000000000000000E1" "LOG" "PENDING"

theorem pendingLog_agrees :
    ((refreshSummary (sampleDatabase pendingLog) sampleCase 0).summaries.find sampleCase).map
        Summary.exportEligible =
      some (exportEligibility (sampleDatabase pendingLog).evidence sampleCase).1 := by
  have mem : pendingLog ∈ (sampleDatabase pendingLog).evidence.ofCase sampleCase := List.mem_singleton_self _
  have blocking : Blocking pendingLog := ⟨rfl, by decide, by decide⟩
  have unsigned : AllVerified (sampleDatabase pendingLog).evidence sampleCase
      fun evidenceType => evidenceType = "SIGNATURE" := by
    intro row listed _ kind
    have same : row = pendingLog := List.mem_singleton.mp listed
    rw [same] at kind
    exact absurd kind (by decide)
  have agrees := ((eligibility_agrees_iff (sampleDatabase pendingLog) sampleCase 0 sampleVerifier rfl rfl
    (by decide)).mpr ⟨.inr (.inr ⟨pendingLog, mem, blocking⟩), .inl unsigned⟩).1 _ rfl
  exact congrArg some agrees

/-- The dashboard blocks an export that `export_eligibility` allows, and a case
whose every reported object is VERIFIED may not be exported. -/
theorem stray_components_disagree :
    let stray := sampleDatabase (sampleRow "01HX3QK7Z000000000000000E1" "EXPORT" "PENDING")
    let unsigned := (sampleDatabase (sampleRow "01HX3QK7Z000000000000000E2" "SIGNATURE" "PENDING")).evidence
    ((refreshSummary stray sampleCase 0).summaries.find sampleCase).map Summary.exportEligible = some false ∧
      (exportEligibility stray.evidence sampleCase).1 = true ∧
      (∃ e results, verifyCaseEvidence sampleVerifier unsigned sampleCase none = .ok (e, results) ∧
        (∀ result ∈ results, result.2 = verified) ∧ e.openGaps sampleCase = [] ∧
        (exportEligibility e sampleCase).1 = false) := by
  refine ⟨by decide, by decide, _, _, rfl, by decide, by decide, by decide⟩

end Mirage.ExportEligibility
