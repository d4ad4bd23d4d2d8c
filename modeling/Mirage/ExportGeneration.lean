import Mirage.ExportEligibility

/-! `generate_export`: the required objects of a case are verified again, the case has to
be eligible, and the manifest takes the objects of the case as they are then. -/

namespace Mirage.ExportGeneration
open EvidenceAcquisition ExportEligibility RowLocks

inductive Failure where
  | notEligible (reasons : List String)
  | raised (exc : EvidenceAcquisition.Raised)
  | runtime (message : String)

def isPackagePart (evidenceType : String) : Bool :=
  evidenceType ∈ ["EXPORT", "MANIFEST", "SIGNATURE", "VERIFICATION_REPORT"]

def manifestEvidence (e : Evidence) (caseId : String) : List EvidenceRow :=
  (e.ofCase caseId).filter fun row => !isPackagePart row.evidenceType

def preExportEvidenceIds (e : Evidence) (caseId : String) : List String :=
  (((manifestEvidence e caseId).filter fun row => row.requiredForExport).map EvidenceRow.evidenceId).insertionSort
    fun a b => a ≤ b

def embed (v : Verifier) (row : EvidenceRow) : Except Failure (String × Bytes) :=
  match v.store row.location with
  | .missing => .error (.runtime "FileNotFoundError")
  | .raised exc => .error (.runtime exc)
  | .content bytes =>
    if v.sha256 bytes = row.sha256 then .ok (row.evidenceId, bytes)
    else .error (.runtime ("generated export failed independent verification: " ++ row.evidenceId))

def embedAll (v : Verifier) : List EvidenceRow → Except Failure (List (String × Bytes))
  | [] => .ok []
  | row :: rest =>
    match embed v row with
    | .error failure => .error failure
    | .ok entry => (embedAll v rest).map fun entries => entry :: entries

def verificationReport (manifestSha256 : String) (evidence : List EvidenceRow) (limitations : List String) :
    List String :=
  ["Mirage Evidence Export Verification Report", "Manifest SHA-256: " ++ manifestSha256,
    "Evidence objects: " ++ toString evidence.length,
    "All included objects were VERIFIED before export: yes", "", "Limitations:"] ++
    (limitations.map fun limitation => "- " ++ limitation) ++
    ["", "Independent verification:",
      "  scripts/verify-evidence-export <package.zip> [--public-key kms-public.pem]"]

structure Package where
  evidenceObjects : List EvidenceRow
  objects : List (String × Bytes)
  report : List String

def loadManifest (v : Verifier) (e : Evidence) (caseId : String) :
    Except Failure (Evidence × List EvidenceRow) :=
  match verifyAll v e (preExportEvidenceIds e caseId) with
  | .error exc => .error (.raised exc)
  | .ok (e, _) =>
    if (exportEligibility e caseId).1 then .ok (e, manifestEvidence e caseId)
    else .error (.notEligible (exportEligibility e caseId).2)

/-- `generate_export`; the signer gives the digest of the manifest. -/
def generateExport (v : Verifier) (sign : List EvidenceRow → String) (limitations : List String)
    (e : Evidence) (caseId : String) : Except Failure (Evidence × Package) :=
  match loadManifest v e caseId with
  | .error failure => .error failure
  | .ok (e, rows) =>
    (embedAll v rows).map fun objects =>
      (e, ⟨rows, objects, verificationReport (sign rows) rows limitations⟩)

def VerifiedBefore (e : Evidence) (row : EvidenceRow) : Prop :=
  row.verificationStatus = verified ∧
    ∃ found ∈ e.history, found.evidenceId = row.evidenceId ∧ found.status = verified

theorem mem_manifestEvidence {e : Evidence} {caseId : String} {row : EvidenceRow} :
    row ∈ manifestEvidence e caseId ↔
      (row ∈ e.rows.rows ∧ row.caseId = caseId) ∧ isPackagePart row.evidenceType = false := by
  simp only [manifestEvidence, Evidence.ofCase, List.mem_filter, decide_eq_true_eq, Bool.not_eq_true']

theorem mem_preExportEvidenceIds {e : Evidence} {caseId evidenceId : String} :
    evidenceId ∈ preExportEvidenceIds e caseId ↔
      ∃ row ∈ manifestEvidence e caseId, row.requiredForExport = true ∧ row.evidenceId = evidenceId := by
  simp [preExportEvidenceIds, and_assoc]

theorem verifyAll_history {v : Verifier} {e e' : Evidence} {evidenceIds : List String}
    {results : List (String × String)} (ran : verifyAll v e evidenceIds = .ok (e', results))
    (found : Verification) :
    found ∈ e'.history ↔ found ∈ e.history ∨
      ∃ row ∈ e.rows.rows, row.evidenceId ∈ evidenceIds ∧ found = v.verification row := by
  induction evidenceIds generalizing e results with
  | nil =>
    cases ran
    simp
  | cons evidenceId rest ih =>
    rw [verifyAll, bind_eq_ok] at ran
    obtain ⟨⟨next, status⟩, one, ran⟩ := ran
    rw [bind_eq_ok] at ran
    obtain ⟨⟨last, more⟩, others, returned⟩ := ran
    cases returned
    obtain ⟨row, known, rfl, rfl⟩ := verify_eq_ok.mp one
    obtain ⟨rfl⟩ := e.rows.key_of_find known
    have mem := e.rows.mem_of_find known
    have old : ∀ other, v.verification (verifiedRow v [row.evidenceId] other) = v.verification other ∧
        (verifiedRow v [row.evidenceId] other).evidenceId = other.evidenceId := by
      intro other
      obtain ⟨-, -, sameId, -, -, -, sameFound⟩ := verifiedRow_fields v [row.evidenceId] other
      exact ⟨sameFound, sameId⟩
    have recorded : found ∈ (e.record (v.verification row)).history ↔
        found ∈ e.history ∨ found = v.verification row := by
      change found ∈ e.history ++ [v.verification row] ↔ _
      rw [List.mem_append, List.mem_singleton]
    rw [ih others, record_rows v mem, recorded]
    simp only [List.mem_map, exists_exists_and_eq_and, (old _).1, (old _).2]
    constructor
    · rintro ((before | rfl) | ⟨other, memOther, later, rfl⟩)
      · exact .inl before
      · exact .inr ⟨row, mem, List.mem_cons_self, rfl⟩
      · exact .inr ⟨other, memOther, List.mem_cons_of_mem _ later, rfl⟩
    · rintro (before | ⟨other, memOther, listed, rfl⟩)
      · exact .inl (.inl before)
      · rcases List.mem_cons.mp listed with same | later
        · rw [e.rows.key_injective memOther mem same]
          exact .inl (.inr rfl)
        · exact .inr ⟨other, memOther, later, rfl⟩

theorem loadManifest_eq_ok {v : Verifier} {e e' : Evidence} {caseId : String} {rows : List EvidenceRow} :
    loadManifest v e caseId = .ok (e', rows) ↔
      (∃ results, verifyAll v e (preExportEvidenceIds e caseId) = .ok (e', results)) ∧
        (exportEligibility e' caseId).1 = true ∧ rows = manifestEvidence e' caseId := by
  unfold loadManifest
  cases verifyAll v e (preExportEvidenceIds e caseId) with
  | error exc => simp
  | ok answer =>
    obtain ⟨next, results⟩ := answer
    cases eligible : (exportEligibility next caseId).1 with
    | false =>
      simp only [eligible, Bool.false_eq_true, if_false, reduceCtorEq, false_iff, not_and]
      rintro ⟨_, same⟩ good
      cases same
      rw [eligible] at good
      cases good
    | true =>
      simp only [eligible, if_true, Except.ok.injEq, Prod.mk.injEq]
      constructor
      · rintro ⟨rfl, rfl⟩
        exact ⟨⟨results, rfl, rfl⟩, eligible, rfl⟩
      · rintro ⟨⟨_, rfl, -⟩, -, rfl⟩
        exact ⟨rfl, rfl⟩

theorem generateExport_eq_ok {v : Verifier} {sign : List EvidenceRow → String} {limitations : List String}
    {e e' : Evidence} {caseId : String} {package : Package}
    (signed : generateExport v sign limitations e caseId = .ok (e', package)) :
    loadManifest v e caseId = .ok (e', package.evidenceObjects) := by
  unfold generateExport at signed
  split at signed
  · cases signed
  · rename_i next rows loaded
    cases written : embedAll v rows with
    | error failure =>
      rw [written] at signed
      cases signed
    | ok objects =>
      rw [written] at signed
      cases signed
      exact loaded

theorem mem_manifestEvidence_map {v : Verifier} {e e' : Evidence} {evidenceIds : List String} {caseId : String}
    (rows : e'.rows.rows = e.rows.rows.map (verifiedRow v evidenceIds)) {row : EvidenceRow} :
    row ∈ manifestEvidence e' caseId ↔ ∃ old ∈ manifestEvidence e caseId, row = verifiedRow v evidenceIds old := by
  simp only [mem_manifestEvidence, rows, List.mem_map]
  constructor
  · rintro ⟨⟨⟨old, mem, rfl⟩, ofCase⟩, kind⟩
    obtain ⟨sameCase, sameType, -⟩ := verifiedRow_fields v evidenceIds old
    rw [sameCase] at ofCase
    rw [sameType] at kind
    exact ⟨old, ⟨⟨mem, ofCase⟩, kind⟩, rfl⟩
  · rintro ⟨old, ⟨⟨mem, ofCase⟩, kind⟩, rfl⟩
    obtain ⟨sameCase, sameType, -⟩ := verifiedRow_fields v evidenceIds old
    exact ⟨⟨⟨old, mem, rfl⟩, sameCase.trans ofCase⟩, by rw [sameType]; exact kind⟩

/-- The rows of the manifest against those before the verifications: the required
ones bear their new status, the optional ones are as they were. -/
theorem mem_loaded_iff {v : Verifier} {e e' : Evidence} {caseId : String} {rows : List EvidenceRow}
    (loaded : loadManifest v e caseId = .ok (e', rows)) (row : EvidenceRow) :
    row ∈ rows ↔ ∃ old ∈ manifestEvidence e caseId,
      row = if old.requiredForExport then setStatus (v.verification old).status old else old := by
  obtain ⟨⟨results, ran⟩, -, rfl⟩ := loadManifest_eq_ok.mp loaded
  obtain ⟨changed, -, -⟩ := verifyAll_spec ran
  have listed : ∀ old ∈ manifestEvidence e caseId,
      old.evidenceId ∈ preExportEvidenceIds e caseId ↔ old.requiredForExport = true := by
    intro old mem
    rw [mem_preExportEvidenceIds]
    constructor
    · rintro ⟨other, memOther, required, same⟩
      have one := e.rows.key_injective (mem_manifestEvidence.mp memOther).1.1
        (mem_manifestEvidence.mp mem).1.1 same
      rw [← one]
      exact required
    · intro required
      exact ⟨old, mem, required, rfl⟩
  have status : ∀ old ∈ manifestEvidence e caseId, verifiedRow v (preExportEvidenceIds e caseId) old =
      if old.requiredForExport then setStatus (v.verification old).status old else old := by
    intro old mem
    rw [verifiedRow, if_congr (listed old mem) rfl rfl]
  rw [mem_manifestEvidence_map changed]
  constructor
  · rintro ⟨old, mem, rfl⟩
    exact ⟨old, mem, status old mem⟩
  · rintro ⟨old, mem, rfl⟩
    exact ⟨old, mem, (status old mem).symm⟩

theorem isPackage_of_part {evidenceType : String} (kind : isPackagePart evidenceType = false) :
    isPackage evidenceType = false := by
  simp only [isPackagePart, isPackage, List.mem_cons, decide_eq_false_iff_not, not_or] at kind ⊢
  exact ⟨kind.1, kind.2.1, List.not_mem_nil⟩

theorem required_verified {v : Verifier} {e e' : Evidence} {caseId : String} {rows : List EvidenceRow}
    (loaded : loadManifest v e caseId = .ok (e', rows)) {old : EvidenceRow}
    (mem : old ∈ manifestEvidence e caseId) (required : old.requiredForExport = true) :
    (v.verification old).status = verified := by
  have listed := (mem_loaded_iff loaded (setStatus (v.verification old).status old)).mpr
    ⟨old, mem, by rw [if_pos required]⟩
  obtain ⟨-, eligible, rfl⟩ := loadManifest_eq_ok.mp loaded
  obtain ⟨⟨memRows, ofCase⟩, kind⟩ := mem_manifestEvidence.mp listed
  have all := ((exportEligibility_iff e' caseId).mp eligible).1
  have other := isPackage_of_part kind
  exact all _ (List.mem_filter.mpr ⟨memRows, decide_eq_true ofCase⟩) required (by simp only [other, Bool.not_false])

theorem optional_history {v : Verifier} {e e' : Evidence} {caseId : String} {rows : List EvidenceRow}
    (loaded : loadManifest v e caseId = .ok (e', rows)) {old : EvidenceRow}
    (mem : old ∈ manifestEvidence e caseId) (optional : old.requiredForExport = false)
    (found : Verification) (same : found.evidenceId = old.evidenceId) :
    found ∈ e'.history ↔ found ∈ e.history := by
  obtain ⟨⟨results, ran⟩, -, rfl⟩ := loadManifest_eq_ok.mp loaded
  rw [verifyAll_history ran]
  refine or_iff_left ?_
  rintro ⟨row, memRow, chosen, rfl⟩
  obtain ⟨other, memOther, required, sameId⟩ := mem_preExportEvidenceIds.mp chosen
  have one := e.rows.key_injective (mem_manifestEvidence.mp memOther).1.1
    (mem_manifestEvidence.mp mem).1.1 (sameId.trans same)
  rw [one, optional] at required
  cases required

/-- Every object of a signed manifest was verified before exactly when the optional
objects of the case had been: an export verifies the required ones only. -/
theorem all_included_verified_iff {v : Verifier} {sign : List EvidenceRow → String}
    {limitations : List String} {e e' : Evidence} {caseId : String} {package : Package}
    (signed : generateExport v sign limitations e caseId = .ok (e', package)) :
    (∀ row ∈ package.evidenceObjects, VerifiedBefore e' row) ↔
      ∀ row ∈ manifestEvidence e caseId, row.requiredForExport = false → VerifiedBefore e row := by
  have loaded := generateExport_eq_ok signed
  constructor
  · intro all row mem optional
    have listed := (mem_loaded_iff loaded row).mpr ⟨row, mem, by rw [optional]; rfl⟩
    obtain ⟨status, found, memFound, same, good⟩ := all row listed
    exact ⟨status, found, (optional_history loaded mem optional found same).mp memFound, same, good⟩
  · intro before row listed
    obtain ⟨old, mem, rfl⟩ := (mem_loaded_iff loaded row).mp listed
    cases required : old.requiredForExport with
    | false =>
      obtain ⟨status, found, memFound, same, good⟩ := before old mem required
      exact ⟨status, found, (optional_history loaded mem required found same).mpr memFound, same, good⟩
    | true =>
      have status := required_verified loaded mem required
      obtain ⟨⟨results, ran⟩, -, -⟩ := loadManifest_eq_ok.mp loaded
      have recorded := (verifyAll_history ran (v.verification old)).mpr
        (.inr ⟨old, (mem_manifestEvidence.mp mem).1.1,
          mem_preExportEvidenceIds.mpr ⟨old, mem, required, rfl⟩, rfl⟩)
      exact ⟨status, v.verification old, recorded, rfl, status⟩

/-! A case with an optional log that nobody verified. -/

def optionalLog (status : String) : EvidenceRow :=
  { sampleRow "01HX3QK7Z000000000000000E3" "LOG" status with requiredForExport := false }

def sampleEvidence (rows : KeyedTable EvidenceRow.evidenceId) : Evidence :=
  { rows, audit := [], outbox := .empty, history := [], gaps := [] }

def requiredOnly : Evidence := sampleEvidence ⟨[pendingLog], List.nodup_singleton _⟩

def withOptional : Evidence :=
  sampleEvidence ⟨[pendingLog, optionalLog "PENDING"], by decide⟩

theorem required_only_verified : ∃ e package,
    generateExport sampleVerifier (fun _ => "0") [] requiredOnly sampleCase = .ok (e, package) ∧
      ∀ row ∈ package.evidenceObjects, VerifiedBefore e row := by
  have signed : generateExport sampleVerifier (fun _ => "0") [] requiredOnly sampleCase =
      .ok (requiredOnly.record (sampleVerifier.verification pendingLog), _) := rfl
  refine ⟨_, _, signed, (all_included_verified_iff signed).mpr ?_⟩
  intro row mem optional
  have same : row = pendingLog := List.mem_singleton.mp (mem_manifestEvidence.mp mem).1.1
  rw [same] at optional
  cases optional

/-- The package says that its objects were verified, and one of them is PENDING. -/
theorem optional_unverified : ∃ e package,
    generateExport sampleVerifier (fun _ => "0") [] withOptional sampleCase = .ok (e, package) ∧
      "All included objects were VERIFIED before export: yes" ∈ package.report ∧
      ∃ row ∈ package.evidenceObjects, row.verificationStatus ≠ verified := by
  refine ⟨_, _, rfl, by decide, optionalLog "PENDING", ?_, by decide⟩
  exact List.mem_cons_of_mem _ (List.mem_singleton_self _)

end Mirage.ExportGeneration
