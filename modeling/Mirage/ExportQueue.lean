import Mirage.EventRun
import Mathlib.Data.List.Count

/-! The queue of exports: the rows of `evidence_exports` that are PENDING, the writers
that make them so, and the worker that takes the oldest one without a manifest digest. -/

namespace Mirage.ExportQueue
open EventRun

inductive Status where
  | pending | verified | failed
  deriving DecidableEq

/-- A row of `evidence_exports`, less what the queue does not read. -/
structure Export where
  caseId : String
  verificationStatus : Status
  manifestSha256 : Option String
  deriving DecidableEq

structure Queue where
  exports : List Export
  /-- The exports whose generation was rolled back and is not marked yet. -/
  raised : List ℕ

inductive Outcome where
  | signed (manifestSha256 : String)
  | notEligible
  | raised
  deriving DecidableEq

/-- `WHERE verification_status='PENDING' AND manifest_sha256 IS NULL`. -/
def selected (row : Export) : Bool := row.verificationStatus = .pending && row.manifestSha256.isNone

def select (s : Queue) : Option ℕ := s.exports.findIdx? selected

/-- The row that `create_export` and `_queue_evidence_export` insert. -/
def insertPending (s : Queue) (caseId : String) : Queue :=
  { s with exports := s.exports ++ [⟨caseId, .pending, none⟩] }

def createExport : Queue → String → Queue := insertPending

def queueEvidenceExport : Queue → String → Queue := insertPending

def setRow (s : Queue) (exportId : ℕ) (f : Export → Export) : Queue :=
  { s with exports := s.exports.modify exportId f }

def requestExportVerification (s : Queue) (caseId : String) (exportId : ℕ) : Queue :=
  setRow s exportId fun row => if row.caseId = caseId then { row with verificationStatus := .pending } else row

def markFailed (row : Export) : Export := { row with verificationStatus := .failed }

def generate (s : Queue) (outcome : Outcome) : Queue :=
  match select s with
  | none => s
  | some exportId =>
    match outcome with
    | .signed digest =>
      setRow s exportId fun row => { row with verificationStatus := .verified, manifestSha256 := some digest }
    | .notEligible => setRow s exportId markFailed
    | .raised => { s with raised := s.raised ++ [exportId] }

def failRaised (s : Queue) (exportId : ℕ) : Queue :=
  if exportId ∈ s.raised then setRow { s with raised := s.raised.erase exportId } exportId markFailed else s

inductive Action where
  | createExport (caseId : String)
  | queueEvidenceExport (caseId : String)
  | requestExportVerification (caseId : String) (exportId : ℕ)
  | generate (outcome : Outcome)
  | failRaised (exportId : ℕ)
  /-- A worker dies: what it holds is rolled back, and a raised export stays unmarked. -/
  | crash (exportId : ℕ)

def step (s : Queue) : Action → Queue
  | .createExport caseId => createExport s caseId
  | .queueEvidenceExport caseId => queueEvidenceExport s caseId
  | .requestExportVerification caseId exportId => requestExportVerification s caseId exportId
  | .generate outcome => generate s outcome
  | .failRaised exportId => failRaised s exportId
  | .crash exportId => { s with raised := s.raised.erase exportId }

def Admissible (s : Queue) : Action → Prop
  | .requestExportVerification caseId exportId => ∀ row, s.exports[exportId]? = some row →
      row.caseId = caseId → row.manifestSha256 = none
  | _ => True

def NoneStranded (s : Queue) : Prop :=
  ∀ row ∈ s.exports, row.verificationStatus = .pending → selected row = true

theorem selected_iff {row : Export} :
    selected row = true ↔ row.verificationStatus = .pending ∧ row.manifestSha256 = none := by
  simp only [selected, Bool.and_eq_true, decide_eq_true_eq, Option.isNone_iff_eq_none]

theorem noneStranded_insert {s : Queue} (caseId : String) (kept : NoneStranded s) :
    NoneStranded (insertPending s caseId) := by
  intro row mem pending
  rcases List.mem_append.mp mem with old | new
  · exact kept row old pending
  · rw [List.mem_singleton.mp new]
    rfl

theorem noneStranded_setRow {s : Queue} {exportId : ℕ} {f : Export → Export} (kept : NoneStranded s)
    (changed : ∀ row, s.exports[exportId]? = some row → (f row).verificationStatus = .pending →
      selected (f row) = true) : NoneStranded (setRow s exportId f) := by
  intro row mem pending
  obtain ⟨i, found⟩ := List.mem_iff_getElem?.mp mem
  rw [show (setRow s exportId f).exports = s.exports.modify exportId f from rfl, List.getElem?_modify] at found
  obtain ⟨old, located, rfl⟩ := Option.map_eq_some_iff.mp found
  by_cases same : exportId = i
  · subst same
    rw [if_pos rfl] at pending ⊢
    exact changed old located pending
  · rw [if_neg same] at pending ⊢
    exact kept old (List.mem_of_getElem? located) pending

theorem noneStranded_step {s : Queue} {a : Action} (kept : NoneStranded s) (admissible : Admissible s a) :
    NoneStranded (step s a) := by
  cases a with
  | createExport caseId => exact noneStranded_insert caseId kept
  | queueEvidenceExport caseId => exact noneStranded_insert caseId kept
  | requestExportVerification caseId exportId =>
    refine noneStranded_setRow kept fun row located pending => ?_
    split at pending
    · rename_i ofCase
      rw [if_pos ofCase, selected_iff]
      exact ⟨rfl, admissible row located ofCase⟩
    · rename_i other
      rw [if_neg other]
      exact kept row (List.mem_of_getElem? located) pending
  | generate outcome =>
    simp only [step, generate]
    split
    · exact kept
    · cases outcome with
      | signed digest => exact noneStranded_setRow kept fun _ _ pending => by cases pending
      | notEligible => exact noneStranded_setRow kept fun _ _ pending => by cases pending
      | raised => exact kept
  | failRaised exportId =>
    simp only [step, failRaised]
    split
    · exact noneStranded_setRow (s := { s with raised := s.raised.erase exportId }) kept
        fun _ _ pending => by cases pending
    · exact kept
  | crash exportId => exact kept

def answering (s : Queue) : Outcome → List Action
  | .raised => (select s).elim [] fun exportId => [.generate .raised, .failRaised exportId]
  | outcome => [.generate outcome]

def answer (s : Queue) (outcome : Outcome) : Queue := run step s (answering s outcome)

def pendingCount (s : Queue) : ℕ := s.exports.countP fun row => row.verificationStatus = .pending

def answered : Outcome → Export → Export
  | .signed digest, row => { row with verificationStatus := .verified, manifestSha256 := some digest }
  | _, row => markFailed row

theorem answered_settled (outcome : Outcome) (row : Export) :
    (answered outcome row).verificationStatus ≠ .pending := by
  cases outcome <;> exact fun pending => by cases pending

theorem answer_exports {s : Queue} {exportId : ℕ} (chosen : select s = some exportId) (outcome : Outcome) :
    (answer s outcome).exports = s.exports.modify exportId (answered outcome) := by
  cases outcome with
  | signed digest => simp only [answer, answering, run_cons, run_nil, step, generate, chosen]; rfl
  | notEligible => simp only [answer, answering, run_cons, run_nil, step, generate, chosen]; rfl
  | raised =>
    have listed : exportId ∈ s.raised ++ [exportId] := List.mem_append_right _ (List.mem_singleton_self _)
    simp only [answer, answering, chosen, Option.elim_some, run_cons, run_nil, step, generate, failRaised,
      if_pos listed]
    rfl

theorem pendingCount_answer {s : Queue} {exportId : ℕ} (chosen : select s = some exportId) (outcome : Outcome) :
    pendingCount (answer s outcome) + 1 = pendingCount s := by
  obtain ⟨inside, matched, -⟩ := List.findIdx?_eq_some_iff_getElem.mp chosen
  have pending := (selected_iff.mp matched).1
  have positive : 0 < pendingCount s :=
    List.countP_pos_iff.mpr ⟨s.exports[exportId], List.getElem_mem inside, decide_eq_true pending⟩
  have settled := answered_settled outcome s.exports[exportId]
  have counted := List.countP_set (p := fun row : Export => row.verificationStatus = .pending)
    (a := answered outcome s.exports[exportId]) inside
  simp only [pending, settled, decide_true, decide_false, if_true, Bool.false_eq_true, if_false] at counted
  have replaced : (answer s outcome).exports = s.exports.set exportId (answered outcome s.exports[exportId]) := by
    rw [answer_exports chosen, List.modify_eq_set_getElem?, List.getElem?_eq_getElem inside]
    rfl
  unfold pendingCount at positive ⊢
  rw [replaced, counted]
  omega

theorem noneStranded_answer {s : Queue} (kept : NoneStranded s) (outcome : Outcome) :
    NoneStranded (answer s outcome) := by
  cases outcome with
  | signed digest => exact noneStranded_step (a := .generate (.signed digest)) kept trivial
  | notEligible => exact noneStranded_step (a := .generate .notEligible) kept trivial
  | raised =>
    unfold answer answering
    cases select s with
    | none => exact kept
    | some exportId =>
      have raised := noneStranded_step (a := .generate .raised) kept trivial
      exact noneStranded_step (a := .failRaised exportId) raised trivial

theorem answers_settle {s : Queue} (kept : NoneStranded s) {outcomes : List Outcome}
    (enough : pendingCount s ≤ outcomes.length) :
    ∀ row ∈ (outcomes.foldl answer s).exports, row.verificationStatus ≠ .pending := by
  induction outcomes generalizing s with
  | nil =>
    intro row mem pending
    have none := List.countP_eq_zero.mp (Nat.le_zero.mp enough) row mem
    exact none (decide_eq_true pending)
  | cons outcome rest ih =>
    refine ih (noneStranded_answer kept outcome) ?_
    cases chosen : select s with
    | some exportId =>
      have less := pendingCount_answer chosen outcome
      rw [List.length_cons] at enough
      omega
    | none =>
      have idle : (answer s outcome) = s := by
        cases outcome <;> simp only [answer, answering, chosen, Option.elim_none, run_cons, run_nil, step, generate]
      have zero : pendingCount s = 0 := by
        refine List.countP_eq_zero.mpr fun row mem pending => ?_
        have taken := kept row mem (of_decide_eq_true pending)
        rw [List.findIdx?_eq_none_iff.mp chosen row mem] at taken
        cases taken
      rw [idle, zero]
      exact Nat.zero_le _

/-- `process_next_report` returns False while the export of its report is neither
FAILED nor VERIFIED. -/
def reportWaits (s : Queue) (exportId : ℕ) : Bool :=
  (s.exports[exportId]?).any fun row => row.verificationStatus ≠ .failed && row.verificationStatus ≠ .verified

theorem reportWaits_of_settled {s : Queue} (settled : ∀ row ∈ s.exports, row.verificationStatus ≠ .pending)
    (exportId : ℕ) : reportWaits s exportId = false := by
  unfold reportWaits
  cases found : s.exports[exportId]? with
  | none => rfl
  | some row =>
    have other := settled row (List.mem_of_getElem? found)
    cases status : row.verificationStatus with
    | pending => exact absurd status other
    | verified => simp only [Option.any_some, status]; rfl
    | failed => simp only [Option.any_some, status]; rfl

/-- In every run in which no signed export is asked to be verified again, each pending
export is one that the worker selects, and as many answers as are pending settle all. -/
theorem no_export_stranded {s : Queue} (opening : s.exports = []) {actions : List Action}
    (along : Along step Admissible s actions) {front : List Action} (reached : front <+: actions) :
    NoneStranded (run step s front) ∧ ∀ outcomes : List Outcome,
      pendingCount (run step s front) ≤ outcomes.length →
      (∀ row ∈ (outcomes.foldl answer (run step s front)).exports, row.verificationStatus ≠ .pending) ∧
        ∀ exportId, reportWaits (outcomes.foldl answer (run step s front)) exportId = false := by
  have initial : NoneStranded s := by
    intro row mem
    rw [opening] at mem
    cases mem
  have throughout := throughout_of_along (I := NoneStranded) (P := NoneStranded)
    (fun _ _ before admissible => noneStranded_step before admissible) (fun _ good => good) initial along
  have here := (throughout_iff_front _ _ _ _).mp throughout front reached
  refine ⟨here, fun outcomes enough => ?_⟩
  have settled := answers_settle here enough
  exact ⟨settled, reportWaits_of_settled settled⟩

/-! One export, signed, and then asked to be verified again. -/

def emptyQueue : Queue := ⟨[], []⟩

def signing : List Action := [.createExport "01HX3QK7Z0000000000000CASE", .generate (.signed "0")]

theorem signing_settles : NoneStranded (run step emptyQueue signing) ∧ ∀ outcomes : List Outcome,
    pendingCount (run step emptyQueue signing) ≤ outcomes.length →
    (∀ row ∈ (outcomes.foldl answer (run step emptyQueue signing)).exports, row.verificationStatus ≠ .pending) ∧
      ∀ exportId, reportWaits (outcomes.foldl answer (run step emptyQueue signing)) exportId = false :=
  have along : Along step Admissible emptyQueue signing := ⟨trivial, trivial, trivial⟩
  no_export_stranded rfl along (List.prefix_refl _)

def stranding : List Action := signing ++ [.requestExportVerification "01HX3QK7Z0000000000000CASE" 0]

/-- The export is PENDING, and no iteration of the worker takes it. -/
theorem reverified_export_stranded :
    ¬ NoneStranded (run step emptyQueue stranding) ∧ select (run step emptyQueue stranding) = none ∧
      reportWaits (run step emptyQueue stranding) 0 = true := by
  refine ⟨fun kept => ?_, by decide, by decide⟩
  have taken := kept ⟨"01HX3QK7Z0000000000000CASE", .pending, some "0"⟩ (List.mem_singleton_self _) rfl
  exact absurd taken (by decide)

end Mirage.ExportQueue
