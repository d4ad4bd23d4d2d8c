import Mirage.EventRun
import Mathlib.Data.List.Basic

/-! Which report `process_next_report` selects. -/

namespace Mirage.ReportSelection
open EventRun

inductive Status where
  | queued | waitingForExport | generating | verifying | completed | cancelRequested | cancelled | failed
  deriving DecidableEq

inductive ExportStatus where
  | pending | verified | failed
  deriving DecidableEq

structure Report where
  status : Status
  exportId : Option ℕ
  timeoutAt : ℕ
  deriving DecidableEq

structure State where
  reports : List Report
  exports : List ExportStatus
  now : ℕ

inductive Outcome where
  | completed | raised | crashed
  deriving DecidableEq

def Status.isFinal : Status → Bool
  | .completed | .cancelled | .failed => true
  | _ => false

/-- `status IN ('QUEUED','WAITING_FOR_EXPORT','CANCEL_REQUESTED')`. -/
def Status.isSelected : Status → Bool
  | .queued | .waitingForExport | .cancelRequested => true
  | _ => false

def select (s : State) : Option ℕ := s.reports.findIdx? fun row => row.status.isSelected

def timeoutSeconds : ℕ := 15 * 60

def setStatus (s : State) (reportId : ℕ) (status : Status) : State :=
  { s with reports := s.reports.modify reportId fun row => { row with status } }

def createCaseReport (s : State) : State :=
  { s with reports := s.reports ++ [⟨.queued, none, s.now + timeoutSeconds⟩] }

def cancelCaseReport (s : State) (reportId : ℕ) : State :=
  { s with reports := s.reports.modify reportId fun row =>
    match row.status with
    | .completed | .failed | .cancelled => row
    | .queued | .waitingForExport => { row with status := .cancelled }
    | _ => { row with status := .cancelRequested } }

def finishExport (s : State) (exportId : ℕ) (signed : Bool) : State :=
  { s with exports := s.exports.modify exportId fun _ => if signed then .verified else .failed }

def ended : Outcome → Status
  | .completed => .completed
  | .raised => .failed
  | .crashed => .generating

def process (s : State) (outcome : Outcome) (reportId : ℕ) (row : Report) : State :=
  if row.status = .cancelRequested then setStatus s reportId .cancelled
  else if row.timeoutAt ≤ s.now then setStatus s reportId .failed
  else match row.exportId with
    | none =>
      { s with
        exports := s.exports ++ [.pending]
        reports := s.reports.modify reportId fun row =>
          { row with status := .waitingForExport, exportId := some s.exports.length } }
    | some x =>
      match s.exports[x]? with
      | none | some .failed => setStatus s reportId .failed
      | some .pending => s
      | some .verified => setStatus s reportId (ended outcome)

def processNextReport (s : State) (outcome : Outcome) : State :=
  match select s with
  | none => s
  | some reportId => (s.reports[reportId]?).elim s (process s outcome reportId)

inductive Action where
  | createCaseReport
  | cancelCaseReport (reportId : ℕ)
  | finishExport (exportId : ℕ) (signed : Bool)
  | tick (seconds : ℕ)
  | processNextReport (outcome : Outcome)

def step (s : State) : Action → State
  | .createCaseReport => createCaseReport s
  | .cancelCaseReport reportId => cancelCaseReport s reportId
  | .finishExport exportId signed => finishExport s exportId signed
  | .tick seconds => { s with now := s.now + seconds }
  | .processNextReport outcome => processNextReport s outcome

def canAdvance (s : State) (row : Report) : Bool :=
  row.status = .cancelRequested || row.timeoutAt ≤ s.now ||
    row.exportId.all fun x => s.exports[x]? ≠ some .pending

/-- No worker dies behind its commit of GENERATING, and no call is made while the oldest
of the selected statuses waits for a pending export and a younger one could go on. -/
def Admissible (s : State) : Action → Prop
  | .processNextReport outcome => ∀ reportId row, select s = some reportId → s.reports[reportId]? = some row →
      (outcome = .crashed → row.status = .cancelRequested ∨ row.timeoutAt ≤ s.now ∨
        ∀ x, row.exportId = some x → s.exports[x]? ≠ some .verified) ∧
      (canAdvance s row = true ∨
        ∀ other ∈ s.reports, other.status.isFinal = false → canAdvance s other = false)
  | _ => True

def NoneStranded (s : State) : Prop :=
  ∀ row ∈ s.reports, row.status.isFinal = false → row.status.isSelected = true

theorem noneStranded_modify {s : State} {reportId : ℕ} {f : Report → Report} (kept : NoneStranded s)
    (changed : ∀ row, s.reports[reportId]? = some row → (f row).status.isFinal = false →
      (f row).status.isSelected = true) : NoneStranded { s with reports := s.reports.modify reportId f } := by
  intro row mem running
  obtain ⟨i, found⟩ := List.mem_iff_getElem?.mp mem
  rw [List.getElem?_modify] at found
  obtain ⟨old, located, rfl⟩ := Option.map_eq_some_iff.mp found
  by_cases same : reportId = i
  · subst same
    rw [if_pos rfl] at running ⊢
    exact changed old located running
  · rw [if_neg same] at running ⊢
    exact kept old (List.mem_of_getElem? located) running

theorem noneStranded_setStatus {s : State} {reportId : ℕ} {status : Status} (kept : NoneStranded s)
    (good : status.isFinal = true) : NoneStranded (setStatus s reportId status) :=
  noneStranded_modify kept fun _ _ running => by
    rw [good] at running
    cases running

theorem noneStranded_process {s : State} {outcome : Outcome} {reportId : ℕ} {row : Report} (kept : NoneStranded s)
    (alive : outcome = .crashed → row.status = .cancelRequested ∨ row.timeoutAt ≤ s.now ∨
      ∀ x, row.exportId = some x → s.exports[x]? ≠ some .verified) :
    NoneStranded (process s outcome reportId row) := by
  unfold process
  split
  · exact noneStranded_setStatus kept rfl
  · rename_i notCancelled
    split
    · exact noneStranded_setStatus kept rfl
    · rename_i notTimedOut
      split
      · exact noneStranded_modify (s := { s with exports := s.exports ++ [.pending] }) kept fun _ _ _ => rfl
      · rename_i x linked
        split
        · exact noneStranded_setStatus kept rfl
        · exact noneStranded_setStatus kept rfl
        · exact kept
        · rename_i verified
          refine noneStranded_setStatus kept ?_
          cases outcome with
          | completed => rfl
          | raised => rfl
          | crashed =>
            rcases alive rfl with cancelled | timedOut | unsigned
            · exact absurd cancelled notCancelled
            · exact absurd timedOut notTimedOut
            · exact absurd verified (unsigned x linked)

theorem noneStranded_step {s : State} {a : Action} (kept : NoneStranded s) (admissible : Admissible s a) :
    NoneStranded (step s a) := by
  cases a with
  | createCaseReport =>
    intro row mem running
    rcases List.mem_append.mp mem with old | new
    · exact kept row old running
    · rw [List.mem_singleton.mp new]
      rfl
  | cancelCaseReport reportId =>
    refine noneStranded_modify kept fun row located running => ?_
    cases status : row.status <;> simp only [status] at running ⊢ <;> first | rfl | cases running
  | finishExport exportId signed => exact kept
  | tick seconds => exact kept
  | processNextReport outcome =>
    change NoneStranded (processNextReport s outcome)
    unfold processNextReport
    cases chosen : select s with
    | none => exact kept
    | some reportId =>
      simp only
      cases found : s.reports[reportId]? with
      | none => exact kept
      | some row => exact noneStranded_process kept (admissible reportId row chosen found).1

theorem process_changes {s : State} {outcome : Outcome} {reportId : ℕ} {row : Report}
    (found : s.reports[reportId]? = some row) (selected : row.status.isSelected = true)
    (able : canAdvance s row = true) : (process s outcome reportId row).reports ≠ s.reports := by
  have changes : ∀ f : Report → Report, f row ≠ row → s.reports.modify reportId f ≠ s.reports := by
    intro f other same
    have there := congrArg (fun reports => reports[reportId]?) same
    simp only [List.getElem?_modify, if_true, found, Option.map_some, Option.map_eq_map] at there
    exact other (Option.some.inj there)
  have away : ∀ status : Status, status.isSelected = false → (setStatus s reportId status).reports ≠ s.reports := by
    intro status other
    refine changes _ fun same => ?_
    have equal := congrArg Report.status same
    rw [show status = row.status from equal, selected] at other
    cases other
  unfold process
  split
  · exact away .cancelled rfl
  · rename_i notCancelled
    split
    · exact away .failed rfl
    · rename_i notTimedOut
      split
      · rename_i absent
        refine changes _ fun same => ?_
        have equal := congrArg Report.exportId same
        rw [absent] at equal
        cases equal
      · rename_i x linked
        split
        · exact away .failed rfl
        · exact away .failed rfl
        · rename_i waits
          simp only [canAdvance, notCancelled, notTimedOut, linked, waits, decide_false, Bool.or_self,
            Option.all_some, ne_eq, not_true_eq_false, Bool.false_eq_true] at able
        · cases outcome <;> exact away _ rfl

/-- In every run of admissible steps each report that is not at its end has a status
that a call selects, and a call with a report that can go on takes some report on. -/
theorem no_report_stranded {s : State} (opening : s.reports = []) {actions : List Action}
    (along : Along step Admissible s actions) {front : List Action} (reached : front <+: actions) :
    NoneStranded (run step s front) ∧ ∀ outcome, front ++ [.processNextReport outcome] <+: actions →
      (∃ row ∈ (run step s front).reports, row.status.isFinal = false ∧ canAdvance (run step s front) row = true) →
      (run step s (front ++ [.processNextReport outcome])).reports ≠ (run step s front).reports := by
  have initial : NoneStranded s := by
    intro row mem
    rw [opening] at mem
    cases mem
  have throughout := throughout_of_along (I := NoneStranded) (P := NoneStranded)
    (fun _ _ before admissible => noneStranded_step before admissible) (fun _ good => good) initial along
  have here := (throughout_iff_front _ _ _ _).mp throughout front reached
  refine ⟨here, fun outcome called able => ?_⟩
  obtain ⟨other, mem, running, advances⟩ := able
  have admissible := along_prefix along called
  rw [run_append]
  change (processNextReport (run step s front) outcome).reports ≠ _
  unfold processNextReport
  cases chosen : select (run step s front) with
  | none =>
    have selected := here other mem running
    rw [List.findIdx?_eq_none_iff.mp chosen other mem] at selected
    cases selected
  | some reportId =>
    obtain ⟨inside, selected, -⟩ := List.findIdx?_eq_some_iff_getElem.mp chosen
    have located : (run step s front).reports[reportId]? = some (run step s front).reports[reportId] :=
      List.getElem?_eq_getElem inside
    simp only [located, Option.elim_some]
    refine process_changes located selected ?_
    rcases (admissible reportId _ chosen located).2 with good | none
    · exact good
    · rw [none other mem running] at advances
      cases advances

/-! A report on its way, one that dies with its worker, and one behind another. -/

def emptyState : State := ⟨[], [], 0⟩

def exporting : List Action :=
  [.createCaseReport, .processNextReport .completed, .finishExport 0 true]

theorem exporting_advances : NoneStranded (run step emptyState exporting) ∧
    ∀ outcome, exporting ++ [.processNextReport outcome] <+: exporting ++ [.processNextReport .completed] →
      (∃ row ∈ (run step emptyState exporting).reports,
        row.status.isFinal = false ∧ canAdvance (run step emptyState exporting) row = true) →
      (run step emptyState (exporting ++ [.processNextReport outcome])).reports ≠
        (run step emptyState exporting).reports := by
  have along : Along step Admissible emptyState (exporting ++ [.processNextReport .completed]) := by
    refine ⟨trivial, fun reportId row chosen found => ?_, trivial, fun reportId row chosen found => ?_, trivial⟩
    · cases chosen
      cases found
      exact ⟨fun crashed => (by cases crashed), .inl (by decide)⟩
    · cases chosen
      cases found
      exact ⟨fun crashed => (by cases crashed), .inl (by decide)⟩
  exact no_report_stranded rfl along (List.prefix_append _ _)

/-- A crash leaves the report in GENERATING, and a waiting report hides a younger one. -/
theorem report_stranded_and_hidden :
    (run step emptyState (exporting ++ [.processNextReport .crashed])).reports.map Report.status = [.generating] ∧
      (let waiting := run step emptyState [.createCaseReport, .processNextReport .completed, .createCaseReport]
       (waiting.reports.map (canAdvance waiting) = [false, true]) ∧
         (processNextReport waiting .completed).reports = waiting.reports) := by
  decide

end Mirage.ReportSelection
