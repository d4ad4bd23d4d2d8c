import Mirage.ReportRequests
import Mirage.EventRun

/-! A report that is accepted while its case can be exported is completed by the worker
alone. -/

namespace Mirage.ReportCompletion
open EvidenceAcquisition ExportEligibility ExportGeneration ReportRequests EventRun
open ReportRun (evidenceIds)

def ExportStatus.weight : ExportStatus → ℕ
  | .pending => 1
  | _ => 0

def Status.weight : Status → ℕ
  | .queued => 3
  | .waitingForExport _ => 1
  | _ => 0

def pendingWork (s : Service) : ℕ :=
  (s.exports.map fun row => ExportStatus.weight row.status).sum +
    (s.reports.map fun row => Status.weight row.status).sum

theorem sum_set {ρ : Type} {f : ρ → ℕ} {rows : List ρ} {i : ℕ} {old : ρ} (found : rows[i]? = some old)
    (new : ρ) : ((rows.set i new).map f).sum + f old = (rows.map f).sum + f new := by
  induction rows generalizing i with
  | nil => cases found
  | cons row rest ih =>
    cases i with
    | zero =>
      obtain ⟨rfl⟩ : row = old := Option.some.inj found
      simp only [List.set_cons_zero, List.map_cons, List.sum_cons]
      omega
    | succ i =>
      have rest' := ih (i := i) found
      simp only [List.set_cons_succ, List.map_cons, List.sum_cons]
      omega

structure Idle (s : Service) : Prop where
  exports : ∀ row ∈ s.exports, row.status.isPending = false
  reports : ∀ row ∈ s.reports, row.status.isOpen = false

theorem pendingWork_generate {w : Worker} {s : Service} {x : ℕ} {row : Export}
    (found : s.exports[x]? = some row) (pending : row.status.isPending = true) :
    pendingWork (generate w s x row) < pendingWork s := by
  have one : ExportStatus.weight row.status = 1 := by
    cases status : row.status <;> rw [status] at pending
    · rfl
    all_goals cases pending
  have less : ∀ status, ExportStatus.weight status = 0 →
      ((s.exports.set x { row with status }).map fun row => ExportStatus.weight row.status).sum <
        (s.exports.map fun row => ExportStatus.weight row.status).sum := by
    intro status zero
    have total := sum_set (f := fun row : Export => ExportStatus.weight row.status) found { row with status }
    simp only [one, zero] at total
    omega
  unfold generate
  split
  · exact Nat.add_lt_add_right (less _ rfl) _
  · exact Nat.add_lt_add_right (less _ rfl) _
  · exact Nat.add_lt_add_right (less _ rfl) _

theorem pendingWork_process {s : Service} {reportId : ℕ} {row : Report}
    (rest : ∀ row ∈ s.exports, row.status.isPending = false)
    (found : s.reports[reportId]? = some row) (isOpen : row.status.isOpen = true) :
    pendingWork (process s reportId row) < pendingWork s := by
  have total : ∀ status,
      ((s.reports.set reportId { row with status }).map fun row => Status.weight row.status).sum +
        Status.weight row.status = (s.reports.map fun row => Status.weight row.status).sum + Status.weight status :=
    fun status => sum_set (f := fun row : Report => Status.weight row.status) found { row with status }
  unfold process
  split
  · rename_i status
    have changed := total (.waitingForExport s.exports.length)
    simp only [pendingWork, Service.setStatus, List.map_append, List.sum_append, List.map_cons, List.map_nil,
      List.sum_cons, List.sum_nil]
    simp only [status, Status.weight, ExportStatus.weight] at changed ⊢
    omega
  · rename_i x status
    have ends : ∀ last, Status.weight last = 0 → pendingWork (s.setStatus reportId row last) < pendingWork s := by
      intro last zero
      have changed := total last
      rw [zero, status] at changed
      simp only [pendingWork, Service.setStatus]
      simp only [Status.weight] at changed ⊢
      omega
    split
    · exact ends .failed rfl
    · exact ends .failed rfl
    · rename_i waits
      obtain ⟨other, located, pending⟩ := Option.map_eq_some_iff.mp waits
      have settled := rest other (List.mem_of_getElem? located)
      rw [pending] at settled
      cases settled
    · split
      · exact ends .completed rfl
      · exact ends .failed rfl
  · rename_i notQueued notWaiting
    cases status : row.status with
    | queued => exact absurd status notQueued
    | waitingForExport x => exact absurd status (notWaiting x)
    | completed =>
      rw [status] at isOpen
      cases isOpen
    | failed =>
      rw [status] at isOpen
      cases isOpen

theorem work_cases (w : Worker) (s : Service) :
    (∃ x row, s.exports[x]? = some row ∧ row.status.isPending = true ∧ work w s = generate w s x row) ∨
      (∀ row ∈ s.exports, row.status.isPending = false) ∧
        ((∃ reportId row, s.reports[reportId]? = some row ∧ row.status.isOpen = true ∧
          work w s = process s reportId row) ∨ Idle s) := by
  unfold work
  cases first : s.exports.findIdx? fun row => row.status.isPending with
  | some x =>
    obtain ⟨inside, pending, -⟩ := List.findIdx?_eq_some_iff_getElem.mp first
    have located : s.exports[x]? = some s.exports[x] := List.getElem?_eq_getElem inside
    refine .inl ⟨x, s.exports[x], located, pending, ?_⟩
    simp only [located, Option.elim_some]
  | none =>
    have settled := List.findIdx?_eq_none_iff.mp first
    refine .inr ⟨settled, ?_⟩
    cases next : s.reports.findIdx? fun row => row.status.isOpen with
    | some reportId =>
      obtain ⟨inside, isOpen, -⟩ := List.findIdx?_eq_some_iff_getElem.mp next
      have located : s.reports[reportId]? = some s.reports[reportId] := List.getElem?_eq_getElem inside
      refine .inl ⟨reportId, s.reports[reportId], located, isOpen, ?_⟩
      simp only [located, Option.elim_some]
    | none => exact .inr ⟨settled, List.findIdx?_eq_none_iff.mp next⟩

theorem work_rests (w : Worker) (s : Service) : ∃ n, Idle ((work w)^[n] s) := by
  induction left : pendingWork s using Nat.strong_induction_on generalizing s with
  | h k ih =>
    rcases work_cases w s with ⟨x, row, found, pending, done⟩ | ⟨settled, ⟨reportId, row, found, isOpen, done⟩ | idle⟩
    · have less := pendingWork_generate (w := w) found pending
      rw [← done, left] at less
      obtain ⟨n, idle⟩ := ih _ less (work w s) rfl
      exact ⟨n + 1, idle⟩
    · have less := pendingWork_process settled found isOpen
      rw [← done, left] at less
      obtain ⟨n, idle⟩ := ih _ less (work w s) rfl
      exact ⟨n + 1, idle⟩
    · exact ⟨0, idle⟩

def Promising (s : Service) (r : ReportCreateRequest) (x : ℕ) : Prop :=
  ∃ row, s.exports[x]? = some row ∧ row.caseId = r.caseId ∧
    (row.status = .pending ∨ ∃ manifest, row.status = .verified manifest ∧ ∀ evidenceId,
      evidenceId ∈ evidenceIds manifest ↔ evidenceId ∈ evidenceIds (manifestEvidence s.evidence r.caseId))

structure Hopeful (v : Verifier) (s : Service) (reportId : ℕ) (r : ReportCreateRequest) : Prop where
  deliverable : Deliverable v s.evidence r
  row : ∃ status, s.reports[reportId]? = some ⟨r, status⟩ ∧
    (status = .queued ∨ status = .completed ∨ ∃ x, status = .waitingForExport x ∧ Promising s r x)

theorem completed_of_idle {v : Verifier} {s : Service} {reportId : ℕ} {r : ReportCreateRequest}
    (hopeful : Hopeful v s reportId r) (idle : Idle s) : s.reports[reportId]? = some ⟨r, .completed⟩ := by
  obtain ⟨status, found, stage⟩ := hopeful.row
  have rest := idle.reports _ (List.mem_of_getElem? found)
  rcases stage with rfl | rfl | ⟨x, rfl, -⟩
  · cases rest
  · exact found
  · cases rest

theorem promising_of_other {v : Verifier} {s s' : Service} {r : ReportCreateRequest} {x : ℕ}
    (again : Reverified v s.evidence s'.evidence) (same : s'.exports[x]? = s.exports[x]?)
    (promising : Promising s r x) : Promising s' r x := by
  obtain ⟨row, found, ofCase, status⟩ := promising
  refine ⟨row, same.trans found, ofCase, status.imp id ?_⟩
  rintro ⟨manifest, verified, ids⟩
  exact ⟨manifest, verified, fun evidenceId =>
    (ids evidenceId).trans (evidenceIds_reverified again r.caseId evidenceId).symm⟩

theorem reverified_generate (w : Worker) (s : Service) (x : ℕ) (row : Export) :
    Reverified w.toVerifier s.evidence (generate w s x row).evidence := by
  unfold generate
  split
  · rename_i signed
    obtain ⟨⟨results, ran⟩, -, -⟩ := loadManifest_eq_ok.mp (generateExport_eq_ok signed)
    exact reverified_of_verifyAll ran
  · exact reverified_verifiedLedger _ _ _
  · exact reverified_refl _ _

theorem generate_frame (w : Worker) (s : Service) (x : ℕ) (row : Export) :
    (generate w s x row).reports = s.reports ∧
      ∀ y, y ≠ x → (generate w s x row).exports[y]? = s.exports[y]? := by
  unfold generate
  split <;> exact ⟨rfl, fun y other => List.getElem?_set_ne (Ne.symm other)⟩

theorem hopeful_generate {w : Worker} {s : Service} {x reportId : ℕ} {row : Export} {r : ReportCreateRequest}
    (hopeful : Hopeful w.toVerifier s reportId r) (found : s.exports[x]? = some row) :
    Hopeful w.toVerifier (generate w s x row) reportId r where
  deliverable := deliverable_reverified hopeful.deliverable (reverified_generate w s x row)
  row := by
    obtain ⟨status, located, stage⟩ := hopeful.row
    obtain ⟨reports, others⟩ := generate_frame w s x row
    refine ⟨status, by rw [reports]; exact located, stage.imp id (Or.imp id ?_)⟩
    rintro ⟨y, waits, promising⟩
    refine ⟨y, waits, ?_⟩
    by_cases same : y = x
    · subst same
      obtain ⟨other, found', ofCase, -⟩ := promising
      obtain ⟨rfl⟩ : row = other := Option.some.inj (found.symm.trans found')
      obtain ⟨e', package, signed, -, objects⟩ := generateExport_of_deliverable hopeful.deliverable
      have inside := (List.getElem?_eq_some_iff.mp found).1
      unfold generate
      rw [ofCase, signed]
      refine ⟨_, List.getElem?_set_self inside, rfl, .inr ⟨package.evidenceObjects, rfl, fun evidenceId => ?_⟩⟩
      rw [objects]
    · exact promising_of_other (reverified_generate w s x row) (others y same) promising

theorem process_frame (s : Service) (reportId : ℕ) (row : Report) :
    (process s reportId row).evidence = s.evidence ∧
      (∃ more, (process s reportId row).exports = s.exports ++ more) ∧
      ∀ i, i ≠ reportId → (process s reportId row).reports[i]? = s.reports[i]? := by
  have kept : ∀ status i, i ≠ reportId → (s.setStatus reportId row status).reports[i]? = s.reports[i]? :=
    fun status i other => List.getElem?_set_ne (Ne.symm other)
  have none : ∃ more, s.exports = s.exports ++ more := ⟨[], (List.append_nil _).symm⟩
  unfold process
  split
  · exact ⟨rfl, ⟨_, rfl⟩, fun i other => List.getElem?_set_ne (Ne.symm other)⟩
  · split
    · exact ⟨rfl, none, kept .failed⟩
    · exact ⟨rfl, none, kept .failed⟩
    · exact ⟨rfl, none, fun _ _ => rfl⟩
    · split
      · exact ⟨rfl, none, kept .completed⟩
      · exact ⟨rfl, none, kept .failed⟩
  · exact ⟨rfl, none, fun _ _ => rfl⟩

theorem promising_of_append {s s' : Service} {r : ReportCreateRequest} {x : ℕ} (evidence : s'.evidence = s.evidence)
    (exports : ∃ more, s'.exports = s.exports ++ more) (promising : Promising s r x) : Promising s' r x := by
  obtain ⟨row, found, ofCase, status⟩ := promising
  obtain ⟨more, appended⟩ := exports
  refine ⟨row, ?_, ofCase, by rw [evidence]; exact status⟩
  rw [appended, List.getElem?_append_left (List.getElem?_eq_some_iff.mp found).1]
  exact found

theorem hopeful_process {v : Verifier} {s : Service} {reportId other : ℕ} {row : Report} {r : ReportCreateRequest}
    (hopeful : Hopeful v s reportId r) (rest : ∀ row ∈ s.exports, row.status.isPending = false)
    (found : s.reports[other]? = some row) (isOpen : row.status.isOpen = true) :
    Hopeful v (process s other row) reportId r := by
  obtain ⟨evidence, exports, others⟩ := process_frame s other row
  refine ⟨by rw [evidence]; exact hopeful.deliverable, ?_⟩
  obtain ⟨status, located, stage⟩ := hopeful.row
  by_cases same : reportId = other
  · subst same
    obtain ⟨rfl⟩ : row = ⟨r, status⟩ := Option.some.inj (found.symm.trans located)
    have inside := (List.getElem?_eq_some_iff.mp found).1
    rcases stage with rfl | rfl | ⟨x, rfl, promising⟩
    · refine ⟨.waitingForExport s.exports.length, List.getElem?_set_self inside, .inr (.inr ⟨_, rfl, ?_⟩)⟩
      exact ⟨⟨r.caseId, .pending⟩, List.getElem?_concat_length, rfl, .inl rfl⟩
    · cases isOpen
    · obtain ⟨row, there, ofCase, pending | ⟨manifest, signed, ids⟩⟩ := promising
      · have settled := rest row (List.mem_of_getElem? there)
        rw [pending] at settled
        cases settled
      · have status : (s.exports[x]?).map Export.status = some (.verified manifest) := by
          rw [there, Option.map_some, signed]
        have built := packageable_of_deliverable hopeful.deliverable ids
        have done : process s reportId ⟨r, .waitingForExport x⟩ =
            s.setStatus reportId ⟨r, .waitingForExport x⟩ .completed := by
          simp only [process, status, built, if_true]
        rw [done]
        exact ⟨.completed, List.getElem?_set_self inside, .inr (.inl rfl)⟩
  · refine ⟨status, (others reportId same).trans located, stage.imp id (Or.imp id ?_)⟩
    rintro ⟨x, waits, promising⟩
    exact ⟨x, waits, promising_of_append evidence exports promising⟩

theorem work_of_idle (w : Worker) {s : Service} (idle : Idle s) : work w s = s := by
  have exports := List.findIdx?_eq_none_iff.mpr idle.exports
  have reports := List.findIdx?_eq_none_iff.mpr idle.reports
  rw [work, exports]
  simp only [reports]

theorem hopeful_work {w : Worker} {s : Service} {reportId : ℕ} {r : ReportCreateRequest}
    (hopeful : Hopeful w.toVerifier s reportId r) : Hopeful w.toVerifier (work w s) reportId r := by
  rcases work_cases w s with ⟨x, row, found, -, done⟩ | ⟨settled, ⟨other, row, found, isOpen, done⟩ | idle⟩
  · rw [done]
    exact hopeful_generate hopeful found
  · rw [done]
    exact hopeful_process hopeful settled found isOpen
  · rw [work_of_idle w idle]
    exact hopeful

theorem hopeful_completes {w : Worker} {s : Service} {reportId : ℕ} {r : ReportCreateRequest}
    (hopeful : Hopeful w.toVerifier s reportId r) :
    ∃ n, ((work w)^[n] s).reports[reportId]? = some ⟨r, .completed⟩ := by
  have kept : ∀ n, Hopeful w.toVerifier ((work w)^[n] s) reportId r := by
    intro n
    induction n with
    | zero => exact hopeful
    | succ n ih =>
      rw [Function.iterate_succ_apply']
      exact hopeful_work ih
  obtain ⟨n, idle⟩ := work_rests w s
  exact ⟨n, completed_of_idle (kept n) idle⟩

theorem map_request_set {reports : List Report} {i : ℕ} {row : Report} (found : reports[i]? = some row)
    (status : Status) : (reports.set i { row with status }).map Report.request = reports.map Report.request := by
  apply List.ext_getElem?
  intro j
  rw [List.getElem?_map, List.getElem?_map]
  by_cases same : i = j
  · subst same
    rw [List.getElem?_set_self (List.getElem?_eq_some_iff.mp found).1, found]
    rfl
  · rw [List.getElem?_set_ne same]

theorem work_requests (w : Worker) (s : Service) :
    (work w s).reports.map Report.request = s.reports.map Report.request ∧
      (work w s).inFlight = s.inFlight ∧ (work w s).answers = s.answers := by
  rcases work_cases w s with ⟨x, row, -, -, done⟩ | ⟨-, ⟨reportId, row, found, -, done⟩ | idle⟩
  · rw [done]
    unfold generate
    split <;> exact ⟨rfl, rfl, rfl⟩
  · rw [done]
    have kept : ∀ status, (s.reports.set reportId { row with status }).map Report.request =
        s.reports.map Report.request := map_request_set found
    unfold process
    split
    · exact ⟨kept _, rfl, rfl⟩
    · split
      · exact ⟨kept _, rfl, rfl⟩
      · exact ⟨kept _, rfl, rfl⟩
      · exact ⟨rfl, rfl, rfl⟩
      · split <;> exact ⟨kept _, rfl, rfl⟩
    · exact ⟨rfl, rfl, rfl⟩
  · rw [work_of_idle w idle]
    exact ⟨rfl, rfl, rfl⟩

theorem indexed_of_requests {s s' : Service} (indexed : Indexed s)
    (requests : s'.reports.map Report.request = s.reports.map Report.request)
    (inFlight : s'.inFlight = s.inFlight) (answers : s'.answers = s.answers) : Indexed s' := by
  have sameRow : ∀ (i : ℕ), (s'.reports[i]?).map Report.request = (s.reports[i]?).map Report.request := by
    intro i
    rw [← List.getElem?_map, ← List.getElem?_map, requests]
  refine ⟨fun a mem reportId good => ?_, fun i j row row' found found' same => ?_, fun r mem row memRow => ?_,
    by rw [inFlight]; exact indexed.single, by rw [answers]; exact indexed.consistent⟩
  · rw [answers] at mem
    obtain ⟨row, found, same⟩ := indexed.answered a mem reportId good
    have there := sameRow reportId
    rw [found, Option.map_some] at there
    obtain ⟨row', found', equal⟩ := Option.map_eq_some_iff.mp there
    exact ⟨row', found', by rw [equal]; exact same⟩
  · have here := sameRow i
    have there := sameRow j
    rw [found, Option.map_some] at here
    rw [found', Option.map_some] at there
    obtain ⟨old, located, equal⟩ := Option.map_eq_some_iff.mp here.symm
    obtain ⟨old', located', equal'⟩ := Option.map_eq_some_iff.mp there.symm
    exact indexed.unique i j old old' located located' (by rw [equal, equal']; exact same)
  · rw [inFlight] at mem
    have memRequest : row.request ∈ s'.reports.map Report.request := List.mem_map_of_mem memRow
    rw [requests] at memRequest
    obtain ⟨old, memOld, equal⟩ := List.mem_map.mp memRequest
    rw [← equal]
    exact indexed.apart r mem old memOld

theorem indexed_step {v : Verifier} {s : Service} {a : Action} (indexed : Indexed s)
    (admissible : Admissible v s a) : Indexed (step s a) := by
  cases a with
  | openRequest r => exact indexed_openRequest indexed admissible.1 admissible.2
  | commitRequest r => exact indexed_commitRequest r indexed
  | rollback r => exact indexed_erase r indexed
  | createExport caseId => exact indexed_of_requests indexed rfl rfl rfl
  | work w =>
    obtain ⟨requests, inFlight, answers⟩ := work_requests w s
    exact indexed_of_requests indexed requests inFlight answers
  | change cases evidence decisions => exact indexed_of_requests indexed rfl rfl rfl

theorem openRequest_reports (s : Service) (r : ReportCreateRequest) : (openRequest s r).reports = s.reports := by
  unfold openRequest
  split
  · rfl
  · split
    · rfl
    · split <;> rfl

theorem commitRequest_reports (s : Service) (r : ReportCreateRequest) :
    (commitRequest s r).evidence = s.evidence ∧ ((commitRequest s r).reports = s.reports ∨
      r ∈ s.inFlight ∧ (commitRequest s r).reports = s.reports ++ [⟨r, .queued⟩]) := by
  unfold commitRequest
  split
  · rename_i mem
    simp only
    split
    · exact ⟨rfl, .inl rfl⟩
    · exact ⟨rfl, .inr ⟨mem, rfl⟩⟩
  · exact ⟨rfl, .inl rfl⟩

theorem added_by_commit {s : Service} {a : Action} {reportId : ℕ} {row : Report}
    (absent : s.reports[reportId]? = none) (added : (step s a).reports[reportId]? = some row) :
    ∃ r, a = .commitRequest r ∧ r ∈ s.inFlight ∧ row = ⟨r, .queued⟩ ∧ (step s a).evidence = s.evidence := by
  have unchanged : (step s a).reports = s.reports → False := by
    intro same
    rw [same, absent] at added
    cases added
  cases a with
  | openRequest r => exact (unchanged (openRequest_reports s r)).elim
  | commitRequest r =>
    obtain ⟨evidence, same | ⟨mem, appended⟩⟩ := commitRequest_reports s r
    · exact (unchanged same).elim
    · rw [show step s (.commitRequest r) = commitRequest s r from rfl, appended,
        List.getElem?_append_right (List.getElem?_eq_none_iff.mp absent), List.getElem?_singleton] at added
      split at added
      · exact ⟨r, rfl, mem, (Option.some.inj added).symm, evidence⟩
      · cases added
  | rollback r => exact (unchanged rfl).elim
  | createExport caseId => exact (unchanged rfl).elim
  | work w =>
    have same := congrArg (fun requests => requests[reportId]?) (work_requests w s).1
    simp only [List.getElem?_map, absent, Option.map_none, Option.map_eq_none_iff] at same
    rw [show step s (.work w) = work w s from rfl, same] at added
    cases added
  | change cases evidence decisions => exact (unchanged rfl).elim

structure Opening (s : Service) : Prop where
  reports : s.reports = []
  inFlight : s.inFlight = []
  answers : s.answers = []

theorem indexed_opening {s : Service} (opening : Opening s) : Indexed s where
  answered := by
    intro a mem
    rw [opening.answers] at mem
    cases mem
  unique := by
    intro i j row row' found
    rw [opening.reports] at found
    cases found
  apart := by
    intro r mem
    rw [opening.inFlight] at mem
    cases mem
  single := by
    rw [opening.inFlight]
    exact List.Pairwise.nil
  consistent := by
    rw [opening.answers]
    exact List.Pairwise.nil

/-- In every run of admissible steps an accepted request keeps its report, and every
report that is accepted is completed by the worker alone. -/
theorem requests_idempotent_and_completed (w : Worker) {s : Service} (opening : Opening s)
    {actions : List Action} (along : Along step (Admissible w.toVerifier) s actions) :
    (run step s actions).answers.Pairwise Consistent ∧
      ∀ front a, front ++ [a] <+: actions → ∀ (reportId : ℕ) (row : Report),
        (run step s front).reports[reportId]? = none →
        (run step s (front ++ [a])).reports[reportId]? = some row →
        ∃ n, ((work w)^[n] (run step s (front ++ [a]))).reports[reportId]? = some ⟨row.request, .completed⟩ := by
  have indexed := throughout_of_along (I := Indexed) (P := Indexed)
    (fun _ _ before admissible => indexed_step before admissible) (fun _ good => good)
    (indexed_opening opening) along
  refine ⟨(throughout_last indexed).consistent, fun front a reached reportId row absent added => ?_⟩
  have admissible := along_prefix along reached
  rw [run_append] at added ⊢
  obtain ⟨r, rfl, mem, rfl, evidence⟩ := added_by_commit absent added
  have hopeful : Hopeful w.toVerifier (step (run step s front) (.commitRequest r)) reportId r :=
    ⟨by rw [evidence]; exact admissible mem, .queued, added, .inl rfl⟩
  exact hopeful_completes hopeful

/-! A case whose one required object is intact, and one with an open gap. -/

def sampleWorker : Worker := { sampleVerifier with sign := fun _ => "0", limitations := [] }

def sampleRequest (override : Option String) : ReportCreateRequest :=
  ⟨sampleCase, "key-1", "METADATA_ONLY", [], override⟩

def sampleService (evidence : Evidence) : Service where
  cases := [sampleCase]
  evidence
  decisions := [⟨"decision-1", sampleCase, "ALLOW"⟩]
  exports := []
  reports := []
  inFlight := []
  answers := []

def verifiedLog : EvidenceRow := sampleRow "01HX3QK7Z000000000000000E1" "LOG" verified

def eligibleEvidence : Evidence := sampleEvidence ⟨[verifiedLog], List.nodup_singleton _⟩

def gapEvidence : Evidence :=
  { eligibleEvidence with gaps := [⟨"gap-1", sampleCase, true, "sensor offline", none⟩] }

def repeated (override : Option String) : List Action :=
  [.openRequest (sampleRequest override), .commitRequest (sampleRequest override),
    .openRequest (sampleRequest override)]

theorem sample_deliverable (override : Option String) :
    Deliverable sampleVerifier eligibleEvidence (sampleRequest override) where
  intact := by
    intro row mem
    have same : row = verifiedLog := List.mem_singleton.mp (mem_manifestEvidence.mp mem).1.1
    rw [same]
    decide
  components := by
    intro row mem _ kind
    have same : row = verifiedLog := List.mem_singleton.mp (List.mem_filter.mp mem).1
    rw [same] at kind
    exact absurd kind (by decide)
  gaps := rfl
  mode := List.mem_cons_self
  selected := by
    intro mode
    exact absurd mode (show "METADATA_ONLY" ≠ "SELECTED_EVIDENCE" by decide)

theorem repeated_admissible :
    Along step (Admissible sampleVerifier) (sampleService eligibleEvidence) (repeated none) := by
  have passes : Passes (run step (sampleService eligibleEvidence) ((repeated none).take 2)) (sampleRequest none) := by
    refine ⟨by decide, by decide, .inl (by decide), fun _ given => (by cases given), fun _ mem => (by cases mem)⟩
  refine ⟨⟨fun taken => ?_, fun _ mem => (by cases mem)⟩, fun _ => sample_deliverable none,
    ⟨fun _ => passes, fun _ mem => (by cases mem)⟩, trivial⟩
  obtain ⟨row, mem, -⟩ := taken
  cases mem

theorem sample_completed : ∃ n,
    ((work sampleWorker)^[n] (run step (sampleService eligibleEvidence) ((repeated none).take 2))).reports[0]? =
      some ⟨sampleRequest none, .completed⟩ := by
  have holds := requests_idempotent_and_completed sampleWorker (s := sampleService eligibleEvidence)
    ⟨rfl, rfl, rfl⟩ repeated_admissible
  have reached : [.openRequest (sampleRequest none)] ++ [.commitRequest (sampleRequest none)] <+: repeated none :=
    ⟨_, rfl⟩
  exact holds.2 _ _ reached 0 ⟨sampleRequest none, .queued⟩ rfl rfl

/-- A report that an override got accepted ends FAILED, and a request that is repeated
once a gap is open is refused. -/
theorem override_fails_and_retry_refused :
    (((work sampleWorker)^[3] (run step (sampleService gapEvidence) (repeated (some "decision-1")))).reports.map
        Report.status = [.failed]) ∧
      ¬ (run step (sampleService eligibleEvidence) ((repeated none).take 2 ++
        [.change [sampleCase] gapEvidence [], .openRequest (sampleRequest none)])).answers.Pairwise Consistent := by
  refine ⟨rfl, fun consistent => ?_⟩
  have first := (List.pairwise_cons.mp consistent).1 _ (List.mem_singleton_self _)
  have refused := first rfl 0 rfl
  cases refused

end Mirage.ReportCompletion
