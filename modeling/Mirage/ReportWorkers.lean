import Mirage.EventRun
import Mathlib.Data.List.Basic

/-! The statuses of reports under any number of workers. -/

namespace Mirage.ReportWorkers
open EventRun

inductive Status where
  | queued | waitingForExport | generating | verifying | completed | cancelRequested | cancelled | failed
  deriving DecidableEq

inductive VerificationStatus where
  | pending | verified | failed
  deriving DecidableEq

inductive Phase where
  | idle | generating | raised
  deriving DecidableEq

/-- A row of `case_reports`, with its worker and whether a cancellation was accepted. -/
structure Report where
  status : Status
  exportId : Option ℕ
  verificationStatus : VerificationStatus
  packageEvidenceId : Option ℕ
  packageSha256 : Option String
  phase : Phase
  cancellationAccepted : Bool
  deriving DecidableEq

structure StoredPackage where
  sha256 : String
  verificationStatus : String
  deriving DecidableEq

structure State where
  reports : List Report
  evidence : List StoredPackage

inductive LinkedExport where
  | missing | pending | verified | failed
  deriving DecidableEq

def Status.isFinal : Status → Bool
  | .completed | .cancelled | .failed => true
  | _ => false

def cancelCaseReport (row : Report) : Report :=
  match row.status with
  | .completed | .failed | .cancelled => row
  | .queued | .waitingForExport => { row with status := .cancelled, cancellationAccepted := true }
  | _ => { row with status := .cancelRequested, cancellationAccepted := true }

def setCancelled (row : Report) : Report := { row with status := .cancelled, verificationStatus := .failed }

def setFailed (row : Report) : Report := { row with status := .failed, verificationStatus := .failed }

/-- `process_next_report` up to its first commit, for a row that it selected under `status IN
('QUEUED','WAITING_FOR_EXPORT','CANCEL_REQUESTED')`. -/
def processNextReport (timedOut : Bool) (linked : LinkedExport) (queuedExport : ℕ) (row : Report) : Report :=
  match row.status with
  | .cancelRequested => setCancelled row
  | .queued | .waitingForExport =>
    if timedOut then setFailed row
    else match row.exportId with
      | none => { row with exportId := some queuedExport, status := .waitingForExport }
      | some _ =>
        match linked with
        | .missing | .failed => setFailed row
        | .pending => row
        | .verified => { row with status := .generating, phase := .generating }
  | _ => row

def raise (row : Report) : Report := if row.phase = .generating then { row with phase := .raised } else row

def failRaised (row : Report) : Report :=
  if row.phase = .raised then { setFailed row with phase := .idle } else row

def crash (row : Report) : Report := { row with phase := .idle }

def State.change (s : State) (reportId : ℕ) (f : Report → Report) : State :=
  { s with reports := s.reports.modify reportId f }

def completeRow (evidenceId : ℕ) (sha256 : String) (row : Report) : Report :=
  { row with
    status := .completed, verificationStatus := .verified
    packageEvidenceId := some evidenceId, packageSha256 := some sha256, phase := .idle }

def finish (s : State) (reportId : ℕ) (row : Report) (sha256 verificationStatus : String) : State :=
  if row.phase ≠ .generating then s
  else if row.status = .cancelRequested then
    s.change reportId fun row => { setCancelled row with phase := .idle }
  else if verificationStatus = "VERIFIED" then
    State.change { s with evidence := s.evidence ++ [⟨sha256, verificationStatus⟩] } reportId
      (completeRow s.evidence.length sha256)
  else s.change reportId raise

inductive Action where
  | createCaseReport
  | cancelCaseReport (reportId : ℕ)
  | processNextReport (reportId : ℕ) (timedOut : Bool) (linked : LinkedExport) (queuedExport : ℕ)
  | finish (reportId : ℕ) (sha256 verificationStatus : String)
  | raise (reportId : ℕ)
  | failRaised (reportId : ℕ)
  | crash (reportId : ℕ)

def newReport : Report := ⟨.queued, none, .pending, none, none, .idle, false⟩

def step (s : State) : Action → State
  | .createCaseReport => { s with reports := s.reports ++ [newReport] }
  | .cancelCaseReport reportId => s.change reportId cancelCaseReport
  | .processNextReport reportId timedOut linked queuedExport =>
    s.change reportId (processNextReport timedOut linked queuedExport)
  | .finish reportId sha256 verificationStatus =>
    (s.reports[reportId]?).elim s fun row => finish s reportId row sha256 verificationStatus
  | .raise reportId => s.change reportId raise
  | .failRaised reportId => s.change reportId failRaised
  | .crash reportId => s.change reportId crash

def Admissible (s : State) : Action → Prop
  | .processNextReport reportId _ _ _ => ∀ row, s.reports[reportId]? = some row →
      row.status = .cancelRequested → row.phase = .idle
  | _ => True

def Stored (evidence : List StoredPackage) (row : Report) : Prop :=
  ∃ evidenceId sha256, row.packageEvidenceId = some evidenceId ∧ row.packageSha256 = some sha256 ∧
    evidence[evidenceId]? = some ⟨sha256, "VERIFIED"⟩

structure Sound (evidence : List StoredPackage) (row : Report) : Prop where
  held : row.phase ≠ .idle → row.status = .generating ∨ row.status = .cancelRequested
  cancellation : row.cancellationAccepted = true →
    row.status = .cancelled ∨ row.status = .cancelRequested ∨ row.status = .failed
  stored : row.status = .completed → Stored evidence row

def Safe (s : State) : Prop := ∀ row ∈ s.reports, Sound s.evidence row

theorem stored_append {evidence : List StoredPackage} {row : Report} (more : List StoredPackage)
    (stored : Stored evidence row) : Stored (evidence ++ more) row := by
  obtain ⟨evidenceId, sha256, recorded, digest, found⟩ := stored
  refine ⟨evidenceId, sha256, recorded, digest, ?_⟩
  rw [List.getElem?_append_left (List.getElem?_eq_some_iff.mp found).1]
  exact found

theorem sound_append {evidence : List StoredPackage} {row : Report} (more : List StoredPackage)
    (sound : Sound evidence row) : Sound (evidence ++ more) row :=
  ⟨sound.held, sound.cancellation, fun done => stored_append more (sound.stored done)⟩

theorem getElem?_change {s : State} {reportId i : ℕ} {f : Report → Report} :
    (s.change reportId f).reports[i]? = (s.reports[i]?).map fun row => if reportId = i then f row else row := by
  rw [State.change, List.getElem?_modify]
  split <;> simp

theorem safe_change {s : State} {reportId : ℕ} {f : Report → Report} (safe : Safe s)
    (kept : ∀ row, s.reports[reportId]? = some row → Sound s.evidence row → Sound s.evidence (f row)) :
    Safe (s.change reportId f) := by
  intro row mem
  obtain ⟨i, found⟩ := List.mem_iff_getElem?.mp mem
  rw [getElem?_change] at found
  obtain ⟨old, located, rfl⟩ := Option.map_eq_some_iff.mp found
  have before := safe old (List.mem_of_getElem? located)
  by_cases same : reportId = i
  · subst same
    rw [if_pos rfl]
    exact kept old located before
  · rw [if_neg same]
    exact before

theorem idle_of_early {evidence : List StoredPackage} {row : Report} (sound : Sound evidence row)
    (early : row.status = .queued ∨ row.status = .waitingForExport) : row.phase = .idle := by
  by_contra held
  rcases sound.held held with status | status <;> rw [status] at early <;> rcases early with e | e <;> cases e

theorem sound_cancelCaseReport {evidence : List StoredPackage} {row : Report} (sound : Sound evidence row) :
    Sound evidence (cancelCaseReport row) := by
  have waiting := idle_of_early sound
  unfold cancelCaseReport
  split
  · exact sound
  · exact sound
  · exact sound
  · rename_i status
    exact ⟨fun held => absurd (waiting (.inl status)) held, fun _ => .inl rfl, fun done => by cases done⟩
  · rename_i status
    exact ⟨fun held => absurd (waiting (.inr status)) held, fun _ => .inl rfl, fun done => by cases done⟩
  · exact ⟨fun _ => .inr rfl, fun _ => .inr (.inl rfl), fun done => by cases done⟩

theorem sound_ended {evidence : List StoredPackage} {row : Report} {status : Status}
    {verificationStatus : VerificationStatus} (idle : row.phase = .idle)
    (ended : status = .cancelled ∨ status = .failed) : Sound evidence { row with status, verificationStatus } := by
  refine ⟨fun held => absurd idle held, fun _ => ?_, fun done => ?_⟩
  · rcases ended with rfl | rfl
    · exact .inl rfl
    · exact .inr (.inr rfl)
  · rcases ended with rfl | rfl <;> cases done

theorem sound_waiting {evidence : List StoredPackage} {row : Report} {timedOut : Bool} {linked : LinkedExport}
    {queuedExport : ℕ} (sound : Sound evidence row) (idle : row.phase = .idle)
    (accepted : row.cancellationAccepted = false) :
    Sound evidence
      (if timedOut then setFailed row
        else match row.exportId with
          | none => { row with exportId := some queuedExport, status := .waitingForExport }
          | some _ =>
            match linked with
            | .missing | .failed => setFailed row
            | .pending => row
            | .verified => { row with status := .generating, phase := .generating }) := by
  have uncancelled : ∀ {goal : Prop}, row.cancellationAccepted = true → goal := by
    intro goal cancelled
    rw [accepted] at cancelled
    cases cancelled
  split
  · exact sound_ended idle (.inr rfl)
  · split
    · exact ⟨fun held => absurd idle held, uncancelled, fun done => by cases done⟩
    · cases linked with
      | missing => exact sound_ended idle (.inr rfl)
      | failed => exact sound_ended idle (.inr rfl)
      | pending => exact sound
      | verified => exact ⟨fun _ => .inl rfl, uncancelled, fun done => by cases done⟩

theorem sound_processNextReport {evidence : List StoredPackage} {row : Report} {timedOut : Bool}
    {linked : LinkedExport} {queuedExport : ℕ} (sound : Sound evidence row)
    (alone : row.status = .cancelRequested → row.phase = .idle) :
    Sound evidence (processNextReport timedOut linked queuedExport row) := by
  have accepted : row.status = .queued ∨ row.status = .waitingForExport → row.cancellationAccepted = false := by
    intro early
    rw [← Bool.not_eq_true]
    intro accepted
    rcases sound.cancellation accepted with status | status | status <;> rw [status] at early <;>
      rcases early with e | e <;> cases e
  unfold processNextReport
  split
  · rename_i status
    exact sound_ended (alone status) (.inl rfl)
  · rename_i status
    exact sound_waiting sound (idle_of_early sound (.inl status)) (accepted (.inl status))
  · rename_i status
    exact sound_waiting sound (idle_of_early sound (.inr status)) (accepted (.inr status))
  · exact sound

theorem sound_released {evidence : List StoredPackage} (row : Report) {status : Status}
    {verificationStatus : VerificationStatus} (ended : status = .cancelled ∨ status = .failed) :
    Sound evidence { row with status, verificationStatus, phase := .idle } := by
  have idle : ({ row with phase := .idle } : Report).phase = .idle := rfl
  exact sound_ended idle ended

theorem sound_raise {evidence : List StoredPackage} {row : Report} (sound : Sound evidence row) :
    Sound evidence (raise row) := by
  unfold raise
  split
  · rename_i generating
    have held : row.phase ≠ .idle := by
      rw [generating]
      decide
    exact ⟨fun _ => sound.held held, sound.cancellation, sound.stored⟩
  · exact sound

theorem sound_failRaised {evidence : List StoredPackage} {row : Report} (sound : Sound evidence row) :
    Sound evidence (failRaised row) := by
  unfold failRaised
  split
  · exact sound_released row (.inr rfl)
  · exact sound

theorem safe_finish {s : State} {reportId : ℕ} {row : Report} (sha256 verificationStatus : String)
    (safe : Safe s) (found : s.reports[reportId]? = some row) :
    Safe (finish s reportId row sha256 verificationStatus) := by
  unfold finish
  split
  · exact safe
  · rename_i held
    have generating : row.phase = .generating := not_not.mp held
    split
    · exact safe_change safe fun old _ _ => sound_released old (.inl rfl)
    · rename_i running
      split
      · rename_i verified
        have grown : Safe { s with evidence := s.evidence ++ [⟨sha256, verificationStatus⟩] } :=
          fun other mem => sound_append _ (safe other mem)
        refine safe_change grown fun old located before => ?_
        have one : old = row := Option.some.inj (located.symm.trans found)
        rw [one] at before ⊢
        have status : row.status = .generating := by
          rcases before.held (by rw [generating]; decide) with status | status
          · exact status
          · exact absurd status running
        refine ⟨fun idle => absurd rfl idle, fun accepted => ?_, fun _ => ?_⟩
        · rcases before.cancellation accepted with other | other | other <;> rw [status] at other <;> cases other
        · refine ⟨s.evidence.length, sha256, rfl, rfl, ?_⟩
          rw [← verified]
          exact List.getElem?_concat_length
      · exact safe_change safe fun _ _ before => sound_raise before

theorem safe_step {s : State} {a : Action} (safe : Safe s) (admissible : Admissible s a) : Safe (step s a) := by
  cases a with
  | createCaseReport =>
    intro row mem
    rcases List.mem_append.mp mem with old | new
    · exact safe row old
    · rw [List.mem_singleton.mp new]
      exact ⟨fun held => absurd rfl held, fun accepted => (by cases accepted), fun done => (by cases done)⟩
  | cancelCaseReport reportId => exact safe_change safe fun _ _ before => sound_cancelCaseReport before
  | processNextReport reportId timedOut linked queuedExport =>
    exact safe_change safe fun row found before => sound_processNextReport before (admissible row found)
  | finish reportId sha256 verificationStatus =>
    simp only [step]
    cases found : s.reports[reportId]? with
    | none => exact safe
    | some row => exact safe_finish sha256 verificationStatus safe found
  | raise reportId => exact safe_change safe fun _ _ before => sound_raise before
  | failRaised reportId => exact safe_change safe fun _ _ before => sound_failRaised before
  | crash reportId =>
    exact safe_change safe fun _ _ before => ⟨fun held => absurd rfl held, before.cancellation, before.stored⟩

def Absorbed (s s' : State) : Prop :=
  ∀ (reportId : ℕ) (row : Report), s.reports[reportId]? = some row → row.status.isFinal = true →
    ∃ row', s'.reports[reportId]? = some row' ∧ row'.status = row.status

theorem absorbed_change {s : State} {reportId : ℕ} {f : Report → Report}
    (kept : ∀ row, s.reports[reportId]? = some row → row.status.isFinal = true → (f row).status = row.status) :
    Absorbed s (s.change reportId f) := by
  intro i row found final
  refine ⟨_, by rw [getElem?_change, found, Option.map_some], ?_⟩
  by_cases same : reportId = i
  · subst same
    rw [if_pos rfl]
    exact kept row found final
  · rw [if_neg same]

theorem idle_of_final {evidence : List StoredPackage} {row : Report} (sound : Sound evidence row)
    (final : row.status.isFinal = true) : row.phase = .idle := by
  by_contra held
  rcases sound.held held with status | status <;> rw [status] at final <;> cases final

theorem absorbed_step {s : State} {a : Action} (safe : Safe s) : Absorbed s (step s a) := by
  have idle : ∀ (reportId : ℕ) (row : Report), s.reports[reportId]? = some row → row.status.isFinal = true →
      row.phase = .idle :=
    fun _ row found final => idle_of_final (safe row (List.mem_of_getElem? found)) final
  cases a with
  | createCaseReport =>
    intro i row found _
    refine ⟨row, ?_, rfl⟩
    rw [show (step s .createCaseReport).reports = s.reports ++ [newReport] from rfl,
      List.getElem?_append_left (List.getElem?_eq_some_iff.mp found).1]
    exact found
  | cancelCaseReport reportId =>
    refine absorbed_change fun row _ final => ?_
    unfold cancelCaseReport
    cases status : row.status <;> rw [status] at final <;> first | exact status | cases final
  | processNextReport reportId timedOut linked queuedExport =>
    refine absorbed_change fun row _ final => ?_
    unfold processNextReport
    cases status : row.status <;> rw [status] at final <;> first | exact status | cases final
  | finish reportId sha256 verificationStatus =>
    simp only [step]
    cases found : s.reports[reportId]? with
    | none => exact fun i row located _ => ⟨row, located, rfl⟩
    | some row =>
      by_cases final : row.status.isFinal = true
      · have unheld : row.phase ≠ .generating := by
          rw [idle reportId row found final]
          decide
        rw [Option.elim_some, finish, if_pos unheld]
        exact fun i row located _ => ⟨row, located, rfl⟩
      · have other : ∀ f : Report → Report, Absorbed s (s.change reportId f) := by
          intro f
          refine absorbed_change fun old located ended => ?_
          have one : old = row := Option.some.inj (located.symm.trans found)
          rw [one] at ended
          exact absurd ended final
        rw [Option.elim_some]
        unfold finish
        split
        · exact fun i row located _ => ⟨row, located, rfl⟩
        · split
          · exact other _
          · split <;> exact other _
  | raise reportId =>
    refine absorbed_change fun row found final => ?_
    unfold raise
    split <;> rfl
  | failRaised reportId =>
    refine absorbed_change fun row found final => ?_
    unfold failRaised
    rw [idle reportId row found final, if_neg (by decide)]
  | crash reportId => exact absorbed_change fun _ _ _ => rfl

/-- In every run in which no worker takes up a cancellation that another one holds, the
final statuses absorb, an accepted cancellation is never followed by COMPLETED, and a
completed report has its verified package in the ledger. -/
theorem report_statuses_safe {s : State} (opening : s.reports = []) {actions : List Action}
    (along : Along step Admissible s actions) :
    (∀ front a, front ++ [a] <+: actions → Absorbed (run step s front) (run step s (front ++ [a]))) ∧
      ∀ row ∈ (run step s actions).reports,
        (row.cancellationAccepted = true → row.status ≠ .completed) ∧
          (row.status = .completed → Stored (run step s actions).evidence row) := by
  have initial : Safe s := by
    intro row mem
    rw [opening] at mem
    cases mem
  have throughout := throughout_of_along (I := Safe) (P := Safe)
    (fun _ _ before admissible => safe_step before admissible) (fun _ good => good) initial along
  constructor
  · intro front a reached
    have here := (throughout_iff_front _ _ _ _).mp throughout front ((List.prefix_append front [a]).trans reached)
    rw [run_append]
    exact absorbed_step here
  · intro row mem
    have sound := throughout_last throughout row mem
    refine ⟨fun accepted done => ?_, sound.stored⟩
    rcases sound.cancellation accepted with status | status | status <;> rw [status] at done <;> cases done

/-! A report that is cancelled while it is generated. -/

def emptyState : State := ⟨[], []⟩

def generating : List Action :=
  [.createCaseReport, .processNextReport 0 false .missing 0, .processNextReport 0 false .verified 0,
    .cancelCaseReport 0]

theorem cancelled_by_its_worker :
    (∀ front a, front ++ [a] <+: generating ++ [.finish 0 "0" "VERIFIED"] →
        Absorbed (run step emptyState front) (run step emptyState (front ++ [a]))) ∧
      ∀ row ∈ (run step emptyState (generating ++ [.finish 0 "0" "VERIFIED"])).reports,
        (row.cancellationAccepted = true → row.status ≠ .completed) ∧
          (row.status = .completed →
            Stored (run step emptyState (generating ++ [.finish 0 "0" "VERIFIED"])).evidence row) := by
  have along : Along step Admissible emptyState (generating ++ [.finish 0 "0" "VERIFIED"]) := by
    refine ⟨trivial, fun row found status => ?_, fun row found status => ?_, trivial, trivial, trivial⟩
    · cases found
      cases status
    · cases found
      cases status
  exact report_statuses_safe rfl along

/-- A second worker cancels the report, and the first one completes it. -/
theorem cancelled_then_completed :
    (run step emptyState (generating ++ [.processNextReport 0 false .verified 0])).reports.map Report.status =
        [.cancelled] ∧
      (run step emptyState (generating ++
          [.processNextReport 0 false .verified 0, .finish 0 "0" "VERIFIED"])).reports.map
        (fun row => (row.status, row.cancellationAccepted)) = [(.completed, true)] := by
  decide

end Mirage.ReportWorkers
