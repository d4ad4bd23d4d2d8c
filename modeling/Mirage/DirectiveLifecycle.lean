import Mirage.AnalystDirectives
import Mathlib.Data.List.Chain

/-! How long the final status of a directive stands, when a directive is applied, and how the
phases of a case follow each other. -/

namespace Mirage.DirectiveLifecycle
open EventRun PythonText AnalystDirectives

/-! What a step does to one row. -/

def written (a : Action) (directiveId : ℕ) (row : Directive) : Directive :=
  match a with
  | .acknowledgeDirective now target committed =>
    if target = directiveId then acknowledgeDirective committed now row else row
  | .cancelDirective caseId target => if target = directiveId then cancelDirective caseId row else row
  | .linkDirectiveResult now target proposalId actionId applied rejectionReason =>
    if target = directiveId then linkDirectiveResult now proposalId actionId applied rejectionReason row else row
  | .applyDirectiveStrategy now target fromPhase toPhase proposalId actionId =>
    if target = directiveId ∧ appliesStrategy fromPhase toPhase row then
      linkDirectiveResult now proposalId actionId true none row
    else row
  | _ => row

theorem modify_row (s : State) (target directiveId : ℕ) (f : Directive → Directive) {row : Directive}
    (found : s.directives[directiveId]? = some row) :
    (modify s target f).directives[directiveId]? = some (if target = directiveId then f row else row) := by
  show (s.directives.modify target f)[directiveId]? = _
  rw [List.getElem?_modify, found]
  rfl

theorem step_row (prohibited : Text → Bool) {s : State} (a : Action) {directiveId : ℕ} {row : Directive}
    (found : s.directives[directiveId]? = some row) :
    (step prohibited s a).directives[directiveId]? = some (written a directiveId row) := by
  cases a with
  | openCase caseId => exact found
  | submitDirective now r =>
    have here : directiveId < s.directives.length := (List.getElem?_eq_some_iff.mp found).1
    simp only [step, submitDirective, written]
    split
    · exact found
    split
    · exact found
    split
    · exact found
    split
    · rw [List.getElem?_append_left here, found]
    · exact found
  | acknowledgeDirective now target committed => exact modify_row s target directiveId _ found
  | cancelDirective caseId target => exact modify_row s target directiveId _ found
  | linkDirectiveResult now target proposalId actionId applied rejectionReason =>
    exact modify_row s target directiveId _ found
  | applyDirectiveStrategy now target fromPhase toPhase proposalId actionId =>
    simp only [step, applyDirectiveStrategy, written]
    by_cases same : target = directiveId
    · subst same
      rw [found]
      by_cases applies : appliesStrategy fromPhase toPhase row
      · simp only [applies, if_true, and_self]
        rw [modify_row s target target _ found, if_pos rfl]
      · simp only [applies]
        exact found
    · rw [if_neg (fun both => same both.1)]
      split
      · exact found
      split
      · exact (modify_row s target directiveId _ found).trans (by rw [if_neg same])
      · exact found

theorem written_expiresAt (a : Action) (directiveId : ℕ) (row : Directive) :
    (written a directiveId row).expiresAt = row.expiresAt := by
  unfold written
  split <;> (try split) <;> try rfl
  · unfold acknowledgeDirective
    split
    · rfl
    split <;> rfl
  · unfold cancelDirective
    split <;> rfl

/-! When a step keeps the lifecycle. -/

def currentPhase (s : State) (caseId : String) : Option String :=
  (s.history.filter (·.caseId = caseId)).getLast?.map (·.toPhase)

/-- A result is linked to a directive that is open, or rejects what is rejected, and what it applies
has not expired. -/
@[reducible] def Admits (s : State) : Action → Prop
  | .linkDirectiveResult now directiveId _ _ applied _ =>
    ∀ row ∈ s.directives[directiveId]?,
      (isOpen row.status ∨ row.status = .rejected ∧ applied = false) ∧ (applied → ∀ e ∈ row.expiresAt, now ≤ e)
  | .applyDirectiveStrategy now directiveId fromPhase toPhase _ _ =>
    ∀ row ∈ s.directives[directiveId]?, appliesStrategy fromPhase toPhase row →
      (∀ e ∈ row.expiresAt, now ≤ e) ∧ ∀ p ∈ currentPhase s row.caseId, p = fromPhase
  | _ => True

instance (s : State) : (a : Action) → Decidable (Admits s a)
  | .openCase _ | .submitDirective _ _ | .acknowledgeDirective _ _ _ | .cancelDirective _ _
  | .linkDirectiveResult _ _ _ _ _ _ | .applyDirectiveStrategy _ _ _ _ _ _ => inferInstance

theorem open_of_appliesStrategy {fromPhase toPhase : String} {row : Directive}
    (applies : appliesStrategy fromPhase toPhase row) : isOpen row.status := by
  simp only [appliesStrategy, Bool.and_eq_true, Bool.or_eq_true, decide_eq_true_eq] at applies
  obtain ⟨-, acknowledged | queued⟩ := applies
  · rw [acknowledged]; rfl
  · rw [queued]; rfl

theorem written_status {s : State} {a : Action} (admits : Admits s a) {directiveId : ℕ} {row : Directive}
    (found : s.directives[directiveId]? = some row) (final : isOpen row.status = false) :
    (written a directiveId row).status = row.status := by
  have notSubmitted : row.status ≠ .submitted := fun submitted => by simp [submitted, isOpen] at final
  cases a with
  | openCase caseId => rfl
  | submitDirective now r => rfl
  | acknowledgeDirective now target committed =>
    simp only [written]
    split
    · simp [acknowledgeDirective, notSubmitted, final]
    · rfl
  | cancelDirective caseId target =>
    simp only [written]
    split
    · simp [cancelDirective, final]
    · rfl
  | linkDirectiveResult now target proposalId actionId applied rejectionReason =>
    simp only [written]
    split
    · rename_i same
      subst same
      obtain ⟨opened | ⟨rejected, notApplied⟩, -⟩ := admits row found
      · rw [final] at opened
        cases opened
      · simp [linkDirectiveResult, notApplied, rejected]
    · rfl
  | applyDirectiveStrategy now target fromPhase toPhase proposalId actionId =>
    simp only [written]
    rw [if_neg]
    rintro ⟨-, applies⟩
    rw [open_of_appliesStrategy applies] at final
    cases final

theorem application_open {s : State} {a : Action} (admits : Admits s a) {directiveId now : ℕ}
    (applied : application s a = some (directiveId, now)) :
    ∃ row, s.directives[directiveId]? = some row ∧ isOpen row.status ∧ (∀ e ∈ row.expiresAt, now ≤ e) ∧
      (written a directiveId row).status = .applied := by
  cases a with
  | openCase caseId => cases applied
  | submitDirective now r => cases applied
  | acknowledgeDirective now target committed => cases applied
  | cancelDirective caseId target => cases applied
  | linkDirectiveResult now target proposalId actionId appliedFlag rejectionReason =>
    cases appliedFlag with
    | false => cases applied
    | true =>
      simp only [application, Option.map_eq_some_iff, Prod.mk.injEq] at applied
      obtain ⟨row, found, rfl, rfl⟩ := applied
      obtain ⟨opened | ⟨-, impossible⟩, inTime⟩ := admits row found
      · exact ⟨row, found, opened, inTime rfl, by simp [written, linkDirectiveResult]⟩
      · cases impossible
  | applyDirectiveStrategy now target fromPhase toPhase proposalId actionId =>
    simp only [application, Option.bind_eq_some_iff] at applied
    obtain ⟨row, found, applied⟩ := applied
    split at applied
    · rename_i applies
      simp only [Option.some.injEq, Prod.mk.injEq] at applied
      obtain ⟨rfl, rfl⟩ := applied
      exact ⟨row, found, open_of_appliesStrategy applies, (admits row found applies).1,
        by simp [written, applies, linkDirectiveResult]⟩
    · cases applied

def PhaseChain (s : State) : Prop :=
  ∀ caseId, (s.history.filter (·.caseId = caseId)).IsChain (fun first second => second.fromPhase = first.toPhase) ∧
    ∀ change ∈ s.history, nextPhase change.fromPhase = some change.toPhase

theorem step_history (prohibited : Text → Bool) (s : State) (a : Action) :
    (step prohibited s a).history = s.history ∨ ∃ now directiveId fromPhase toPhase proposalId actionId row,
      a = .applyDirectiveStrategy now directiveId fromPhase toPhase proposalId actionId ∧
      s.directives[directiveId]? = some row ∧ appliesStrategy fromPhase toPhase row ∧
      (step prohibited s a).history =
        s.history ++ [⟨row.caseId, fromPhase, toPhase, directiveId, row.createdBy⟩] := by
  cases a with
  | openCase caseId => exact .inl rfl
  | submitDirective now r =>
    left
    simp only [step, submitDirective]
    repeat' split
    all_goals rfl
  | acknowledgeDirective now target committed => exact .inl rfl
  | cancelDirective caseId target => exact .inl rfl
  | linkDirectiveResult now target proposalId actionId applied rejectionReason => exact .inl rfl
  | applyDirectiveStrategy now target fromPhase toPhase proposalId actionId =>
    cases found : s.directives[target]? with
    | none => simp [step, applyDirectiveStrategy, found]
    | some row =>
      by_cases applies : appliesStrategy fromPhase toPhase row
      · right
        exact ⟨now, target, fromPhase, toPhase, proposalId, actionId, row, rfl, found, applies,
          by simp [step, applyDirectiveStrategy, found, applies]⟩
      · simp [step, applyDirectiveStrategy, found, applies]

theorem phaseChain_step {prohibited : Text → Bool} {s : State} {a : Action} (chained : PhaseChain s)
    (admits : Admits s a) : PhaseChain (step prohibited s a) := by
  obtain kept | ⟨now, directiveId, fromPhase, toPhase, proposalId, actionId, row, rfl, found, applies, grown⟩ :=
    step_history prohibited s a
  · intro caseId
    rw [kept]
    exact chained caseId
  · intro caseId
    rw [grown]
    obtain ⟨chain, forward⟩ := chained caseId
    have fromCurrent := (admits row found applies).2
    refine ⟨?_, ?_⟩
    · rw [List.filter_append]
      by_cases own : row.caseId = caseId
      · subst own
        simp only [List.filter_cons, decide_true, if_true, List.filter_nil]
        rw [List.isChain_append]
        refine ⟨chain, List.isChain_singleton _, fun last isLast first isFirst => ?_⟩
        cases isFirst
        exact (fromCurrent last.toPhase (Option.mem_map_of_mem _ isLast)).symm
      · simpa [own] using chain
    · intro change mem
      rcases List.mem_append.mp mem with before | added
      · exact forward change before
      · cases List.mem_singleton.mp added
        simp only [appliesStrategy, Bool.and_eq_true, decide_eq_true_eq] at applies
        exact applies.1

/-! What holds along a run of admitted steps. -/

structure AppliedInTime (t : Trace) : Prop where
  once : t.applied.Pairwise (·.1 ≠ ·.1)
  inTime : ∀ directiveId now, (directiveId, now) ∈ t.applied →
    ∃ row, t.state.directives[directiveId]? = some row ∧ row.status = .applied ∧ ∀ e ∈ row.expiresAt, now ≤ e

theorem appliedInTime_step {prohibited : Text → Bool} {t : Trace} {a : Action} (good : AppliedInTime t)
    (admits : Admits t.state a) : AppliedInTime (traceStep prohibited t a) := by
  refine ⟨?_, fun directiveId now mem => ?_⟩
  · refine List.pairwise_append.mpr ⟨good.once, by cases application t.state a <;> simp, ?_⟩
    rintro ⟨first, before⟩ mem ⟨second, now⟩ added
    obtain ⟨row, found, opened, -, -⟩ := application_open admits (Option.mem_toList.mp added)
    obtain ⟨row', found', applied, -⟩ := good.inTime first before mem
    rintro rfl
    cases found.symm.trans found'
    rw [applied] at opened
    cases opened
  · rcases List.mem_append.mp mem with before | added
    · obtain ⟨row, found, applied, inTime⟩ := good.inTime directiveId now before
      refine ⟨_, step_row prohibited a found, ?_, ?_⟩
      · rw [written_status admits found (by rw [applied]; rfl), applied]
      · rw [written_expiresAt]
        exact inTime
    · obtain ⟨row, found, -, inTime, applied⟩ := application_open admits (Option.mem_toList.mp added)
      refine ⟨_, step_row prohibited a found, applied, ?_⟩
      rw [written_expiresAt]
      exact inTime

theorem final_status_of_along {prohibited : Text → Bool} {s : State} {actions : List Action}
    (along : Along (step prohibited) Admits s actions) {directiveId : ℕ} {row : Directive}
    (found : s.directives[directiveId]? = some row) (final : isOpen row.status = false) :
    ∃ row', (run (step prohibited) s actions).directives[directiveId]? = some row' ∧ row'.status = row.status := by
  induction actions generalizing s row with
  | nil => exact ⟨row, found, rfl⟩
  | cons a actions ih =>
    have kept := written_status along.1 found final
    obtain ⟨row', later, same⟩ := ih along.2 (step_row prohibited a found) (by rw [kept]; exact final)
    exact ⟨row', later, same.trans kept⟩

theorem traceStep_state (prohibited : Text → Bool) (t : Trace) (a : Action) :
    (traceStep prohibited t a).state = step prohibited t.state a := rfl

/-- Along a run of admitted steps a final status stands, a directive is applied at most once and
not after it expires, and the phases of every case follow each other. -/
theorem lifecycle_of_admitted {prohibited : Text → Bool} {s : State} (opening : s.history = [])
    {actions : List Action} (admitted : Along (step prohibited) Admits s actions) :
    (∀ front back, front ++ back <+: actions → ∀ (directiveId : ℕ) (row : Directive),
      (run (step prohibited) s front).directives[directiveId]? = some row → isOpen row.status = false →
      ∃ row' : Directive, (run (step prohibited) s (front ++ back)).directives[directiveId]? = some row' ∧
        row'.status = row.status) ∧
    Throughout (traceStep prohibited) (fun t => AppliedInTime t ∧ PhaseChain t.state) ⟨s, []⟩ actions := by
  refine ⟨fun front back reached directiveId row found final => ?_, ?_⟩
  · obtain ⟨rest, rfl⟩ := reached
    have between := (along_append_iff.mp (along_append_iff.mp admitted).1).2
    rw [run_append]
    exact final_status_of_along between found final
  · refine throughout_of_along (I := fun t => AppliedInTime t ∧ PhaseChain t.state)
      (fun t a good admits => ⟨appliedInTime_step good.1 admits, phaseChain_step good.2 admits⟩)
      (fun _ good => good) ⟨⟨List.Pairwise.nil, fun _ _ mem => (by cases mem)⟩, ?_⟩
      (along_map Trace.state (traceStep_state prohibited) admitted)
    intro caseId
    simp only [opening]
    exact ⟨List.IsChain.nil, fun _ mem => (by cases mem)⟩

/-! Two directives of one case. -/

def objective : Text := text "o"

def submission (idempotencyKey : String) (expiresAt : Option ℕ) : Submission :=
  ⟨"CASE", none, objective, "NORMAL", "analyst", expiresAt, idempotencyKey, true⟩

def openCase : State := ⟨["CASE"], [], []⟩

def acknowledged : List Action :=
  [.submitDirective 1 (submission "A" (some 5)), .submitDirective 1 (submission "B" none),
    .acknowledgeDirective 2 0 true, .acknowledgeDirective 2 1 true]

theorem applied_one_behind_the_other :
    PhaseChain (run (step fun _ => false) openCase (acknowledged ++
      [.applyDirectiveStrategy 3 0 "OBSERVE" "PROFILE" none none, .applyDirectiveStrategy 4 1 "PROFILE" "ENGAGE" none none])) := by
  have admitted : Along (step fun _ => false) Admits openCase (acknowledged ++
      [.applyDirectiveStrategy 3 0 "OBSERVE" "PROFILE" none none,
        .applyDirectiveStrategy 4 1 "PROFILE" "ENGAGE" none none]) := by
    exact ⟨trivial, trivial, trivial, trivial, by decide +kernel, by decide +kernel, trivial⟩
  exact (throughout_last (lifecycle_of_admitted rfl admitted).2).2

/-- A result that is linked to a cancelled directive applies it; a directive is applied
behind its expiry; and two directives are applied from the same phase. -/
theorem lifecycle_broken :
    (((run (step fun _ => false) openCase (acknowledged ++ [.cancelDirective "CASE" 0])).directives[0]?).map (·.status)
        = some .cancelled ∧
      ((run (step fun _ => false) openCase (acknowledged ++ [.cancelDirective "CASE" 0,
        .linkDirectiveResult 3 0 none none true none])).directives[0]?).map (·.status) = some .applied) ∧
    ((run (traceStep fun _ => false) ⟨openCase, []⟩ (acknowledged ++
        [.applyDirectiveStrategy 6 0 "OBSERVE" "PROFILE" none none])).applied = [(0, 6)] ∧
      ((run (step fun _ => false) openCase (acknowledged ++
        [.applyDirectiveStrategy 6 0 "OBSERVE" "PROFILE" none none])).directives[0]?).map (·.expiresAt) = some (some 5)) ∧
    ((run (step fun _ => false) openCase (acknowledged ++
        [.applyDirectiveStrategy 3 0 "OBSERVE" "PROFILE" none none,
          .applyDirectiveStrategy 3 1 "OBSERVE" "PROFILE" none none])).history.map
        fun change => (change.caseId, change.fromPhase, change.toPhase)) =
      [("CASE", "OBSERVE", "PROFILE"), ("CASE", "OBSERVE", "PROFILE")] := by
  decide +kernel

end Mirage.DirectiveLifecycle
