import Mirage.TeardownOrder

/-! Whose steps a journal has. An entry names its step and not its case, so a workflow
that is given the journal of another one passes over what that one did. -/

namespace Mirage.TeardownJournal
open EventRun Teardown TeardownOrder

/-- The world for another workflow that is given the journal: nobody executes, and
nothing has been done for its case. -/
def handOver (w : World) : World :=
  { w with idle := [], execution := none, attempted := [], performed := [], answers := [] }

def PerformedFor (environment caseId : String) (w : World) (s : TeardownStep) : Prop :=
  ∃ workflow, (workflow, s) ∈ w.performed ∧ workflow.environment = environment ∧ workflow.caseId = caseId

/-- What the loop passes over was performed for the case, and so was every step of a
teardown that is reported complete. -/
structure OwnSteps (environment caseId : String) (w : World) : Prop where
  skipped : ∀ x, w.execution = some x → ∀ s, s ∉ x.todo → PerformedFor environment caseId w s
  complete : ∀ workflow journal, (workflow, .ok journal) ∈ w.answers → ∀ s, PerformedFor environment caseId w s

section
variable {environment caseId otherEnvironment otherCaseId : String}

theorem inv_handOver {w : World} (inv : Inv environment caseId w) (nothing : done w = []) :
    Inv otherEnvironment otherCaseId (handOver w) := by
  have same : done (handOver w) = [] := nothing
  refine ⟨inv.order, fun _ mem => (by cases mem), fun j found => ⟨?_, fun destroyed => ?_⟩, fun _ none => (by cases none),
    fun mem => ?_, fun _ mem => (by cases mem), fun s mem => ?_, fun _ _ mem => (by cases mem)⟩
  · exact (inv.journal j found).1
  · exact (inv.journal j found).2 destroyed
  · rw [same] at mem
    cases mem
  · rw [same] at mem
    cases mem

theorem ownSteps_of_inv {w : World} (inv : Inv environment caseId w) : OwnSteps environment caseId w := by
  refine ⟨fun x found s passed => inv.known s ?_, fun workflow journal answered s => inv.known s ?_⟩
  · have running := inv.running x found
    have all := mem_teardownSteps s
    rw [← running.order, running.listed] at all
    exact (List.mem_append.mp all).resolve_right passed
  · rw [inv.answered workflow journal answered]
    exact mem_teardownSteps s

end

/-- The runs of another workflow behind the executions of a first one perform every step
themselves exactly if the journal that it is given has no PASS entry. -/
theorem journal_speaks_for_own_case_iff {environment caseId : String} {w : World} (opening : Opening w)
    {actions : List Action} (along : Along step (OfCase environment caseId) w actions) (other : Workflow) :
    (∀ others, Along step (OfCase other.environment other.caseId) (handOver (run step w actions)) others →
        OwnSteps other.environment other.caseId (run step (handOver (run step w actions)) others)) ↔
      done (run step w actions) = [] := by
  have inv := throughout_last (throughout_of_along (I := Inv environment caseId) (P := Inv environment caseId)
    (fun _ _ before ofCase => inv_step before ofCase) (fun _ good => good) (inv_opening opening) along)
  generalize run step w actions = given at inv ⊢
  constructor
  · intro own
    have started : Along step (OfCase other.environment other.caseId) (handOver given)
        [.construct other, .execute 0 (confirmation other)] := ⟨⟨rfl, rfl⟩, trivial, trivial⟩
    have executing : (run step (handOver given) [.construct other, .execute 0 (confirmation other)]).execution =
        some (begin (handOver given) ⟨other, initialState⟩) := by
      simp only [run_cons, run_nil, step, execute, handOver, List.nil_append, List.getElem?_cons_zero, if_true]
      rfl
    have performed : (run step (handOver given)
        [.construct other, .execute 0 (confirmation other)]).performed = [] := by
      simp only [run_cons, run_nil, step, execute, handOver, List.nil_append, List.getElem?_cons_zero, if_true]
    rw [List.eq_nil_iff_forall_not_mem]
    intro s passed
    have todo : (begin (handOver given) ⟨other, initialState⟩).todo = remaining (entriesOf given) := by
      unfold begin entriesOf handOver
      cases given.journal <;> rfl
    have skipped : s ∉ (begin (handOver given) ⟨other, initialState⟩).todo := by
      rw [todo, remaining, List.mem_filter]
      exact fun both => of_decide_eq_true both.2 passed
    obtain ⟨workflow, mem, -⟩ := (own _ started).skipped _ executing s skipped
    rw [performed] at mem
    cases mem
  · intro nothing others ofCase
    have later := throughout_last (throughout_of_along
      (I := Inv other.environment other.caseId) (P := Inv other.environment other.caseId)
      (fun _ _ before ofCase => inv_step before ofCase) (fun _ good => good) (inv_handOver inv nothing) ofCase)
    exact ownSteps_of_inv later

/-! A workflow that blocks at once, and one that blocks behind its first steps. -/

theorem blocked_binds_nobody : done (run step sandboxWorld [.construct (caseWorkflow true none),
      .execute 0 "mirage:test:CASE", .raise "RuntimeError: injected interruption", .advance]) = [] ∧
    OwnSteps "test" "OTHER" (run step (handOver (run step sandboxWorld [.construct (caseWorkflow true none),
        .execute 0 "mirage:test:CASE", .raise "RuntimeError: injected interruption", .advance]))
      [.construct otherWorkflow, .execute 0 "mirage:test:OTHER"]) := by
  have nothing : done (run step sandboxWorld [.construct (caseWorkflow true none),
      .execute 0 "mirage:test:CASE", .raise "RuntimeError: injected interruption", .advance]) = [] := by decide
  have along : Along step (OfCase "test" "CASE") sandboxWorld [.construct (caseWorkflow true none),
      .execute 0 "mirage:test:CASE", .raise "RuntimeError: injected interruption", .advance] :=
    ⟨⟨rfl, rfl⟩, trivial, trivial, trivial, trivial⟩
  exact ⟨nothing, (journal_speaks_for_own_case_iff opening_sandboxWorld along otherWorkflow).mpr nothing
    [.construct otherWorkflow, .execute 0 "mirage:test:OTHER"] ⟨⟨rfl, rfl⟩, trivial, trivial⟩⟩

/-- The other workflow starts behind steps that were never taken for its case. -/
theorem foreign_steps_skipped :
    let given := run step sandboxWorld
      ([.construct (caseWorkflow true none), .execute 0 "mirage:test:CASE"] ++ List.replicate 12 .advance)
    let other := run step (handOver given) [.construct otherWorkflow, .execute 0 "mirage:test:OTHER"]
    other.performed.length = 0 ∧ other.execution.any fun x =>
      x.todo.head? = some .recordRemainingGaps && x.workflow.caseId = "OTHER" := by
  decide

end Mirage.TeardownJournal
