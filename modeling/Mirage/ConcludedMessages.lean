import Mathlib.Logic.Relation
import Mirage.AnalystMessages
import Mirage.EventRun

/-! Messages to a case that has concluded. The states in which a message is refused are
named one by one, and the states behind CONCLUDING follow from the transitions. -/

namespace Mirage.ConcludedMessages
open EventRun CaseStateMachine AnalystMessages RowLocks

def Reachable : CaseState → CaseState → Prop :=
  Relation.ReflTransGen fun state next => allowedTransitions state = some next

theorem reachable_concluding_iff {state : CaseState} :
    Reachable .concluding state ↔ state ∈ [CaseState.concluding, .evidenceVerifying, .exported, .destroyed] := by
  constructor
  · intro reached
    induction reached with
    | refl => simp
    | @tail state next before allowed ih =>
      cases state <;> simp at ih <;> cases allowed <;> simp
  · have verifying : Reachable .concluding .evidenceVerifying := .single rfl
    have exported : Reachable .concluding .exported := .tail verifying rfl
    intro mem
    simp only [List.mem_cons, List.not_mem_nil, or_false] at mem
    rcases mem with rfl | rfl | rfl | rfl
    · exact .refl
    · exact verifying
    · exact exported
    · exact .tail exported rfl

theorem reachable_not_refused {state : CaseState} (reached : Reachable .concluding state)
    (admitted : state ∉ refused) : state = .evidenceVerifying := by
  rw [reachable_concluding_iff] at reached
  cases state <;> simp_all [refused]

def Concluded (caseId : String) (s : State) : Prop := ∃ state ∈ caseState s caseId, Reachable .concluding state

/-- Transitions and messages, and whatever happens to the sessions, the decisions and the channel. -/
inductive Event where
  | transitionCase (call : Call)
  | createMessage (r : Creation)
  | surroundings (s : State)

def step (digest : String → String) (rules : Rules) (s : State) : Event → State
  | .transitionCase call => transition digest s call
  | .createMessage r => (createMessage rules s r).1
  | .surroundings now => { now with lifecycle := s.lifecycle }

theorem createMessage_lifecycle (rules : Rules) (s : State) (r : Creation) :
    (createMessage rules s r).1.lifecycle = s.lifecycle := by
  unfold createMessage
  repeat' split
  all_goals rfl

theorem concluded_transition {digest : String → String} {caseId : String} {s : State} (call : Call)
    (concluded : Concluded caseId s) : Concluded caseId (transition digest s call) := by
  unfold transition
  cases done : transitionCase digest call (s.lifecycle.cases.find call.caseId) s.lifecycle with
  | error failure => exact concluded
  | ok result =>
    obtain ⟨database, answer⟩ := result
    obtain ⟨row, found, transitioned⟩ := transitionCase_spec done
    obtain ⟨state, isState, reached⟩ := concluded
    simp only [Concluded, caseState, transitioned.cases, KeyedTable.find_update]
    by_cases own : caseId = call.caseId
    · subst own
      rw [caseState, found] at isState
      cases isState
      exact ⟨answer.toState, by simp [found, advanced], .tail reached transitioned.allowed⟩
    · rw [if_neg own]
      exact ⟨state, isState, reached⟩

theorem concluded_step {digest : String → String} {rules : Rules} {caseId : String} {s : State} (e : Event)
    (concluded : Concluded caseId s) : Concluded caseId (step digest rules s e) := by
  cases e with
  | transitionCase call => exact concluded_transition call concluded
  | createMessage r =>
    simp only [step, Concluded, caseState, createMessage_lifecycle]
    exact concluded
  | surroundings now => exact concluded

/-- All that `create_message` asks of a call but the state of its case. -/
def passes (rules : Rules) (s : State) (r : Creation) : Bool :=
  (checkPreview rules r).isOk && !channelDisabled s r.caseId && activeSession s r &&
    ((decisionOf s r.caseId r.policyDecisionId).any fun decision => decision ∈ permitted) &&
    ((existing s r.caseId r.idempotencyKey).isSome || r.stored)

theorem vet_isOk (rules : Rules) (s : State) (r : Creation) :
    (vet rules s r).isOk = ((checkPreview rules r).isOk && !channelDisabled s r.caseId &&
      ((caseState s r.caseId).any fun state => state ∉ refused) && activeSession s r &&
      (decisionOf s r.caseId r.policyDecisionId).any fun decision => decision ∈ permitted) := by
  unfold vet
  cases checkPreview rules r with
  | error message => rfl
  | ok preview =>
    cases disabled : channelDisabled s r.caseId with
    | true => rfl
    | false =>
      cases caseState s r.caseId with
      | none => rfl
      | some state =>
        cases active : activeSession s r with
        | false => simp [require, present, bind, Except.bind, Except.isOk, Except.toBool]
        | true =>
          by_cases isRefused : state ∈ refused
          · simp [isRefused, require, present, bind, Except.bind, Except.isOk, Except.toBool]
          · cases decisionOf s r.caseId r.policyDecisionId with
            | none => simp [isRefused, require, present, bind, Except.bind, Except.isOk, Except.toBool]
            | some decision =>
              by_cases allowed : decision ∈ permitted <;>
                simp [isRefused, allowed, require, present, bind, Except.bind, Except.isOk, Except.toBool, pure, Except.pure]

theorem createMessage_isOk (rules : Rules) (s : State) (r : Creation) :
    (createMessage rules s r).2.isOk =
      (passes rules s r && (caseState s r.caseId).any fun state => state ∉ refused) := by
  have admitted := vet_isOk rules s r
  unfold createMessage passes
  cases admission : vet rules s r with
  | error message =>
    rw [admission] at admitted
    simp only [Except.isOk, Except.toBool] at admitted ⊢
    grind
  | ok pair =>
    rw [admission] at admitted
    cases known : existing s r.caseId r.idempotencyKey with
    | some messageId =>
      have here := List.getElem?_eq_getElem (existing_bound known)
      simp only [here, present, Except.map, Except.isOk, Except.toBool] at admitted ⊢
      grind
    | none =>
      by_cases stored : r.stored
      · simp only [stored, if_true, Except.isOk, Except.toBool] at admitted ⊢
        grind
      · simp only [stored, Except.isOk, Except.toBool] at admitted ⊢
        grind

def Ok (rules : Rules) (caseId : String) (s : State) : Event → Prop
  | .createMessage r => r.caseId = caseId → caseState s caseId = some .evidenceVerifying → passes rules s r = false
  | _ => True

theorem refused_iff {rules : Rules} {caseId : String} {s : State} {r : Creation} (own : r.caseId = caseId)
    (concluded : Concluded caseId s) :
    (createMessage rules s r).2.isOk = false ↔ Ok rules caseId s (.createMessage r) := by
  subst own
  obtain ⟨state, isState, reached⟩ := concluded
  rw [Option.mem_def] at isState
  rw [createMessage_isOk, isState]
  by_cases isRefused : state ∈ refused
  · have other : state ≠ .evidenceVerifying := by
      rintro rfl
      exact absurd isRefused (by decide)
    simp [Ok, isState, isRefused, other]
  · have verifying := reachable_not_refused reached isRefused
    subst verifying
    simp [Ok, isState, isRefused]

/-- Behind the conclusion of a case every message to it is refused exactly if no call that passes all
other checks is made while its evidence is verified. -/
theorem refused_once_concluded_iff (digest : String → String) (rules : Rules) (caseId : String) (s : State)
    (events : List Event) :
    (∀ front back r, front ++ back ++ [.createMessage r] <+: events → r.caseId = caseId →
        Concluded caseId (run (step digest rules) s front) →
        (createMessage rules (run (step digest rules) s (front ++ back)) r).2.isOk = false) ↔
      Along (step digest rules) (Ok rules caseId) s events := by
  constructor
  · intro refusedAll
    rw [along_iff_front]
    intro front e reached
    cases e with
    | createMessage r =>
      intro own verifying
      have concluded : Concluded caseId (run (step digest rules) s front) :=
        ⟨.evidenceVerifying, verifying, .single rfl⟩
      have isRefused := refusedAll front [] r (by simpa using reached) own concluded
      rw [List.append_nil] at isRefused
      exact (refused_iff own concluded).mp isRefused own verifying
    | _ => trivial
  · intro along front back r reached own concluded
    have later : Concluded caseId (run (step digest rules) s (front ++ back)) := by
      rw [run_append]
      exact run_invariant (fun _ e before => concluded_step e before) concluded back
    exact (refused_iff own later).mpr ( along_prefix along reached)

/-! A transition out of CONCLUDING, and a message behind it. -/

def verify : Call where
  caseId := sampleCase
  expectedVersion := 1
  actor := "orchestrator"
  actorType := "SYSTEM"
  reason := "engagement over"
  correlationId := none
  generatedCorrelationId := "01ARZ3NDEKTSV4RRFFQ69G5FAV"
  stateChangedId := "01ARZ3NDEKTSV4RRFFQ69G5FAW"
  stateChangedAt := "2026-01-02T00:00:00.000Z"
  auditId := "01ARZ3NDEKTSV4RRFFQ69G5FAX"
  auditAt := "2026-01-02T00:00:00.000Z"
  stored := true

theorem message_while_verifying :
    Concluded sampleCase (engaged .concluding) ∧
      (createMessage sampleRules (run (step (fun _ => String.ofList (List.replicate 64 '0')) sampleRules)
        (engaged .concluding) [.transitionCase verify]) hello).2.isOk = true :=
  ⟨⟨.concluding, by decide +kernel, .refl⟩, by decide +kernel⟩

end Mirage.ConcludedMessages
