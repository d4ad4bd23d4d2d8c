import Mirage.AiProposals
import Mirage.SignedPackage
import Mathlib.Algebra.BigOperators.Group.List.Basic
import Mathlib.Algebra.Order.Ring.Rat

/-! `AIOrchestrator.propose` with its budget ledger and circuit breaker, for every
sequence of provider outcomes. The call answers with a result exactly as long as
no attempt ends with an exception that the handlers do not name. -/

namespace Mirage.AiOrchestrator
open PythonText Raw AiProposals

structure Limits where
  dailyLimit : ℚ
  monthlyLimit : ℚ
  perCaseLimit : ℤ

structure Entry where
  when_ : DateTime
  caseId : Text
  cost : ℚ

def entryOf (call : Call) : Entry := ⟨call.now, call.caseId, call.estimatedCost⟩

def daily (entries : List Entry) (now : DateTime) : ℚ :=
  ((entries.filter fun e => e.when_.date = now.date).map Entry.cost).sum

def monthly (entries : List Entry) (now : DateTime) : ℚ :=
  ((entries.filter fun e => e.when_.yearMonth = now.yearMonth).map Entry.cost).sum

def caseCount (entries : List Entry) (caseId : Text) : ℕ :=
  entries.countP fun e => e.caseId = caseId

def budgetAllows (limits : Limits) (entries : List Entry) (call : Call) : Bool :=
  (caseCount entries call.caseId : ℤ) < limits.perCaseLimit &&
    daily entries call.now + call.estimatedCost ≤ limits.dailyLimit &&
    monthly entries call.now + call.estimatedCost ≤ limits.monthlyLimit

structure Gate where
  failureThreshold : ℤ
  resetSeconds : ℚ

structure Breaker where
  failures : ℤ
  openedAt : Option ℚ

namespace Breaker

def allow (gate : Gate) (b : Breaker) (now : ℚ) : Bool × Breaker :=
  match b.openedAt with
  | none => (true, b)
  | some openedAt => if gate.resetSeconds ≤ now - openedAt then (true, ⟨0, none⟩) else (false, b)

def success (_ : Breaker) : Breaker := ⟨0, none⟩

def failure (gate : Gate) (b : Breaker) (now : ℚ) : Breaker :=
  if gate.failureThreshold ≤ b.failures + 1 ∧ b.openedAt = none then ⟨b.failures + 1, some now⟩
  else ⟨b.failures + 1, b.openedAt⟩

end Breaker

section
variable (py : JsonLoads.Interpreter) (modelValidate : Raw → Except Failure Proposal)

structure Conversation where
  answer : Except Failure OrchestrationResult
  attempts : List Attempt

/-- The loop of `propose`; `outcome` is what the provider does at each attempt. -/
def converse (maxRetries : ℕ) (call : Call) (outcome : ℕ → Except Failure Raw) (retries : ℕ) :
    Conversation :=
  let here := attempt py modelValidate maxRetries call retries (outcome retries)
  match next : here.next with
  | .returned result => ⟨.ok result, [here]⟩
  | .raised exc => ⟨.error exc, [here]⟩
  | .again =>
    let rest := converse maxRetries call outcome (retries + 1)
    ⟨rest.answer, here :: rest.attempts⟩
termination_by maxRetries - retries
decreasing_by
  have left := attempt_again next
  omega

/-- `AIOrchestrator.propose`: the gates are asked once, before the first attempt. -/
def propose (limits : Limits) (entries : List Entry) (gate : Gate) (breaker : Breaker) (clock : ℚ)
    (maxRetries : ℕ) (call : Call) (outcome : ℕ → Except Failure Raw) : Conversation :=
  if !budgetAllows limits entries call then ⟨.ok ⟨none, some .budgetStop, 0⟩, []⟩
  else if !(breaker.allow gate clock).1 then ⟨.ok ⟨none, some .circuitOpen, 0⟩, []⟩
  else converse py modelValidate maxRetries call outcome 0

/-! What the handlers do not name. -/

def Incomparable (call : Call) (raw : Raw) : Prop :=
  ∃ data proposal, answerData py raw = .ok data ∧ modelValidate data = .ok proposal ∧
    proposal.expiresAt.offset.isSome ≠ call.now.offset.isSome

def Escapes (call : Call) (outcome : Except Failure Raw) : Prop :=
  (∃ exc, outcome = .error exc ∧ exc ∈ [.httpStatusError, .requestError, .keyError, .indexError,
    .typeError, .other]) ∨
  ∃ raw, outcome = .ok raw ∧ Incomparable py modelValidate call raw

def Retryable (outcome : Except Failure Raw) : Prop :=
  (∃ exc, outcome = .error exc ∧ exc ∈ [.timeoutError, .transportError, .runtimeError]) ∨
  ∃ raw, outcome = .ok raw ∧ answerData py raw = .error .runtimeError

/-- `model_validate` raises nothing but `ValidationError`. -/
def OnlyValidationErrors : Prop := ∀ data exc, modelValidate data = .error exc → exc = .validationError

def Own (call : Call) (proposal : Proposal) : Prop :=
  proposal.caseId = call.caseId ∧ proposal.snapshotId = call.snapshotId ∧
    proposal.expiresAt.le call.now = .ok false

/-- What is promised of a call: a result, only an own proposal, few attempts, and
each attempt without an accepted answer counted by the breaker. -/
structure FallsBack (maxRetries : ℕ) (call : Call) (conversation : Conversation) : Prop where
  answered : ∃ result, conversation.answer = .ok result
  own : ∀ result proposal, conversation.answer = .ok result → result.proposal = some proposal →
    Own call proposal
  few : conversation.attempts.length ≤ maxRetries + 1
  counted : ∀ a ∈ conversation.attempts,
    a.failed = true ∨ ∃ result proposal, a.next = .returned result ∧ result.proposal = some proposal

end

section
variable {py : JsonLoads.Interpreter} {modelValidate : Raw → Except Failure Proposal}
  {maxRetries : ℕ} {call : Call}

theorem requireUnexpired_eq_ok {proposal p : Proposal} {now : DateTime}
    (fresh : requireUnexpired proposal now = .ok p) : p = proposal ∧ proposal.expiresAt.le now = .ok false := by
  unfold requireUnexpired at fresh
  cases compared : proposal.expiresAt.le now with
  | error exc =>
    rw [compared] at fresh
    cases fresh
  | ok expired =>
    rw [compared] at fresh
    cases expired with
    | true => cases fresh
    | false =>
      cases fresh
      exact ⟨rfl, rfl⟩

theorem le_eq_error {a b : DateTime} {exc : Failure} (raised : a.le b = .error exc) :
    exc = .typeError ∧ a.offset.isSome ≠ b.offset.isSome := by
  unfold DateTime.le at raised
  split at raised
  next => cases raised
  next => cases raised
  next naive aware =>
    cases raised
    refine ⟨rfl, fun same => ?_⟩
    cases first : a.offset with
    | none =>
      cases second : b.offset with
      | none => exact naive first second
      | some y =>
        rw [first, second] at same
        cases same
    | some x =>
      cases second : b.offset with
      | none =>
        rw [first, second] at same
        cases same
      | some y => exact aware x y first second

theorem le_incomparable {a b : DateTime} (apart : a.offset.isSome ≠ b.offset.isSome) :
    a.le b = .error .typeError := by
  unfold DateTime.le
  cases first : a.offset with
  | none =>
    cases second : b.offset with
    | none =>
      rw [first, second] at apart
      exact absurd rfl apart
    | some y => rfl
  | some x =>
    cases second : b.offset with
    | none => rfl
    | some y =>
      rw [first, second] at apart
      exact absurd rfl apart

theorem ofLoads_handled (exc : Raised) : ofLoads exc = .valueError ∨ ofLoads exc = .runtimeError := by
  unfold ofLoads
  split
  next => exact .inl rfl
  next => exact .inr rfl

theorem answerData_eq_error {raw : Raw} {exc : Failure} (raised : answerData py raw = .error exc) :
    exc = .valueError ∨ exc = .runtimeError := by
  unfold answerData at raised
  split at raised
  next t =>
    split at raised
    next =>
      cases raised
      exact .inl rfl
    next =>
      cases parsed : JsonLoads.loadsText py t with
      | ok data =>
        rw [parsed] at raised
        cases raised
      | error e =>
        rw [parsed] at raised
        cases raised
        exact ofLoads_handled e
  next => cases raised

theorem validateProposal_error (documented : OnlyValidationErrors modelValidate) {raw : Raw}
    {now : DateTime} {exc : Failure} (raised : validateProposal py modelValidate raw now = .error exc) :
    (exc = .validationError ∨ exc = .valueError ∨ exc = .runtimeError) ∨
      exc = .typeError ∧ ∃ data proposal, answerData py raw = .ok data ∧
        modelValidate data = .ok proposal ∧ proposal.expiresAt.offset.isSome ≠ now.offset.isSome := by
  unfold validateProposal at raised
  rw [RowLocks.bind_eq_error] at raised
  rcases raised with raised | ⟨data, decoded, raised⟩
  · exact .inl (.inr (answerData_eq_error raised))
  · rw [RowLocks.bind_eq_error] at raised
    rcases raised with raised | ⟨proposal, validated, raised⟩
    · exact .inl (.inl (documented data exc raised))
    · unfold requireUnexpired at raised
      rw [RowLocks.bind_eq_error] at raised
      rcases raised with raised | ⟨expired, _, raised⟩
      · obtain ⟨rfl, apart⟩ := le_eq_error raised
        exact .inr ⟨rfl, data, proposal, decoded, validated, apart⟩
      · cases expired with
        | true =>
          cases raised
          exact .inl (.inr (.inl rfl))
        | false => cases raised

theorem validateProposal_incomparable {raw : Raw} (apart : Incomparable py modelValidate call raw) :
    validateProposal py modelValidate raw call.now = .error .typeError := by
  obtain ⟨data, proposal, decoded, validated, apart⟩ := apart
  unfold validateProposal
  rw [decoded, SignedPackage.ok_bind, validated, SignedPackage.ok_bind]
  unfold requireUnexpired
  rw [le_incomparable apart]
  rfl

theorem handled_escapes {exc e : Failure} : handled exc = .escapes e ↔
    e = exc ∧ exc ∈ [.httpStatusError, .requestError, .keyError, .indexError, .typeError, .other] := by
  cases exc <;> simp [handled, eq_comm]

theorem judge_escapes (documented : OnlyValidationErrors modelValidate) {outcome : Except Failure Raw} :
    (∃ exc, judge py modelValidate call outcome = .escapes exc) ↔ Escapes py modelValidate call outcome := by
  cases outcome with
  | error e =>
    constructor
    · rintro ⟨exc, escaped⟩
      exact .inl ⟨e, rfl, (handled_escapes.mp escaped).2⟩
    · rintro (⟨exc, same, unnamed⟩ | ⟨raw, same, _⟩)
      · cases same
        exact ⟨e, handled_escapes.mpr ⟨rfl, unnamed⟩⟩
      · cases same
  | ok raw =>
    constructor
    · rintro ⟨exc, escaped⟩
      unfold judge at escaped
      cases validated : validateProposal py modelValidate raw call.now with
      | ok proposal =>
        simp only [validated] at escaped
        split at escaped
        next => cases escaped
        next =>
          split at escaped
          next => cases escaped
          next => cases escaped
      | error e =>
        simp only [validated] at escaped
        obtain ⟨rfl, unnamed⟩ := handled_escapes.mp escaped
        rcases validateProposal_error documented validated with handled | ⟨_, incomparable⟩
        · rcases handled with rfl | rfl | rfl
          all_goals simp at unnamed
        · exact .inr ⟨raw, rfl, incomparable⟩
    · rintro (⟨exc, same, _⟩ | ⟨raw', same, incomparable⟩)
      · cases same
      · cases same
        refine ⟨.typeError, ?_⟩
        unfold judge
        simp only [validateProposal_incomparable incomparable]
        rfl

theorem judge_accepted {outcome : Except Failure Raw} {proposal : Proposal}
    (accepted : judge py modelValidate call outcome = .accepted proposal) : Own call proposal := by
  have unhandled : ∀ exc, handled exc ≠ .accepted proposal := by
    intro exc
    cases exc <;> exact nofun
  unfold judge at accepted
  split at accepted
  next => exact absurd accepted (unhandled _)
  next raw =>
    split at accepted
    next => exact absurd accepted (unhandled _)
    next p validated =>
      split at accepted
      next => cases accepted
      next same =>
        split at accepted
        next =>
          cases accepted
          obtain ⟨sameCase, sameSnapshot⟩ := not_or.mp same
          unfold validateProposal at validated
          rw [RowLocks.bind_eq_ok] at validated
          obtain ⟨data, _, validated⟩ := validated
          rw [RowLocks.bind_eq_ok] at validated
          obtain ⟨q, _, fresh⟩ := validated
          obtain ⟨rfl, unexpired⟩ := requireUnexpired_eq_ok fresh
          exact ⟨not_not.mp sameCase, not_not.mp sameSnapshot, unexpired⟩
        next => cases accepted

theorem attempt_returned {retries : ℕ} {outcome : Except Failure Raw} {result : OrchestrationResult}
    {proposal : Proposal}
    (returned : (attempt py modelValidate maxRetries call retries outcome).next = .returned result)
    (some : result.proposal = some proposal) :
    judge py modelValidate call outcome = .accepted proposal := by
  unfold attempt at returned
  split at returned
  next p accepted =>
    cases returned
    cases some
    exact accepted
  next =>
    cases returned
    cases some
  next =>
    cases returned
    cases some
  next =>
    split at returned
    next =>
      cases returned
      cases some
    next => cases returned
  next => cases returned

theorem attempt_raised {retries : ℕ} {outcome : Except Failure Raw} :
    (∃ exc, (attempt py modelValidate maxRetries call retries outcome).next = .raised exc) ↔
      ∃ exc, judge py modelValidate call outcome = .escapes exc := by
  unfold attempt
  cases judge py modelValidate call outcome with
  | retryable timeout =>
    simp only
    split <;> simp
  | _ => simp

theorem handled_retryable {exc : Failure} : (∃ timeout, handled exc = .retryable timeout) ↔
    exc ∈ [.timeoutError, .transportError, .runtimeError] := by
  cases exc <;> simp [handled]

theorem judge_retryable (call : Call) (documented : OnlyValidationErrors modelValidate) {outcome : Except Failure Raw} :
    (∃ timeout, judge py modelValidate call outcome = .retryable timeout) ↔ Retryable py outcome := by
  cases outcome with
  | error e =>
    constructor
    · rintro ⟨timeout, again⟩
      exact .inl ⟨e, rfl, handled_retryable.mp ⟨timeout, again⟩⟩
    · rintro (⟨exc, same, named⟩ | ⟨raw, same, _⟩)
      · cases same
        exact handled_retryable.mpr named
      · cases same
  | ok raw =>
    constructor
    · rintro ⟨timeout, again⟩
      refine .inr ⟨raw, rfl, ?_⟩
      unfold judge at again
      cases validated : validateProposal py modelValidate raw call.now with
      | ok proposal =>
        simp only [validated] at again
        split at again
        next => cases again
        next =>
          split at again
          next => cases again
          next => cases again
      | error e =>
        simp only [validated] at again
        have named := handled_retryable.mp ⟨timeout, again⟩
        unfold validateProposal at validated
        rw [RowLocks.bind_eq_error] at validated
        rcases validated with raised | ⟨data, decoded, raised⟩
        · rcases answerData_eq_error raised with rfl | rfl
          · simp at named
          · exact raised
        · rw [RowLocks.bind_eq_error] at raised
          rcases raised with raised | ⟨p, _, raised⟩
          · rw [documented data e raised] at named
            simp at named
          · unfold requireUnexpired at raised
            rw [RowLocks.bind_eq_error] at raised
            rcases raised with raised | ⟨expired, _, raised⟩
            · rw [(le_eq_error raised).1] at named
              simp at named
            · cases expired with
              | true =>
                cases raised
                simp at named
              | false => cases raised
    · rintro (⟨exc, same, _⟩ | ⟨raw', same, raised⟩)
      · cases same
      · cases same
        refine ⟨false, ?_⟩
        have stopped : validateProposal py modelValidate raw call.now = .error .runtimeError := by
          unfold validateProposal
          rw [raised]
          rfl
        unfold judge
        simp only [stopped]
        rfl

theorem attempt_again_iff (documented : OnlyValidationErrors modelValidate) {retries : ℕ}
    {outcome : Except Failure Raw} :
    (attempt py modelValidate maxRetries call retries outcome).next = .again ↔
      Retryable py outcome ∧ retries < maxRetries := by
  rw [← judge_retryable call documented]
  unfold attempt
  cases judge py modelValidate call outcome with
  | retryable timeout =>
    simp only
    split
    next spent => exact iff_of_false nofun fun h => absurd h.2 (Nat.not_lt_of_le spent)
    next left => exact iff_of_true rfl ⟨⟨timeout, rfl⟩, Nat.lt_of_not_le left⟩
  | _ => simp

variable {outcome : ℕ → Except Failure Raw} {retries : ℕ}

theorem converse_returned {result : OrchestrationResult}
    (next : (attempt py modelValidate maxRetries call retries (outcome retries)).next = .returned result) :
    converse py modelValidate maxRetries call outcome retries =
      ⟨.ok result, [attempt py modelValidate maxRetries call retries (outcome retries)]⟩ := by
  rw [converse]
  split
  next same =>
    cases next.symm.trans same
    rfl
  next same => cases next.symm.trans same
  next same => cases next.symm.trans same

theorem converse_raised {exc : Failure}
    (next : (attempt py modelValidate maxRetries call retries (outcome retries)).next = .raised exc) :
    converse py modelValidate maxRetries call outcome retries =
      ⟨.error exc, [attempt py modelValidate maxRetries call retries (outcome retries)]⟩ := by
  rw [converse]
  split
  next same => cases next.symm.trans same
  next same =>
    cases next.symm.trans same
    rfl
  next same => cases next.symm.trans same

theorem converse_again
    (next : (attempt py modelValidate maxRetries call retries (outcome retries)).next = .again) :
    converse py modelValidate maxRetries call outcome retries =
      ⟨(converse py modelValidate maxRetries call outcome (retries + 1)).answer,
        attempt py modelValidate maxRetries call retries (outcome retries) ::
          (converse py modelValidate maxRetries call outcome (retries + 1)).attempts⟩ := by
  rw [converse]
  split
  next same => cases next.symm.trans same
  next same => cases next.symm.trans same
  next => rfl

theorem converse_rule {P : ℕ → Conversation → Prop}
    (returned : ∀ r result, (attempt py modelValidate maxRetries call r (outcome r)).next = .returned result →
      P r ⟨.ok result, [attempt py modelValidate maxRetries call r (outcome r)]⟩)
    (raised : ∀ r exc, (attempt py modelValidate maxRetries call r (outcome r)).next = .raised exc →
      P r ⟨.error exc, [attempt py modelValidate maxRetries call r (outcome r)]⟩)
    (again : ∀ r rest, (attempt py modelValidate maxRetries call r (outcome r)).next = .again → P (r + 1) rest →
      P r ⟨rest.answer, attempt py modelValidate maxRetries call r (outcome r) :: rest.attempts⟩)
    (r : ℕ) : P r (converse py modelValidate maxRetries call outcome r) := by
  induction left : maxRetries - r generalizing r with
  | zero =>
    cases next : (attempt py modelValidate maxRetries call r (outcome r)).next with
    | returned result =>
      rw [converse_returned next]
      exact returned r result next
    | raised exc =>
      rw [converse_raised next]
      exact raised r exc next
    | again =>
      have more := attempt_again next
      omega
  | succ n ih =>
    cases next : (attempt py modelValidate maxRetries call r (outcome r)).next with
    | returned result =>
      rw [converse_returned next]
      exact returned r result next
    | raised exc =>
      rw [converse_raised next]
      exact raised r exc next
    | again =>
      rw [converse_again next]
      exact again r _ next (ih (r + 1) (by omega))

theorem converse_own : ∀ result proposal,
    (converse py modelValidate maxRetries call outcome retries).answer = .ok result →
      result.proposal = some proposal → Own call proposal := by
  refine converse_rule (P := fun _ c => ∀ result proposal, c.answer = .ok result →
    result.proposal = some proposal → Own call proposal) ?_ ?_ ?_ retries
  · intro r result next answer proposal same some
    cases same
    exact judge_accepted (attempt_returned next some)
  · intro r exc next answer proposal same
    cases same
  · intro r rest next ih
    exact ih

theorem converse_few (inside : retries ≤ maxRetries) :
    (converse py modelValidate maxRetries call outcome retries).attempts.length ≤
      maxRetries - retries + 1 := by
  revert inside
  refine converse_rule (P := fun r c => r ≤ maxRetries → c.attempts.length ≤ maxRetries - r + 1)
    ?_ ?_ ?_ retries
  · intro r result next inside
    exact Nat.le_add_left 1 _
  · intro r exc next inside
    exact Nat.le_add_left 1 _
  · intro r rest next ih inside
    have more := attempt_again next
    have few := ih more
    rw [List.length_cons]
    omega

theorem converse_counted : ∀ result,
    (converse py modelValidate maxRetries call outcome retries).answer = .ok result →
      ∀ a ∈ (converse py modelValidate maxRetries call outcome retries).attempts,
        a.failed = true ∨ ∃ result proposal, a.next = .returned result ∧ result.proposal = some proposal := by
  have counted : ∀ r, (∀ exc, (attempt py modelValidate maxRetries call r (outcome r)).next ≠ .raised exc) →
      (attempt py modelValidate maxRetries call r (outcome r)).failed = true ∨
        ∃ result proposal, (attempt py modelValidate maxRetries call r (outcome r)).next = .returned result ∧
          result.proposal = some proposal := by
    intro r unraised
    rcases attempt_failed py modelValidate maxRetries r call (outcome r) with failed | ⟨proposal, accepted⟩ | escaped
    · exact .inl failed
    · refine .inr ⟨⟨some proposal, none, r⟩, proposal, ?_, rfl⟩
      rw [attempt, accepted]
    · obtain ⟨exc, next⟩ := attempt_raised.mpr escaped
      exact absurd next (unraised exc)
  refine converse_rule (P := fun _ c => ∀ result, c.answer = .ok result → ∀ a ∈ c.attempts,
    a.failed = true ∨ ∃ result proposal, a.next = .returned result ∧ result.proposal = some proposal)
    ?_ ?_ ?_ retries
  · intro r result next answer same a mem
    rw [List.mem_singleton.mp mem]
    exact counted r fun exc other => nomatch next.symm.trans other
  · intro r exc next answer same
    cases same
  · intro r rest next ih answer same a mem
    rcases List.mem_cons.mp mem with rfl | later
    · exact counted r fun exc other => nomatch next.symm.trans other
    · exact ih answer same a later

theorem converse_answered (py : JsonLoads.Interpreter) (modelValidate : Raw → Except Failure Proposal)
    (maxRetries : ℕ) (call : Call) (outcome : ℕ → Except Failure Raw) (retries : ℕ) :
    (∃ result, (converse py modelValidate maxRetries call outcome retries).answer = .ok result) ↔
      ∀ i, retries ≤ i →
        (∀ j, retries ≤ j → j < i →
          (attempt py modelValidate maxRetries call j (outcome j)).next = .again) →
        ¬ ∃ exc, judge py modelValidate call (outcome i) = .escapes exc := by
  refine converse_rule (P := fun r c => (∃ result, c.answer = .ok result) ↔ ∀ i, r ≤ i →
    (∀ j, r ≤ j → j < i → (attempt py modelValidate maxRetries call j (outcome j)).next = .again) →
      ¬ ∃ exc, judge py modelValidate call (outcome i) = .escapes exc) ?_ ?_ ?_ retries
  · intro r result next
    refine iff_of_true ⟨result, rfl⟩ fun i inside before escaped => ?_
    rcases Nat.eq_or_lt_of_le inside with rfl | later
    · obtain ⟨exc, raised⟩ := attempt_raised.mpr escaped
      cases next.symm.trans raised
    · cases next.symm.trans (before r (Nat.le_refl r) later)
  · intro r exc next
    refine iff_of_false (fun answered => answered.elim fun _ same => nomatch same) fun free => ?_
    exact free r (Nat.le_refl r) (fun j above below => absurd below (Nat.not_lt_of_le above))
      (attempt_raised.mp ⟨exc, next⟩)
  · intro r rest next ih
    refine ih.trans ⟨fun free i inside before => ?_, fun free i inside before => ?_⟩
    · rcases Nat.eq_or_lt_of_le inside with rfl | later
      · intro escaped
        obtain ⟨exc, raised⟩ := attempt_raised.mpr escaped
        cases next.symm.trans raised
      · exact free i later fun j above below => before j (by omega) below
    · refine free i (by omega) fun j above below => ?_
      rcases Nat.eq_or_lt_of_le above with rfl | later
      · exact next
      · exact before j later below

end

/-- A call keeps its promise exactly if both gates refuse it or no attempt that it
comes to escapes: every earlier one is retryable and there are retries left. -/
theorem falls_back_iff (py : JsonLoads.Interpreter) (modelValidate : Raw → Except Failure Proposal)
    (documented : OnlyValidationErrors modelValidate) (limits : Limits) (entries : List Entry) (gate : Gate)
    (breaker : Breaker) (clock : ℚ) (maxRetries : ℕ) (call : Call) (outcome : ℕ → Except Failure Raw) :
    FallsBack maxRetries call
        (propose py modelValidate limits entries gate breaker clock maxRetries call outcome) ↔
      (budgetAllows limits entries call = true → (breaker.allow gate clock).1 = true →
        ∀ i ≤ maxRetries, (∀ j < i, Retryable py (outcome j)) → ¬ Escapes py modelValidate call (outcome i)) := by
  have fallback : ∀ reason, FallsBack maxRetries call ⟨.ok ⟨none, some reason, 0⟩, []⟩ := by
    intro reason
    refine ⟨⟨_, rfl⟩, ?_, Nat.zero_le _, fun a mem => absurd mem List.not_mem_nil⟩
    intro result proposal same given
    cases same
    cases given
  unfold propose
  cases budget : budgetAllows limits entries call with
  | false => exact iff_of_true (fallback .budgetStop) nofun
  | true =>
    cases circuit : (breaker.allow gate clock).1 with
    | false => exact iff_of_true (fallback .circuitOpen) nofun
    | true =>
      simp only [Bool.not_true, Bool.false_eq_true, if_false, forall_const]
      have answered := converse_answered py modelValidate maxRetries call outcome 0
      have escapes : (∃ result, (converse py modelValidate maxRetries call outcome 0).answer = .ok result) ↔
          ∀ i ≤ maxRetries, (∀ j < i, Retryable py (outcome j)) →
            ¬ Escapes py modelValidate call (outcome i) := by
        refine answered.trans ⟨fun free i inside before escaped => ?_, fun free i _ before escaped => ?_⟩
        · refine free i (Nat.zero_le i) (fun j _ below => ?_) ((judge_escapes documented).mpr escaped)
          exact (attempt_again_iff documented).mpr ⟨before j below, Nat.lt_of_lt_of_le below inside⟩
        · have earlier : ∀ j < i, Retryable py (outcome j) ∧ j < maxRetries := fun j below =>
            (attempt_again_iff documented).mp (before j (Nat.zero_le j) below)
          have inside : i ≤ maxRetries := by
            cases i with
            | zero => exact Nat.zero_le _
            | succ j => exact (earlier j (Nat.lt_succ_self j)).2
          exact free i inside (fun j below => (earlier j below).1) ((judge_escapes documented).mp escaped)
      rw [← escapes]
      constructor
      · intro kept
        exact kept.answered
      · rintro ⟨result, answer⟩
        exact ⟨⟨result, answer⟩, converse_own, converse_few (Nat.zero_le _), converse_counted result answer⟩

/-! A call without a budget to worry about, and two providers. -/

def sampleInterpreter : JsonLoads.Interpreter := ⟨fun _ => ("NaN", none), fun _ => .error .unicodeDecodeError⟩

def refusing (_ : Raw) : Except Failure Proposal := .error .validationError

def sampleCall : Call := ⟨text "case", text "snapshot", 0, ⟨2026, 1, 2, 0, some 0⟩⟩

def sampleLimits : Limits := ⟨1, 10, 10⟩

/-- A provider that always times out ends in a fallback. -/
theorem timeouts_fall_back : FallsBack 2 sampleCall (propose sampleInterpreter refusing sampleLimits [] ⟨3, 60⟩
    ⟨0, none⟩ 0 2 sampleCall fun _ => .error .timeoutError) := by
  refine (falls_back_iff sampleInterpreter refusing ?_ sampleLimits [] ⟨3, 60⟩ ⟨0, none⟩ 0 2 sampleCall
    fun _ => .error .timeoutError).mpr ?_
  · intro data exc raised
    cases raised
    rfl
  · rintro _ _ i _ _ (⟨exc, same, unnamed⟩ | ⟨raw, same, _⟩)
    · cases same
      simp at unnamed
    · cases same

/-- A response with status 503 leaves `propose` as an exception. -/
theorem status_error_escapes : ¬ FallsBack 2 sampleCall (propose sampleInterpreter refusing sampleLimits []
    ⟨3, 60⟩ ⟨0, none⟩ 0 2 sampleCall fun _ => configuredPropose sampleInterpreter (.ok ⟨503, .empty⟩)) := by
  intro kept
  obtain ⟨result, answer⟩ := kept.answered
  have refused : configuredPropose sampleInterpreter (.ok ⟨503, .empty⟩) = .error .httpStatusError := rfl
  have budget : budgetAllows sampleLimits [] sampleCall = true := by
    simp [budgetAllows, daily, monthly, caseCount, sampleLimits, sampleCall]
  have raised : (attempt sampleInterpreter refusing 2 sampleCall 0 (.error .httpStatusError)).next =
      .raised .httpStatusError := rfl
  rw [propose, budget, refused, converse_raised raised] at answer
  cases answer

end Mirage.AiOrchestrator
