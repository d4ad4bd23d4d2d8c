import Mirage.AiOrchestrator
import Mirage.EventRun
import Mathlib.Tactic.Linarith

/-! Any number of `AIOrchestrator.propose` calls at once. -/

namespace Mirage.AiConcurrency
open PythonText Raw AiProposals AiOrchestrator EventRun

structure Setup where
  py : JsonLoads.Interpreter
  modelValidate : Raw → Except Failure Proposal
  call : ℕ → Call
  owner : ℕ → ℕ
  maxRetries : ℕ → ℕ
  maxConcurrent : ℕ → ℕ
  ledger : ℕ → ℕ
  limits : ℕ → Limits
  breaker : ℕ → ℕ
  gate : ℕ → Gate

inductive Phase where
  | idle
  /-- Past the gates, waiting for the semaphore. -/
  | waiting
  | requesting
  /-- Between two attempts, holding the semaphore. -/
  | sleeping
  | finished (answer : Except Failure OrchestrationResult)

structure World where
  clock : ℚ
  phase : ℕ → Phase
  retries : ℕ → ℕ
  /-- The calls inside `async with self._semaphore`. -/
  inside : List ℕ
  ledgers : ℕ → List Entry
  breakers : ℕ → Breaker
  /-- The calls of the requests that were sent, the last one first. -/
  sent : List ℕ

inductive Event where
  | tick (d : ℚ)
  | enter (k : ℕ)
  | start (k : ℕ)
  | answer (k : ℕ) (outcome : Except Failure Raw)
  | wake (k : ℕ)

def initial (ledgers : ℕ → List Entry) (breakers : ℕ → Breaker) : World :=
  ⟨0, fun _ => .idle, fun _ => 0, [], ledgers, breakers, []⟩

section
variable (setup : Setup)

namespace Setup

def ledgerOf (k : ℕ) : ℕ := setup.ledger (setup.owner k)

def breakerOf (k : ℕ) : ℕ := setup.breaker (setup.owner k)

def gateOf (k : ℕ) : Gate := setup.gate (setup.breakerOf k)

def ofOwner (o : ℕ) (calls : List ℕ) : List ℕ := calls.filter fun k => setup.owner k = o

end Setup

def enter (w : World) (k : ℕ) : World :=
  if !budgetAllows (setup.limits (setup.ledgerOf k)) (w.ledgers (setup.ledgerOf k)) (setup.call k) then
    { w with phase := Function.update w.phase k (.finished (.ok ⟨none, some .budgetStop, 0⟩)) }
  else
    let gated := (w.breakers (setup.breakerOf k)).allow (setup.gateOf k) w.clock
    if gated.1 then
      { w with
        phase := Function.update w.phase k .waiting
        breakers := Function.update w.breakers (setup.breakerOf k) gated.2 }
    else { w with phase := Function.update w.phase k (.finished (.ok ⟨none, some .circuitOpen, 0⟩)) }

def request (w : World) (k : ℕ) : World :=
  { w with phase := Function.update w.phase k .requesting, sent := k :: w.sent }

def start (w : World) (k : ℕ) : World :=
  if (setup.ofOwner (setup.owner k) w.inside).length < setup.maxConcurrent (setup.owner k) then
    request { w with inside := k :: w.inside } k
  else w

/-- `self.breaker.success()` and `self.budget.record(...)`. -/
def charge (w : World) (k : ℕ) : World :=
  { w with
    breakers := Function.update w.breakers (setup.breakerOf k) (w.breakers (setup.breakerOf k)).success
    ledgers := Function.update w.ledgers (setup.ledgerOf k)
      (w.ledgers (setup.ledgerOf k) ++ [entryOf (setup.call k)]) }

def countFailure (w : World) (k : ℕ) : World :=
  { w with
    breakers := Function.update w.breakers (setup.breakerOf k)
      ((w.breakers (setup.breakerOf k)).failure (setup.gateOf k) w.clock) }

def finish (w : World) (k : ℕ) (answer : Except Failure OrchestrationResult) : World :=
  { w with
    phase := Function.update w.phase k (.finished answer)
    inside := w.inside.filter fun j => j ≠ k }

def follow (w : World) (k : ℕ) : Next → World
  | .returned result => finish w k (.ok result)
  | .raised exc => finish w k (.error exc)
  | .again =>
    { w with
      phase := Function.update w.phase k .sleeping
      retries := Function.update w.retries k (w.retries k + 1) }

def tried (w : World) (k : ℕ) (outcome : Except Failure Raw) : Attempt :=
  attempt setup.py setup.modelValidate (setup.maxRetries (setup.owner k)) (setup.call k) (w.retries k) outcome

def answer (w : World) (k : ℕ) (outcome : Except Failure Raw) : World :=
  let a := tried setup w k outcome
  let w := if a.succeeded then charge setup w k else w
  let w := if a.failed then countFailure setup w k else w
  follow w k a.next

def step (w : World) : Event → World
  | .tick d => if 0 ≤ d then { w with clock := w.clock + d } else w
  | .enter k =>
    match w.phase k with
    | .idle => enter setup w k
    | _ => w
  | .start k =>
    match w.phase k with
    | .waiting => start setup w k
    | _ => w
  | .answer k outcome =>
    match w.phase k with
    | .requesting => answer setup w k outcome
    | _ => w
  | .wake k =>
    match w.phase k with
    | .sleeping => request w k
    | _ => w

def sends (w : World) : Event → Option ℕ
  | .start k =>
    match w.phase k with
    | .waiting =>
      if (setup.ofOwner (setup.owner k) w.inside).length < setup.maxConcurrent (setup.owner k) then some k
      else none
    | _ => none
  | .wake k =>
    match w.phase k with
    | .sleeping => some k
    | _ => none
  | .tick _ | .enter _ | .answer _ _ => none

def sentEntries (w : World) (l : ℕ) : List Entry :=
  (w.sent.filter fun k => setup.ledgerOf k = l).map fun k => entryOf (setup.call k)

/-- The requests against a ledger stay within its limits on the day, in the month
and in the case of this one. -/
def Fits (w : World) (k : ℕ) : Prop :=
  daily (sentEntries setup w (setup.ledgerOf k)) (setup.call k).now ≤
      (setup.limits (setup.ledgerOf k)).dailyLimit ∧
    monthly (sentEntries setup w (setup.ledgerOf k)) (setup.call k).now ≤
      (setup.limits (setup.ledgerOf k)).monthlyLimit ∧
    (caseCount (sentEntries setup w (setup.ledgerOf k)) (setup.call k).caseId : ℤ) ≤
      (setup.limits (setup.ledgerOf k)).perCaseLimit

/-- A request is sent only where the ledger would still allow it if every request
sent so far were charged. -/
def Charged (w : World) (e : Event) : Prop :=
  ∀ k, sends setup w e = some k → budgetAllows (setup.limits (setup.ledgerOf k))
    (sentEntries setup w (setup.ledgerOf k)) (setup.call k) = true

end

section
variable {setup : Setup} {w : World}

theorem request_phase (w : World) (k j : ℕ) :
    (request w k).phase j = if j = k then .requesting else w.phase j :=
  Function.update_apply _ _ _ _

theorem finish_phase (w : World) (k j : ℕ) (result : Except Failure OrchestrationResult) :
    (finish w k result).phase j = if j = k then .finished result else w.phase j :=
  Function.update_apply _ _ _ _

end

section
variable (setup : Setup)

def Bounded (w : World) : Prop := ∀ o, ∀ calls : List ℕ, calls.Nodup →
  (∀ k ∈ calls, setup.owner k = o ∧ w.phase k = .requesting) → calls.length ≤ setup.maxConcurrent o

/-- The calls inside the semaphore are those that request or sleep, and there are
slots for them. -/
structure Slots (w : World) : Prop where
  unique : w.inside.Nodup
  requesting : ∀ k, w.phase k = .requesting → k ∈ w.inside
  sleeping : ∀ k, w.phase k = .sleeping → k ∈ w.inside
  only : ∀ k ∈ w.inside, w.phase k = .requesting ∨ w.phase k = .sleeping
  free : ∀ o, (setup.ofOwner o w.inside).length ≤ setup.maxConcurrent o

end

section
variable {setup : Setup} {w : World}

theorem Slots.bounded (slots : Slots setup w) : Bounded setup w := by
  intro o calls unique requesting
  have inside : calls ⊆ setup.ofOwner o w.inside := by
    intro k mem
    obtain ⟨owner, phase⟩ := requesting k mem
    exact List.mem_filter.mpr ⟨slots.requesting k phase, decide_eq_true owner⟩
  exact (List.subperm_of_subset unique inside).length_le.trans (slots.free o)

theorem Slots.congr {w' : World} (slots : Slots setup w) (inside : w'.inside = w.inside)
    (requesting : ∀ k, w'.phase k = .requesting → w.phase k = .requesting)
    (sleeping : ∀ k, w'.phase k = .sleeping → w.phase k = .sleeping)
    (kept : ∀ k, w.phase k = .requesting ∨ w.phase k = .sleeping → w'.phase k = w.phase k) :
    Slots setup w' := by
  refine ⟨?_, ?_, ?_, ?_, ?_⟩
  · rw [inside]
    exact slots.unique
  · intro k phase
    rw [inside]
    exact slots.requesting k (requesting k phase)
  · intro k phase
    rw [inside]
    exact slots.sleeping k (sleeping k phase)
  · intro k mem
    rw [inside] at mem
    rw [kept k (slots.only k mem)]
    exact slots.only k mem
  · rw [inside]
    exact slots.free

theorem Slots.outside (slots : Slots setup w) {k : ℕ} {p : Phase} (before : w.phase k = .idle)
    (other : p ≠ .requesting ∧ p ≠ .sleeping) {w' : World} (inside : w'.inside = w.inside)
    (phase : w'.phase = Function.update w.phase k p) : Slots setup w' := by
  have away : ∀ q : Phase, q ≠ p → ∀ j, w'.phase j = q → w.phase j = q := by
    intro q apart j same
    rw [phase, Function.update_apply] at same
    split at same
    next => exact absurd same.symm apart
    next => exact same
  refine slots.congr inside (away _ other.1.symm) (away _ other.2.symm) fun j active => ?_
  rw [phase, Function.update_apply]
  split
  next here =>
    rw [here, before] at active
    rcases active with active | active
    · cases active
    · cases active
  next => rfl

theorem Slots.enter (slots : Slots setup w) {k : ℕ} (before : w.phase k = .idle) :
    Slots setup (enter setup w k) := by
  rw [AiConcurrency.enter]
  split
  next => exact slots.outside (p := .finished _) before ⟨nofun, nofun⟩ rfl rfl
  next =>
    simp only
    split
    next => exact slots.outside (p := .waiting) before ⟨nofun, nofun⟩ rfl rfl
    next => exact slots.outside (p := .finished _) before ⟨nofun, nofun⟩ rfl rfl

theorem Slots.start (slots : Slots setup w) {k : ℕ} (before : w.phase k = .waiting) :
    Slots setup (start setup w k) := by
  rw [AiConcurrency.start]
  split
  next slot =>
    have fresh : k ∉ w.inside := by
      intro mem
      rcases slots.only k mem with active | active
      · rw [before] at active
        cases active
      · rw [before] at active
        cases active
    refine ⟨List.nodup_cons.mpr ⟨fresh, slots.unique⟩, ?_, ?_, ?_, ?_⟩
    · intro j phase
      by_cases here : j = k
      · rw [here]
        exact List.mem_cons_self
      · refine List.mem_cons_of_mem _ (slots.requesting j ?_)
        rwa [request_phase, if_neg here] at phase
    · intro j phase
      by_cases here : j = k
      · rw [request_phase, if_pos here] at phase
        cases phase
      · refine List.mem_cons_of_mem _ (slots.sleeping j ?_)
        rwa [request_phase, if_neg here] at phase
    · intro j mem
      rw [request_phase]
      by_cases here : j = k
      · rw [if_pos here]
        exact .inl rfl
      · rw [if_neg here]
        exact slots.only j ((List.mem_cons.mp mem).resolve_left here)
    · intro o
      change (List.filter _ (k :: w.inside)).length ≤ _
      rw [List.filter_cons]
      by_cases own : setup.owner k = o
      · rw [own] at slot
        rw [decide_eq_true own, if_pos rfl, List.length_cons]
        exact slot
      · rw [decide_eq_false own, if_neg (by decide)]
        exact slots.free o
  next => exact slots

theorem Slots.finish (slots : Slots setup w) (k : ℕ) (result : Except Failure OrchestrationResult) :
    Slots setup (finish w k result) := by
  have other : ∀ q : Phase, (∀ r, q ≠ .finished r) → ∀ j, (AiConcurrency.finish w k result).phase j = q →
      j ≠ k ∧ w.phase j = q := by
    intro q unfinished j phase
    rw [finish_phase] at phase
    by_cases here : j = k
    · rw [if_pos here] at phase
      exact absurd phase.symm (unfinished _)
    · rw [if_neg here] at phase
      exact ⟨here, phase⟩
  refine ⟨slots.unique.filter _, ?_, ?_, ?_, ?_⟩
  · intro j phase
    obtain ⟨apart, before⟩ := other .requesting (fun _ => nofun) j phase
    exact List.mem_filter.mpr ⟨slots.requesting j before, decide_eq_true apart⟩
  · intro j phase
    obtain ⟨apart, before⟩ := other .sleeping (fun _ => nofun) j phase
    exact List.mem_filter.mpr ⟨slots.sleeping j before, decide_eq_true apart⟩
  · intro j mem
    obtain ⟨mem, apart⟩ := List.mem_filter.mp mem
    rw [finish_phase, if_neg (of_decide_eq_true apart)]
    exact slots.only j mem
  · intro o
    refine le_trans ?_ (slots.free o)
    exact ((List.filter_sublist (l := w.inside)).filter _).length_le

theorem Slots.again (slots : Slots setup w) {k : ℕ} (inside : k ∈ w.inside) {p : Phase}
    (active : p = .requesting ∨ p = .sleeping) {w' : World} (same : w'.inside = w.inside)
    (phase : w'.phase = Function.update w.phase k p) : Slots setup w' := by
  have member : ∀ q : Phase, (∀ j, w.phase j = q → j ∈ w.inside) → ∀ j, w'.phase j = q → j ∈ w'.inside := by
    intro q before j now
    rw [same]
    rw [phase, Function.update_apply] at now
    split at now
    next here =>
      rw [here]
      exact inside
    next => exact before j now
  refine ⟨?_, member _ slots.requesting, member _ slots.sleeping, ?_, ?_⟩
  · rw [same]
    exact slots.unique
  · intro j mem
    rw [same] at mem
    rw [phase, Function.update_apply]
    split
    next => exact active
    next => exact slots.only j mem
  · rw [same]
    exact slots.free

theorem Slots.answer (slots : Slots setup w) {k : ℕ} (before : w.phase k = .requesting)
    (outcome : Except Failure Raw) : Slots setup (answer setup w k outcome) := by
  have inside := slots.requesting k before
  have counted : ∀ b c : Bool, ∃ v : World, v.inside = w.inside ∧ v.phase = w.phase ∧
      v = (let v := if b then charge setup w k else w
        if c then countFailure setup v k else v) := by
    intro b c
    refine ⟨_, ?_, ?_, rfl⟩
    · cases b <;> cases c <;> rfl
    · cases b <;> cases c <;> rfl
  obtain ⟨v, insideSame, phaseSame, state⟩ :=
    counted (tried setup w k outcome).succeeded (tried setup w k outcome).failed
  have slotsV : Slots setup v := slots.congr insideSame (fun j => by rw [phaseSame]; exact id)
    (fun j => by rw [phaseSame]; exact id) fun j _ => by rw [phaseSame]
  rw [AiConcurrency.answer, ← state]
  cases (tried setup w k outcome).next with
  | returned result => exact slotsV.finish k _
  | raised exc => exact slotsV.finish k _
  | again =>
    rw [← insideSame] at inside
    exact slotsV.again inside (.inr rfl) rfl rfl

theorem Slots.step (slots : Slots setup w) (e : Event) : Slots setup (step setup w e) := by
  cases e with
  | tick d =>
    rw [AiConcurrency.step]
    split
    next => exact slots.congr rfl (fun _ => id) (fun _ => id) fun _ _ => rfl
    next => exact slots
  | enter k =>
    rw [AiConcurrency.step]
    split
    next before => exact slots.enter before
    next => exact slots
  | start k =>
    rw [AiConcurrency.step]
    split
    next before => exact slots.start before
    next => exact slots
  | answer k outcome =>
    rw [AiConcurrency.step]
    split
    next before => exact slots.answer before outcome
    next => exact slots
  | wake k =>
    rw [AiConcurrency.step]
    split
    next before => exact slots.again (slots.sleeping k before) (.inl rfl) rfl rfl
    next => exact slots

end

def Open (gate : Gate) (b : Breaker) (clock : ℚ) : Prop :=
  ∃ openedAt, b.openedAt = some openedAt ∧ clock - openedAt < gate.resetSeconds

section
variable (setup : Setup)

def Gated (w : World) (e : Event) : Prop :=
  ∀ k, sends setup w e = some k → ¬ Open (setup.gateOf k) (w.breakers (setup.breakerOf k)) w.clock

def breakerAfter (w : World) (k : ℕ) (outcome : Except Failure Raw) : Breaker :=
  let b := w.breakers (setup.breakerOf k)
  (if (tried setup w k outcome).succeeded then b.success else b).failure (setup.gateOf k) w.clock

def Pending (w : World) (k : ℕ) : Prop := w.phase k = .waiting ∨ w.phase k = .sleeping

/-- A failure that leaves the breaker open finds no other call of it waiting for
the semaphore or for a retry, and is not retried itself. -/
def Undisturbed (w : World) : Event → Prop
  | .answer k outcome => w.phase k = .requesting → (tried setup w k outcome).failed = true →
      Open (setup.gateOf k) (breakerAfter setup w k outcome) w.clock →
        (∀ j, j ≠ k → setup.breakerOf j = setup.breakerOf k → ¬ Pending w j) ∧
        ∀ timeout, judge setup.py setup.modelValidate (setup.call k) outcome = .retryable timeout →
          setup.maxRetries (setup.owner k) ≤ w.retries k
  | _ => True

def Quiet (w : World) : Prop :=
  ∀ k, Pending w k → ¬ Open (setup.gateOf k) (w.breakers (setup.breakerOf k)) w.clock

end

section
variable {setup : Setup} {w : World}

theorem not_open_of_none {gate : Gate} {b : Breaker} {clock : ℚ} (closed : b.openedAt = none) :
    ¬ Open gate b clock := by
  rintro ⟨openedAt, opened, _⟩
  rw [closed] at opened
  cases opened

theorem allow_closes {gate : Gate} {b : Breaker} {now : ℚ} (passed : (b.allow gate now).1 = true) :
    (b.allow gate now).2.openedAt = none := by
  unfold Breaker.allow at passed ⊢
  split
  next closed => exact closed
  next openedAt opened =>
    rw [opened] at passed
    simp only at passed
    split
    next => rfl
    next other =>
      rw [if_neg other] at passed
      cases passed

theorem attempt_again_judge {py : JsonLoads.Interpreter} {modelValidate : Raw → Except Failure Proposal}
    {maxRetries retries : ℕ} {call : Call} {outcome : Except Failure Raw}
    (again : (attempt py modelValidate maxRetries call retries outcome).next = .again) :
    (∃ timeout, judge py modelValidate call outcome = .retryable timeout) ∧ ¬ maxRetries ≤ retries ∧
      (attempt py modelValidate maxRetries call retries outcome).failed = true := by
  have left := Nat.not_le_of_lt (attempt_again again)
  unfold attempt at again ⊢
  cases verdict : judge py modelValidate call outcome with
  | retryable timeout =>
    simp only [if_neg left]
    exact ⟨⟨timeout, rfl⟩, left, trivial⟩
  | _ =>
    rw [verdict] at again
    cases again

theorem answer_breakers (k : ℕ) (outcome : Except Failure Raw) (b : ℕ) :
    (answer setup w k outcome).breakers b =
      if b = setup.breakerOf k then
        if (tried setup w k outcome).failed then breakerAfter setup w k outcome
        else if (tried setup w k outcome).succeeded then (w.breakers b).success else w.breakers b
      else w.breakers b := by
  have followed : ∀ (v : World) (n : Next), (follow v k n).breakers = v.breakers := by
    intro v n
    cases n <;> rfl
  rw [answer, followed, breakerAfter]
  by_cases own : b = setup.breakerOf k
  · rw [if_pos own, own]
    cases (tried setup w k outcome).failed <;> cases (tried setup w k outcome).succeeded <;>
      simp [charge, countFailure]
  · rw [if_neg own]
    cases (tried setup w k outcome).failed <;> cases (tried setup w k outcome).succeeded <;>
      simp [charge, countFailure, own]

theorem answer_phase (k : ℕ) (outcome : Except Failure Raw) (j : ℕ) :
    (answer setup w k outcome).phase j = if j = k then
        match (tried setup w k outcome).next with
        | .returned result => .finished (.ok result)
        | .raised exc => .finished (.error exc)
        | .again => .sleeping
      else w.phase j := by
  have followed : ∀ (v : World) (n : Next), (follow v k n).phase j = if j = k then
        match n with
        | .returned result => .finished (.ok result)
        | .raised exc => .finished (.error exc)
        | .again => .sleeping
      else v.phase j := by
    intro v n
    cases n with
    | returned result => exact finish_phase v k j _
    | raised exc => exact finish_phase v k j _
    | again => exact Function.update_apply _ _ _ _
  rw [answer, followed]
  split
  next => rfl
  next =>
    cases (tried setup w k outcome).failed <;> cases (tried setup w k outcome).succeeded <;> rfl

theorem answer_clock (k : ℕ) (outcome : Except Failure Raw) : (answer setup w k outcome).clock = w.clock := by
  have followed : ∀ (v : World) (n : Next), (follow v k n).clock = v.clock := by
    intro v n
    cases n <;> rfl
  rw [answer, followed]
  cases (tried setup w k outcome).failed <;> cases (tried setup w k outcome).succeeded <;> rfl

theorem Pending.of_update {v : World} {j k : ℕ} {p : Phase} (pending : Pending v j)
    (phase : v.phase = Function.update w.phase k p) :
    j = k ∧ (p = .waiting ∨ p = .sleeping) ∨ j ≠ k ∧ Pending w j := by
  unfold Pending at pending
  rw [phase, Function.update_apply] at pending
  split at pending
  next here => exact .inl ⟨here, pending⟩
  next other => exact .inr ⟨other, pending⟩

theorem Quiet.tick (quiet : Quiet setup w) {d : ℚ} (forward : 0 ≤ d) :
    Quiet setup { w with clock := w.clock + d } := by
  rintro k pending ⟨openedAt, opened, recent⟩
  refine quiet k pending ⟨openedAt, opened, ?_⟩
  have earlier : w.clock - openedAt ≤ w.clock + d - openedAt := by linarith
  exact lt_of_le_of_lt earlier recent

theorem Quiet.enter (quiet : Quiet setup w) (k : ℕ) : Quiet setup (enter setup w k) := by
  have finished : ∀ answer, Quiet setup { w with phase := Function.update w.phase k (.finished answer) } := by
    intro answer j pending
    rcases pending.of_update (k := k) (p := .finished answer) rfl with ⟨_, active⟩ | ⟨_, before⟩
    · exact active.elim nofun nofun
    · exact quiet j before
  rw [AiConcurrency.enter]
  split
  next => exact finished _
  next =>
    simp only
    split
    next passed =>
      intro j pending
      have closed := allow_closes passed
      change ¬ Open _ (Function.update w.breakers _ _ (setup.breakerOf j)) _
      by_cases own : setup.breakerOf j = setup.breakerOf k
      · rw [own, Function.update_self]
        exact not_open_of_none closed
      · rw [Function.update_of_ne own]
        rcases pending.of_update (k := k) (p := .waiting) rfl with ⟨here, _⟩ | ⟨_, before⟩
        · exact absurd (congrArg setup.breakerOf here) own
        · exact quiet j before
    next => exact finished _

theorem Quiet.answer (quiet : Quiet setup w) {k : ℕ} (before : w.phase k = .requesting)
    {outcome : Except Failure Raw} (undisturbed : Undisturbed setup w (.answer k outcome)) :
    Quiet setup (answer setup w k outcome) := by
  intro j pending isOpen
  rw [answer_clock, answer_breakers] at isOpen
  unfold Pending at pending
  rw [answer_phase] at pending
  by_cases here : j = k
  · rw [if_pos here] at pending
    cases next : (tried setup w k outcome).next with
    | returned result =>
      rw [next] at pending
      exact pending.elim nofun nofun
    | raised exc =>
      rw [next] at pending
      exact pending.elim nofun nofun
    | again =>
      obtain ⟨⟨timeout, verdict⟩, left, failed⟩ := attempt_again_judge next
      have counted : (tried setup w k outcome).failed = true := failed
      rw [here, if_pos rfl, counted, if_pos rfl] at isOpen
      exact left ((undisturbed before counted isOpen).2 timeout verdict)
  · rw [if_neg here] at pending
    by_cases own : setup.breakerOf j = setup.breakerOf k
    · rw [if_pos own] at isOpen
      have sameGate : setup.gateOf j = setup.gateOf k := congrArg setup.gate own
      cases failed : (tried setup w k outcome).failed with
      | true =>
        rw [failed, if_pos rfl, sameGate] at isOpen
        exact (undisturbed before failed isOpen).1 j here own pending
      | false =>
        rw [failed, if_neg (by decide)] at isOpen
        split at isOpen
        next => exact not_open_of_none rfl isOpen
        next => exact quiet j pending isOpen
    · rw [if_neg own] at isOpen
      exact quiet j pending isOpen

theorem Quiet.request (quiet : Quiet setup w) (k : ℕ) (inside : List ℕ) :
    Quiet setup (request { w with inside := inside } k) := by
  intro j pending
  rcases pending.of_update (k := k) (p := .requesting) rfl with ⟨_, active⟩ | ⟨_, before⟩
  · exact active.elim nofun nofun
  · exact quiet j before

theorem Quiet.step (quiet : Quiet setup w) (e : Event) (undisturbed : Undisturbed setup w e) :
    Quiet setup (step setup w e) := by
  cases e with
  | tick d =>
    rw [AiConcurrency.step]
    split
    next forward => exact quiet.tick forward
    next => exact quiet
  | enter k =>
    rw [AiConcurrency.step]
    split
    next => exact quiet.enter k
    next => exact quiet
  | start k =>
    rw [AiConcurrency.step]
    split
    next =>
      rw [start]
      split
      next => exact quiet.request k _
      next => exact quiet
    next => exact quiet
  | answer k outcome =>
    rw [AiConcurrency.step]
    split
    next before => exact quiet.answer before undisturbed
    next => exact quiet
  | wake k =>
    rw [AiConcurrency.step]
    split
    next => exact quiet.request k _
    next => exact quiet

theorem sends_pending {e : Event} {k : ℕ} (sent : sends setup w e = some k) : Pending w k := by
  cases e with
  | start j =>
    rw [sends] at sent
    split at sent
    next phase =>
      split at sent
      next =>
        cases sent
        exact .inl phase
      next => cases sent
    next => cases sent
  | wake j =>
    rw [sends] at sent
    split at sent
    next phase =>
      cases sent
      exact .inr phase
    next => cases sent
  | tick d => cases sent
  | enter j => cases sent
  | answer j outcome => cases sent

theorem Quiet.gated (quiet : Quiet setup w) (e : Event) : Gated setup w e :=
  fun k sent => quiet k (sends_pending sent)

end

/-- In every run the semaphores bound what is in flight; and where no failure
leaves the breaker open under a pending call, no request is started at an open
breaker. -/
theorem requests_gated (setup : Setup) (ledgers : ℕ → List Entry) (breakers : ℕ → Breaker)
    (events : List Event) :
    Throughout (step setup) (Bounded setup) (initial ledgers breakers) events ∧
      (Along (step setup) (Undisturbed setup) (initial ledgers breakers) events →
        Along (step setup) (Gated setup) (initial ledgers breakers) events) := by
  constructor
  · have slots : Slots setup (initial ledgers breakers) :=
      ⟨List.nodup_nil, nofun, nofun, fun k mem => absurd mem List.not_mem_nil, fun o => Nat.zero_le _⟩
    rw [throughout_iff_front]
    intro front _
    exact (run_invariant (I := Slots setup) (fun _ e before => before.step e) slots front).bounded
  · have quiet : Quiet setup (initial ledgers breakers) := fun k pending => pending.elim nofun nofun
    intro along
    generalize initial ledgers breakers = w at quiet along
    induction events generalizing w with
    | nil => trivial
    | cons e es ih => exact ⟨quiet.gated e, ih _ (quiet.step e along.1) along.2⟩

/-! One orchestrator of one slot, with a budget of one request for a case. -/

def sampleSetup (maxRetries : ℕ) (threshold : ℤ) : Setup where
  py := sampleInterpreter
  modelValidate := refusing
  call _ := sampleCall
  owner _ := 0
  maxRetries _ := maxRetries
  maxConcurrent _ := 1
  ledger _ := 0
  limits _ := ⟨1, 10, if threshold = 1 then 10 else 1⟩
  breaker _ := 0
  gate _ := ⟨threshold, 60⟩

def sampleWorld : World := initial (fun _ => []) fun _ => ⟨0, none⟩

/-- One failure of three leaves the breaker closed, and the retry finds it so. -/
theorem retry_gated : Along (step (sampleSetup 1 3)) (Gated (sampleSetup 1 3)) sampleWorld
    [.enter 0, .start 0, .answer 0 (.error .timeoutError), .wake 0] := by
  refine (requests_gated (sampleSetup 1 3) (fun _ => []) (fun _ => ⟨0, none⟩) _).2 ⟨trivial, trivial, ?_, trivial, trivial⟩
  intro _ _ isOpen
  exact absurd isOpen (not_open_of_none (by decide +kernel))

/-- The second call waits for the semaphore while the first one opens the breaker. -/
theorem waiting_call_passes : ¬ Along (step (sampleSetup 0 1)) (Gated (sampleSetup 0 1)) sampleWorld
    [.enter 0, .enter 1, .start 0, .answer 0 (.error .timeoutError), .start 1] := by
  intro along
  obtain ⟨_, _, _, _, gated, _⟩ := along
  refine gated 1 (by decide +kernel) ⟨0, by decide +kernel, by decide +kernel⟩

end Mirage.AiConcurrency
