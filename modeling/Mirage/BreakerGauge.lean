import Mirage.AiOrchestrator
import Mirage.EventRun

/-! `CircuitBreaker` with the counter `circuit_breaker_state` that it reports to. Requests that started
before the breaker opened may end at any time, so its calls come in any order. -/

namespace Mirage.BreakerGauge
open AiOrchestrator EventRun

inductive Call where
  | allow (now : ℚ)
  | success
  | failure (now : ℚ)

structure Meter where
  breaker : Breaker
  /-- `circuit_breaker_state`. -/
  gauge : ℤ

def isOpen (b : Breaker) : Bool := b.openedAt.isSome

def allow (gate : Gate) (m : Meter) (now : ℚ) : Bool × Meter :=
  let (allowed, breaker) := m.breaker.allow gate now
  (allowed, ⟨breaker, if isOpen m.breaker && allowed then m.gauge - 1 else m.gauge⟩)

def success (m : Meter) : Meter :=
  ⟨m.breaker.success, if isOpen m.breaker then m.gauge - 1 else m.gauge⟩

def failure (gate : Gate) (m : Meter) (now : ℚ) : Meter :=
  ⟨m.breaker.failure gate now,
    if gate.failureThreshold ≤ m.breaker.failures + 1 ∧ m.breaker.openedAt = none then m.gauge + 1 else m.gauge⟩

def step (gate : Gate) (m : Meter) : Call → Meter
  | .allow now => (allow gate m now).2
  | .success => success m
  | .failure now => failure gate m now

def fresh : Meter := ⟨⟨0, none⟩, 0⟩

def Closes (gate : Gate) (m : Meter) : Call → Prop
  | .allow now => ∃ openedAt, m.breaker.openedAt = some openedAt ∧ gate.resetSeconds ≤ now - openedAt
  | .success => True
  | .failure _ => False

def isFailure : Call → Bool
  | .failure _ => true
  | _ => false

def Early (gate : Gate) (openedAt : ℚ) : Call → Prop
  | .allow now => now - openedAt < gate.resetSeconds
  | .success => False
  | .failure _ => True

def TurnedAway (gate : Gate) (m : Meter) : Call → Prop
  | .allow now => (allow gate m now).1 = false
  | _ => True

section
variable {gate : Gate} {m : Meter}

structure Inv (gate : Gate) (m : Meter) : Prop where
  counted : 0 ≤ m.breaker.failures
  opened : m.breaker.openedAt ≠ none → gate.failureThreshold ≤ m.breaker.failures
  closed : m.breaker.openedAt = none → m.breaker.failures < gate.failureThreshold
  gauge : m.gauge = if isOpen m.breaker then 1 else 0

theorem inv_closed (threshold : 1 ≤ gate.failureThreshold) : Inv gate fresh where
  counted := le_refl 0
  opened never := absurd rfl never
  closed _ := Int.lt_of_lt_of_le Int.zero_lt_one threshold
  gauge := rfl

theorem allow_none (closed : m.breaker.openedAt = none) (now : ℚ) : allow gate m now = (true, m) := by
  simp only [allow, Breaker.allow, closed, isOpen, Option.isSome_none, Bool.false_and, Bool.false_eq_true, if_false]

theorem allow_some {openedAt : ℚ} (opened : m.breaker.openedAt = some openedAt) (now : ℚ) :
    allow gate m now =
      if gate.resetSeconds ≤ now - openedAt then (true, ⟨⟨0, none⟩, m.gauge - 1⟩) else (false, m) := by
  by_cases passed : gate.resetSeconds ≤ now - openedAt <;> simp [allow, Breaker.allow, opened, isOpen, passed]

theorem allow_false_iff (now : ℚ) : (allow gate m now).1 = false ↔
    ∃ openedAt, m.breaker.openedAt = some openedAt ∧ now - openedAt < gate.resetSeconds := by
  cases opened : m.breaker.openedAt with
  | none => simp [allow_none opened]
  | some openedAt =>
    rw [allow_some opened]
    by_cases passed : gate.resetSeconds ≤ now - openedAt <;> simp [passed, not_lt.mpr, not_le.mp]

theorem step_inv (threshold : 1 ≤ gate.failureThreshold) (inv : Inv gate m) (call : Call) :
    Inv gate (step gate m call) := by
  cases call with
  | allow now =>
    change Inv gate (allow gate m now).2
    cases opened : m.breaker.openedAt with
    | none => exact (congrArg (fun r => Inv gate r.2) (allow_none opened now)).mpr inv
    | some openedAt =>
      have reported : m.gauge = 1 := by rw [inv.gauge, isOpen, opened, Option.isSome_some, if_pos rfl]
      rw [allow_some opened]
      split
      · exact ⟨le_refl 0, fun never => absurd rfl never, fun _ => Int.lt_of_lt_of_le Int.zero_lt_one threshold,
          by rw [reported]; rfl⟩
      · exact inv
  | success =>
    refine ⟨le_refl 0, fun never => absurd rfl never, fun _ => Int.lt_of_lt_of_le Int.zero_lt_one threshold, ?_⟩
    have gauge := inv.gauge
    change (if isOpen m.breaker then m.gauge - 1 else m.gauge) = 0
    split at gauge <;> simp_all
  | failure now =>
    have counted := inv.counted
    by_cases opens : gate.failureThreshold ≤ m.breaker.failures + 1 ∧ m.breaker.openedAt = none
    · have gauge : m.gauge = 0 := by rw [inv.gauge, isOpen, opens.2]; rfl
      refine ⟨?_, ?_, ?_, ?_⟩ <;> simp only [step, failure, Breaker.failure, if_pos opens]
      · exact Int.add_nonneg counted Int.one_nonneg
      · exact fun _ => opens.1
      · exact fun never => absurd never (Option.some_ne_none now)
      · rw [gauge]; rfl
    · refine ⟨?_, ?_, ?_, ?_⟩ <;> simp only [step, failure, Breaker.failure, if_neg opens]
      · exact Int.add_nonneg counted Int.one_nonneg
      · exact fun opened => le_trans (inv.opened opened) (Int.le_add_one (le_refl _))
      · exact fun closed => Int.not_le.mp fun reached => opens ⟨reached, closed⟩
      · exact inv.gauge

theorem run_inv (threshold : 1 ≤ gate.failureThreshold) (calls : List Call) : Inv gate (run (step gate) fresh calls) :=
  run_invariant (I := Inv gate) (fun _ call inv => step_inv threshold inv call) (inv_closed threshold) calls

theorem step_failures {call : Call} (stays : ¬ Closes gate m call) :
    (step gate m call).breaker.failures = m.breaker.failures + if isFailure call then 1 else 0 := by
  cases call with
  | allow now =>
    change (allow gate m now).2.breaker.failures = _
    rw [show isFailure (.allow now) = false from rfl, if_neg Bool.false_ne_true, add_zero]
    cases opened : m.breaker.openedAt with
    | none => rw [allow_none opened]
    | some openedAt => rw [allow_some opened, if_neg fun passed => stays ⟨openedAt, opened, passed⟩]
  | success => exact absurd trivial stays
  | failure now =>
    change (Breaker.failure gate m.breaker now).failures = _
    unfold Breaker.failure
    split <;> rfl

theorem run_failures {calls : List Call} (stays : Along (step gate) (fun m call => ¬ Closes gate m call) m calls) :
    (run (step gate) m calls).breaker.failures = m.breaker.failures + calls.countP isFailure := by
  induction calls generalizing m with
  | nil => simp
  | cons call calls ih =>
    rw [run_cons, ih stays.2, step_failures stays.1, List.countP_cons]
    split <;> omega

theorem step_openedAt {call : Call} {openedAt : ℚ} (opened : (step gate m call).breaker.openedAt = some openedAt) :
    m.breaker.openedAt = some openedAt ∨ call = .failure openedAt := by
  cases call with
  | allow now =>
    change (allow gate m now).2.breaker.openedAt = _ at opened
    cases before : m.breaker.openedAt with
    | none => rw [allow_none before, before] at opened; cases opened
    | some since =>
      rw [allow_some before] at opened
      split at opened
      · cases opened
      · exact .inl (before ▸ opened)
  | success => cases opened
  | failure now =>
    change (Breaker.failure gate m.breaker now).openedAt = _ at opened
    unfold Breaker.failure at opened
    split at opened
    · exact .inr (congrArg Call.failure (Option.some.inj opened))
    · exact .inl opened

theorem run_openedAt {calls : List Call} {openedAt : ℚ}
    (opened : (run (step gate) m calls).breaker.openedAt = some openedAt) :
    m.breaker.openedAt = some openedAt ∨ .failure openedAt ∈ calls := by
  induction calls generalizing m with
  | nil => exact .inl opened
  | cons call calls ih =>
    rcases ih opened with before | mem
    · refine (step_openedAt before).imp_right fun same => ?_
      rw [same]
      exact List.mem_cons_self
    · exact .inr (List.mem_cons_of_mem _ mem)

theorem step_early {call : Call} {openedAt : ℚ} (opened : m.breaker.openedAt = some openedAt)
    (early : Early gate openedAt call) : (step gate m call).breaker.openedAt = some openedAt := by
  cases call with
  | allow now =>
    change (allow gate m now).2.breaker.openedAt = _
    rw [allow_some opened, if_neg (not_le.mpr early)]
    exact opened
  | success => exact absurd early not_false
  | failure now =>
    change (Breaker.failure gate m.breaker now).openedAt = _
    rw [Breaker.failure, if_neg fun opens => by rw [opened] at opens; cases opens.2]
    exact opened

theorem early_turned_away {calls : List Call} {openedAt : ℚ} (opened : m.breaker.openedAt = some openedAt)
    (early : ∀ call ∈ calls, Early gate openedAt call) : Along (step gate) (TurnedAway gate) m calls := by
  induction calls generalizing m with
  | nil => trivial
  | cons call calls ih =>
    rw [List.forall_mem_cons] at early
    refine ⟨?_, ih (step_early opened early.1) early.2⟩
    cases call with
    | allow now => exact (allow_false_iff now).mpr ⟨openedAt, opened, early.1⟩
    | success => trivial
    | failure now => trivial

end

/-- After any calls of a breaker. Once there were as many failures on end as the threshold asks for,
nobody is let through before the time to reset has passed since one of them, or a success comes late. -/
theorem breaker_in_step (gate : Gate) (threshold : 1 ≤ gate.failureThreshold) (calls : List Call) :
    let m := run (step gate) fresh calls
    (m.breaker.openedAt ≠ none → gate.failureThreshold ≤ m.breaker.failures) ∧
    (m.gauge = if m.breaker.openedAt.isSome then 1 else 0) ∧
    (∀ now, (allow gate m now).1 = false ↔
      ∃ openedAt, m.breaker.openedAt = some openedAt ∧ now - openedAt < gate.resetSeconds) ∧
    ∀ more, Along (step gate) (fun m call => ¬ Closes gate m call) m more →
      gate.failureThreshold ≤ more.countP isFailure →
      ∃ openedAt, (run (step gate) m more).breaker.openedAt = some openedAt ∧
        Call.failure openedAt ∈ calls ++ more ∧
        ∀ late, (∀ call ∈ late, Early gate openedAt call) →
          Along (step gate) (TurnedAway gate) (run (step gate) m more) late := by
  have inv := run_inv threshold calls
  refine ⟨inv.opened, inv.gauge, allow_false_iff, fun more stays enough => ?_⟩
  have later : Inv gate (run (step gate) fresh (calls ++ more)) := run_inv threshold (calls ++ more)
  rw [run_append] at later
  have reached := run_failures stays
  have opened : (run (step gate) (run (step gate) fresh calls) more).breaker.openedAt ≠ none := by
    intro closed
    have below := later.closed closed
    have counted := inv.counted
    omega
  obtain ⟨openedAt, since⟩ := Option.ne_none_iff_exists'.mp opened
  refine ⟨openedAt, since, ?_, fun late early => early_turned_away since early⟩
  have written := since
  rw [← run_append] at written
  exact (run_openedAt written).resolve_left (Option.some_ne_none openedAt).symm

/-- Two failures open a breaker that closes after ten seconds, and a third one comes late. -/
theorem sample_breaker : ∃ openedAt,
    (run (step ⟨2, 10⟩) fresh [.failure 1, .failure 2]).breaker.openedAt = some openedAt ∧
      Along (step ⟨2, 10⟩) (TurnedAway ⟨2, 10⟩) (run (step ⟨2, 10⟩) fresh [.failure 1, .failure 2])
        [.allow 3, .failure 4, .allow 11] := by
  obtain ⟨openedAt, since, _, away⟩ := (breaker_in_step ⟨2, 10⟩ (by decide) []).2.2.2 [.failure 1, .failure 2]
    ⟨fun closes => closes, fun closes => closes, trivial⟩ (by decide)
  have two : openedAt = 2 := Option.some.inj (since.symm.trans rfl)
  subst two
  refine ⟨2, since, away [.allow 3, .failure 4, .allow 11] ?_⟩
  intro call mem
  simp only [List.mem_cons, List.not_mem_nil, or_false] at mem
  rcases mem with rfl | rfl | rfl
  · exact (by decide +kernel : (3 : ℚ) - 2 < 10)
  · trivial
  · exact (by decide +kernel : (11 : ℚ) - 2 < 10)

end Mirage.BreakerGauge
