import Mirage.RowLocks

/-! Serial replay of transactions that lock one row. Choose calls of the log such
that the others leave the store as it is: whatever the sessions of a run
interleave, a single session that makes only the chosen calls, in the order of
their commits, leaves the same store and gets the same answers. -/

namespace Mirage.SerialReplay
open RowLocks

variable {κ ρ σ γ ε α : Type}

/-- A system in which no session has a call open. -/
def settled (s : σ) (log : List (γ × Except ε α)) : System κ ρ σ γ ε α :=
  ⟨s, fun _ => none, fun _ => none, log⟩

/-- A single session makes the chosen calls of the log, in the order of their commits. -/
def replay (chosen : γ × Except ε α → Bool) (log : List (γ × Except ε α)) : List (Event γ) :=
  alone ((log.filter chosen).map Prod.fst)

/-- A call that is not chosen leaves the store as it is. -/
def Quiet (D : Discipline κ ρ σ γ ε α) (chosen : γ × Except ε α → Bool) : Prop :=
  ∀ s c, chosen (c, (D.atomic c s).2) = false → (D.atomic c s).1 = s

def returned (entry : γ × Except ε α) : Bool := entry.2.isOk

theorem quiet_returned (D : Discipline κ ρ σ γ ε α) : Quiet D returned := by
  intro s c raised
  cases outcome : (D.atomic c s).2 with
  | error e => exact atomic_raise D outcome
  | ok a =>
    rw [outcome] at raised
    cases raised

variable [DecidableEq κ]

theorem run_alone_concat (D : Discipline κ ρ σ γ ε α) (s : σ) (cs : List γ) (c : γ) :
    run D s (alone (cs ++ [c])) = step D (step D (run D s (alone cs)) (.start 0 c)) (.finish 0) := by
  rw [alone, List.flatMap_append, ← alone, run, EventRun.run_append]
  rfl

theorem run_replay (D : Discipline κ ρ σ γ ε α) {chosen : γ × Except ε α → Bool} (quiet : Quiet D chosen)
    (s : σ) (es : List (Event γ)) : run D s (replay chosen (run D s es).log) =
      settled (run D s es).store ((run D s es).log.filter chosen) := by
  apply run_invariant D (I := fun store log => run D s (replay chosen log) = settled store (log.filter chosen))
  · rfl
  -- A new entry of the log is either chosen and made once more, or changes neither side.
  · intro store log c replayed
    cases kept : chosen (c, (D.atomic c store).2) with
    | false =>
      have same : (log ++ [(c, (D.atomic c store).2)]).filter chosen = log.filter chosen := by
        simp [List.filter_append, kept]
      rw [replay, same, ← replay, replayed, quiet store c kept]
    | true =>
      have more : (log ++ [(c, (D.atomic c store).2)]).filter chosen =
          log.filter chosen ++ [(c, (D.atomic c store).2)] := by
        simp [List.filter_append, kept]
      rw [replay, more, List.map_append, List.map_singleton, run_alone_concat, ← replay, replayed, settled,
        step_alone, settled]

theorem replay_agrees (D : Discipline κ ρ σ γ ε α) {chosen : γ × Except ε α → Bool} (quiet : Quiet D chosen)
    (s : σ) (es : List (Event γ)) :
    let reached := run D s es
    let again := run D s (replay chosen reached.log)
    again.store = reached.store ∧ again.log = reached.log.filter chosen := by
  intro reached again
  have same : again = settled reached.store (reached.log.filter chosen) := run_replay D quiet s es
  rw [same]
  exact ⟨rfl, rfl⟩

end Mirage.SerialReplay
