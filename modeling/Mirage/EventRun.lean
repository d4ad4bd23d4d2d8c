import Mathlib.Data.List.Basic

/-! Runs of a total step function over a finite list of events. An event that is not
enabled leaves the state as it is, so every list of events is a run. -/

namespace Mirage.EventRun

variable {σ ε : Type}

def run (step : σ → ε → σ) (s : σ) (events : List ε) : σ :=
  events.foldl step s

@[simp] theorem run_nil (step : σ → ε → σ) (s : σ) : run step s [] = s := rfl

@[simp] theorem run_cons (step : σ → ε → σ) (s : σ) (e : ε) (es : List ε) :
    run step s (e :: es) = run step (step s e) es := rfl

/-- Every step of the run starts in a state where `ok` admits its event. -/
def Along (step : σ → ε → σ) (ok : σ → ε → Prop) : σ → List ε → Prop
  | _, [] => True
  | s, e :: es => ok s e ∧ Along step ok (step s e) es

theorem run_append (step : σ → ε → σ) (s : σ) (es es' : List ε) :
    run step s (es ++ es') = run step (run step s es) es' :=
  List.foldl_append

theorem along_append {step : σ → ε → σ} {ok : σ → ε → Prop} {s : σ} {es es' : List ε}
    (first : Along step ok s es) (second : Along step ok (run step s es) es') :
    Along step ok s (es ++ es') := by
  induction es generalizing s with
  | nil => exact second
  | cons e es ih => exact ⟨first.1, ih first.2 second⟩

theorem along_append_iff {step : σ → ε → σ} {ok : σ → ε → Prop} {s : σ} {es es' : List ε} :
    Along step ok s (es ++ es') ↔ Along step ok s es ∧ Along step ok (run step s es) es' := by
  refine ⟨fun along => ?_, fun both => along_append both.1 both.2⟩
  induction es generalizing s with
  | nil => exact ⟨trivial, along⟩
  | cons e es ih =>
    obtain ⟨first, second⟩ := ih along.2
    exact ⟨⟨along.1, first⟩, second⟩

theorem along_of_forall {step : σ → ε → σ} {ok : σ → ε → Prop} {s : σ} {es : List ε}
    (admitted : ∀ s, ∀ e ∈ es, ok s e) : Along step ok s es := by
  induction es generalizing s with
  | nil => trivial
  | cons e es ih =>
    exact ⟨admitted s e List.mem_cons_self, ih fun s e mem => admitted s e (List.mem_cons_of_mem _ mem)⟩

theorem along_prefix {step : σ → ε → σ} {ok : σ → ε → Prop} {s : σ} {es front : List ε} {e : ε}
    (along : Along step ok s es) (reached : front ++ [e] <+: es) : ok (run step s front) e := by
  induction front generalizing s es with
  | nil =>
    obtain ⟨rest, rfl⟩ := reached
    exact along.1
  | cons first front ih =>
    obtain ⟨rest, rfl⟩ := reached
    exact ih along.2 ⟨rest, rfl⟩

theorem along_iff_front {step : σ → ε → σ} {ok : σ → ε → Prop} {s : σ} {es : List ε} :
    Along step ok s es ↔ ∀ front e, front ++ [e] <+: es → ok (run step s front) e := by
  refine ⟨fun along front e reached => along_prefix along reached, fun all => ?_⟩
  induction es generalizing s with
  | nil => trivial
  | cons e es ih =>
    refine ⟨all [] e (List.prefix_append [e] es), ih fun front e' reached => ?_⟩
    exact all (e :: front) e' (List.cons_prefix_cons.mpr ⟨rfl, reached⟩)

section
variable {τ : Type} {step : σ → ε → σ} {step' : τ → ε → τ}

theorem along_map {ok : σ → ε → Prop} (f : τ → σ) (commutes : ∀ t e, f (step' t e) = step (f t) e) {t : τ}
    {es : List ε} (along : Along step ok (f t) es) : Along step' (fun t e => ok (f t) e) t es := by
  induction es generalizing t with
  | nil => trivial
  | cons e es ih => exact ⟨along.1, ih (by rw [commutes]; exact along.2)⟩

end

def Throughout (step : σ → ε → σ) (P : σ → Prop) : σ → List ε → Prop
  | s, [] => P s
  | s, e :: es => P s ∧ Throughout step P (step s e) es

theorem throughout_iff_front (step : σ → ε → σ) (P : σ → Prop) (s : σ) (es : List ε) :
    Throughout step P s es ↔ ∀ front, front <+: es → P (run step s front) := by
  induction es generalizing s with
  | nil => simp [Throughout]
  | cons e es ih =>
    rw [Throughout, ih]
    constructor
    · rintro ⟨here, later⟩ front hfront
      cases front with
      | nil => exact here
      | cons e' front =>
        obtain ⟨rfl, hrest⟩ := List.cons_prefix_cons.mp hfront
        exact later front hrest
    · intro h
      refine ⟨h [] List.nil_prefix, fun front hfront => ?_⟩
      exact h (e :: front) (List.cons_prefix_cons.mpr ⟨rfl, hfront⟩)

theorem throughout_last {step : σ → ε → σ} {P : σ → Prop} {s : σ} {es : List ε}
    (h : Throughout step P s es) : P (run step s es) :=
  (throughout_iff_front step P s es).mp h es (List.prefix_refl es)

theorem run_invariant {step : σ → ε → σ} {I : σ → Prop}
    (preserved : ∀ s e, I s → I (step s e)) {s : σ} (initial : I s) (es : List ε) :
    I (run step s es) := by
  induction es generalizing s with
  | nil => exact initial
  | cons e es ih => exact ih (preserved s e initial)

theorem throughout_of_along {step : σ → ε → σ} {I P : σ → Prop} {ok : σ → ε → Prop}
    (preserved : ∀ s e, I s → ok s e → I (step s e)) (gives : ∀ s, I s → P s) {s : σ}
    (initial : I s) {es : List ε} (along : Along step ok s es) : Throughout step P s es := by
  induction es generalizing s with
  | nil => exact gives s initial
  | cons e es ih => exact ⟨gives s initial, ih (preserved s e initial along.1) along.2⟩

/-- When one step keeps `P` exactly if `ok` admits it, a whole run keeps `P`
exactly if every one of its steps is admitted. -/
theorem throughout_iff_along {step : σ → ε → σ} {I P : σ → Prop} {ok : σ → ε → Prop}
    (preserved : ∀ s e, I s → I (step s e))
    (exact : ∀ s e, I s → P s → (P (step s e) ↔ ok s e))
    {s : σ} (initial : I s) (start : P s) (es : List ε) :
    Throughout step P s es ↔ Along step ok s es := by
  induction es generalizing s with
  | nil => simp [Throughout, Along, start]
  | cons e es ih =>
    rw [Throughout, Along]
    constructor
    · rintro ⟨-, later⟩
      have next : P (step s e) := by
        cases es with
        | nil => exact later
        | cons e' es => exact later.1
      exact ⟨(exact s e initial start).mp next, (ih (preserved s e initial) next).mp later⟩
    · rintro ⟨admitted, later⟩
      have next := (exact s e initial start).mpr admitted
      exact ⟨start, (ih (preserved s e initial) next).mpr later⟩

/-! The parties of a run, by their place in a list. -/

section
variable {α : Type} {xs : List α} {i j : ℕ} {x y : α}

theorem set_cases (found : (xs.set i x)[j]? = some y) : (j = i ∧ y = x) ∨ (j ≠ i ∧ xs[j]? = some y) := by
  rw [List.getElem?_set] at found
  split at found
  · rename_i same
    split at found
    · cases found
      exact .inl ⟨same.symm, rfl⟩
    · cases found
  · rename_i other
    exact .inr ⟨fun same => other same.symm, found⟩

theorem concat_cases (found : (xs ++ [x])[j]? = some y) : xs[j]? = some y ∨ (j = xs.length ∧ y = x) := by
  rcases Nat.lt_or_ge j xs.length with old | new
  · rw [List.getElem?_append_left old] at found
    exact .inl found
  · rw [List.getElem?_append_right new, List.getElem?_singleton] at found
    split at found
    · cases found
      exact .inr ⟨by omega, rfl⟩
    · cases found

theorem concat_old (found : xs[j]? = some y) : (xs ++ [x])[j]? = some y :=
  (List.getElem?_append_left (List.getElem?_eq_some_iff.mp found).1).trans found

end

end Mirage.EventRun
