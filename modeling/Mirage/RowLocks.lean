import Mirage.EventRun
import Mathlib.Logic.Function.Basic

/-! Transactions that lock one row, under any interleaving of any number of sessions. -/

namespace Mirage.RowLocks

def require {ε : Type} (b : Bool) (e : ε) : Except ε Unit := if b then .ok () else .error e

@[simp] theorem require_true {ε : Type} (e : ε) : require true e = .ok () := rfl

@[simp] theorem require_false {ε : Type} (e : ε) : require false e = .error e := rfl

theorem require_eq_ok {ε : Type} {b : Bool} {e : ε} {u : Unit} :
    require b e = .ok u ↔ b = true := by
  cases b <;> simp [require]

def present {ε α : Type} (x : Option α) (e : ε) : Except ε α :=
  match x with
  | some a => .ok a
  | none => .error e

theorem present_eq_ok {ε α : Type} {x : Option α} {e : ε} {a : α} :
    present x e = .ok a ↔ x = some a := by
  cases x <;> simp [present]

theorem bind_eq_ok {ε α β : Type} {x : Except ε α} {f : α → Except ε β} {b : β} :
    (x >>= f) = .ok b ↔ ∃ a, x = .ok a ∧ f a = .ok b := by
  cases x <;> simp [bind, Except.bind]

theorem bind_eq_error {ε α β : Type} {x : Except ε α} {f : α → Except ε β} {e : ε} :
    (x >>= f) = .error e ↔ x = .error e ∨ ∃ a, x = .ok a ∧ f a = .error e := by
  cases x <;> simp [bind, Except.bind]

theorem require_eq_error {ε : Type} {b : Bool} {e e' : ε} :
    require b e = .error e' ↔ b = false ∧ e = e' := by
  cases b <;> simp [require]

theorem present_eq_error {ε α : Type} {x : Option α} {e e' : ε} :
    present x e = .error e' ↔ x = none ∧ e = e' := by
  cases x <;> simp [present]

/-- Rows `ρ` under keys `κ` in a store `σ`; calls `γ` that raise `ε` or return `α`. -/
structure Discipline (κ ρ σ γ ε α : Type) where
  row : σ → κ → Option ρ
  lockKey : γ → Option κ
  exec : γ → Option ρ → σ → Except ε (σ × α)
  /-- A transaction writes no row that another transaction may have locked. -/
  frame : ∀ {c v s s' a}, exec c v s = .ok (s', a) →
    ∀ k, lockKey c ≠ some k → row s' k = row s k

variable {κ ρ σ γ ε α : Type}

def Discipline.locked (D : Discipline κ ρ σ γ ε α) (c : γ) (s : σ) : Option ρ :=
  (D.lockKey c).bind (D.row s)

def Discipline.atomic (D : Discipline κ ρ σ γ ε α) (c : γ) (s : σ) : σ × Except ε α :=
  match D.exec c (D.locked c s) s with
  | .ok (s', a) => (s', .ok a)
  | .error e => (s, .error e)

structure System (κ ρ σ γ ε α : Type) where
  store : σ
  holder : κ → Option ℕ
  active : ℕ → Option (γ × Option ρ)
  log : List (γ × Except ε α)

inductive Event (γ : Type) where
  /-- Session `i` opens call `c` and locks its row; it waits while the row is locked. -/
  | start (i : ℕ) (c : γ)
  /-- Session `i` runs its statements and commits, or raises and rolls back. -/
  | finish (i : ℕ)
  /-- Session `i` is lost: a crash, a cancelled task or a broken connection. -/
  | abort (i : ℕ)

theorem locked_congr (D : Discipline κ ρ σ γ ε α) {c : γ} {s s' : σ}
    (same : ∀ k, D.lockKey c = some k → D.row s' k = D.row s k) :
    D.locked c s' = D.locked c s := by
  unfold Discipline.locked
  cases h : D.lockKey c with
  | none => rfl
  | some k => exact same k h

theorem atomic_raise (D : Discipline κ ρ σ γ ε α) {c : γ} {s : σ} {e : ε}
    (raised : (D.atomic c s).2 = .error e) : (D.atomic c s).1 = s := by
  unfold Discipline.atomic at raised ⊢
  split at raised
  · cases raised
  · rfl

theorem atomic_commit (D : Discipline κ ρ σ γ ε α) {c : γ} {s : σ} {a : α}
    (returned : (D.atomic c s).2 = .ok a) :
    D.exec c (D.locked c s) s = .ok ((D.atomic c s).1, a) := by
  unfold Discipline.atomic at returned ⊢
  split at returned
  · rename_i s' a' ran
    cases returned
    exact ran
  · cases returned

theorem atomic_eq_ok (D : Discipline κ ρ σ γ ε α) {c : γ} {s s' : σ} {a : α} :
    D.atomic c s = (s', .ok a) ↔ D.exec c (D.locked c s) s = .ok (s', a) := by
  unfold Discipline.atomic
  split <;> simp_all

variable [DecidableEq κ]

def release (D : Discipline κ ρ σ γ ε α) (sys : System κ ρ σ γ ε α) (i : ℕ) (c : γ) :
    System κ ρ σ γ ε α :=
  { sys with
    holder := fun k => if D.lockKey c = some k then none else sys.holder k
    active := Function.update sys.active i none }

def step (D : Discipline κ ρ σ γ ε α) (sys : System κ ρ σ γ ε α) :
    Event γ → System κ ρ σ γ ε α
  | .start i c =>
    match sys.active i, (D.lockKey c).bind sys.holder with
    | none, none =>
      { sys with
        holder := fun k => if D.lockKey c = some k then some i else sys.holder k
        active := Function.update sys.active i (some (c, D.locked c sys.store)) }
    | _, _ => sys
  | .finish i =>
    match sys.active i with
    | none => sys
    | some (c, v) =>
      match D.exec c v sys.store with
      | .ok (s', a) => { release D sys i c with store := s', log := sys.log ++ [(c, .ok a)] }
      | .error e => { release D sys i c with log := sys.log ++ [(c, .error e)] }
  | .abort i =>
    match sys.active i with
    | none => sys
    | some (c, _) => release D sys i c

def initial (s : σ) : System κ ρ σ γ ε α := ⟨s, fun _ => none, fun _ => none, []⟩

def run (D : Discipline κ ρ σ γ ε α) (s : σ) (es : List (Event γ)) : System κ ρ σ γ ε α :=
  EventRun.run (step D) (initial s) es

/-- Every open transaction holds the lock of its row and still sees the row
as it is in the store. -/
def Current (D : Discipline κ ρ σ γ ε α) (sys : System κ ρ σ γ ε α) : Prop :=
  ∀ i c v, sys.active i = some (c, v) →
    v = D.locked c sys.store ∧ ∀ k, D.lockKey c = some k → sys.holder k = some i

theorem release_current (D : Discipline κ ρ σ γ ε α) {sys : System κ ρ σ γ ε α} {i : ℕ}
    {c : γ} {v : Option ρ} {s' : σ} (current : Current D sys) (opened : sys.active i = some (c, v))
    (frame : ∀ k, D.lockKey c ≠ some k → D.row s' k = D.row sys.store k)
    (log : List (γ × Except ε α)) :
    Current D { release D sys i c with store := s', log := log } := by
  intro j d w hj
  have other : j ≠ i := by
    rintro rfl
    simp [release] at hj
  have hd : sys.active j = some (d, w) := by
    simpa [release, other] using hj
  obtain ⟨seen, held⟩ := current j d w hd
  have apart : ∀ k, D.lockKey d = some k → D.lockKey c ≠ some k := by
    intro k hk hc
    have hi := (current i c v opened).2 k hc
    rw [held k hk] at hi
    exact other (Option.some.inj hi)
  refine ⟨?_, fun k hk => ?_⟩
  · rw [seen]
    exact (locked_congr D fun k hk => frame k (apart k hk)).symm
  · simp [release, apart k hk, held k hk]

theorem step_current (D : Discipline κ ρ σ γ ε α) (sys : System κ ρ σ γ ε α) (e : Event γ)
    (current : Current D sys) : Current D (step D sys e) := by
  cases e with
  | start i c =>
    simp only [step]
    split
    · rename_i idle free
      intro j d w hj
      by_cases hji : j = i
      · subst hji
        simp only [Function.update_self, Option.some.injEq, Prod.mk.injEq] at hj
        obtain ⟨rfl, rfl⟩ := hj
        exact ⟨rfl, fun k hk => by simp [hk]⟩
      · simp only [Function.update_of_ne hji] at hj
        obtain ⟨seen, held⟩ := current j d w hj
        refine ⟨seen, fun k hk => ?_⟩
        have apart : D.lockKey c ≠ some k := by
          intro hc
          rw [hc, Option.bind_some, held k hk] at free
          cases free
        simp [apart, held k hk]
    · exact current
  | finish i =>
    simp only [step]
    split
    · exact current
    · rename_i c v opened
      split
      · rename_i s' a ran
        exact release_current D current opened (D.frame ran) _
      · exact release_current D current opened (fun _ _ => rfl) _
  | abort i =>
    simp only [step]
    split
    · exact current
    · rename_i c v opened
      exact release_current D current opened (fun _ _ => rfl) sys.log

theorem run_current (D : Discipline κ ρ σ γ ε α) (s : σ) (es : List (Event γ)) :
    Current D (run D s es) := by
  apply EventRun.run_invariant (step_current D)
  intro i c v h
  cases h

theorem step_atomic (D : Discipline κ ρ σ γ ε α) {sys : System κ ρ σ γ ε α}
    (current : Current D sys) (e : Event γ) :
    ((step D sys e).store = sys.store ∧ (step D sys e).log = sys.log) ∨
    ∃ c, (step D sys e).store = (D.atomic c sys.store).1 ∧
      (step D sys e).log = sys.log ++ [(c, (D.atomic c sys.store).2)] := by
  cases e with
  | start i c =>
    left
    simp only [step]
    split <;> exact ⟨rfl, rfl⟩
  | finish i =>
    simp only [step]
    split
    · exact .inl ⟨rfl, rfl⟩
    · rename_i c v opened
      obtain ⟨seen, -⟩ := current i c v opened
      right
      refine ⟨c, ?_⟩
      unfold Discipline.atomic
      rw [← seen]
      split <;> exact ⟨rfl, rfl⟩
  | abort i =>
    left
    simp only [step]
    split <;> exact ⟨rfl, rfl⟩

theorem step_raise (D : Discipline κ ρ σ γ ε α) {sys : System κ ρ σ γ ε α}
    (current : Current D sys) {e : Event γ} {c : γ} {failure : ε}
    (raised : (step D sys e).log = sys.log ++ [(c, .error failure)]) :
    (step D sys e).store = sys.store := by
  obtain ⟨stored, -⟩ | ⟨c', stored, logged⟩ := step_atomic D current e
  · exact stored
  · rw [logged] at raised
    simp only [List.append_cancel_left_eq, List.cons.injEq, Prod.mk.injEq, and_true] at raised
    rw [stored]
    exact atomic_raise D raised.2

theorem run_invariant (D : Discipline κ ρ σ γ ε α) {I : σ → List (γ × Except ε α) → Prop}
    {s : σ} (initially : I s [])
    (preserved : ∀ s log c, I s log → I (D.atomic c s).1 (log ++ [(c, (D.atomic c s).2)]))
    (es : List (Event γ)) : I (run D s es).store (run D s es).log := by
  have start : Current D (initial s : System κ ρ σ γ ε α) := by
    intro i c v h
    cases h
  have both := EventRun.run_invariant
    (I := fun sys : System κ ρ σ γ ε α => Current D sys ∧ I sys.store sys.log)
    (fun sys e h => ⟨step_current D sys e h.1, ?_⟩) ⟨start, initially⟩ es
  · exact both.2
  · obtain ⟨hs, hl⟩ | ⟨c, hs, hl⟩ := step_atomic D h.1 e
    · rw [hs, hl]
      exact h.2
    · rw [hs, hl]
      exact preserved sys.store sys.log c h.2

def alone (cs : List γ) : List (Event γ) := cs.flatMap fun c => [.start 0 c, .finish 0]

def atomics (D : Discipline κ ρ σ γ ε α) (s : σ) : List γ → List (γ × Except ε α)
  | [] => []
  | c :: cs => (c, (D.atomic c s).2) :: atomics D (D.atomic c s).1 cs

theorem step_alone (D : Discipline κ ρ σ γ ε α) (s : σ) (log : List (γ × Except ε α)) (c : γ) :
    step D (step D ⟨s, fun _ => none, fun _ => none, log⟩ (.start 0 c)) (.finish 0) =
      ⟨(D.atomic c s).1, fun _ => none, fun _ => none, log ++ [(c, (D.atomic c s).2)]⟩ := by
  have free : ((D.lockKey c).bind fun _ : κ => (none : Option ℕ)) = none := by
    cases D.lockKey c <;> rfl
  have released : (fun k => if D.lockKey c = some k then none
      else if D.lockKey c = some k then some 0 else none : κ → Option ℕ) = fun _ => none := by
    funext k
    split <;> rfl
  have idle : (Function.update (Function.update (fun _ => none) 0 (some (c, D.locked c s))) 0 none :
      ℕ → Option (γ × Option ρ)) = fun _ => none := by
    funext i
    by_cases here : i = 0 <;> simp [here]
  simp only [step, free, Function.update_self, Discipline.atomic, release]
  split <;> simp [released, idle]

theorem run_alone_log (D : Discipline κ ρ σ γ ε α) (s : σ) (cs : List γ) :
    (run D s (alone cs)).log = atomics D s cs := by
  have general : ∀ log, (EventRun.run (step D) ⟨s, fun _ => none, fun _ => none, log⟩
      (alone cs)).log = log ++ atomics D s cs := by
    induction cs generalizing s with
    | nil => exact fun log => (List.append_nil log).symm
    | cons c cs ih =>
      intro log
      rw [alone, List.flatMap_cons, ← alone, List.cons_append, List.cons_append, List.nil_append,
        EventRun.run_cons, EventRun.run_cons, step_alone, ih, atomics, List.append_assoc]
      rfl
  exact general []

end Mirage.RowLocks
