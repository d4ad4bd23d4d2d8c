import Mathlib.Data.List.Basic

/-! Actions that change a state, may raise, and log what they touch. What was done before
an exception stays done. -/

namespace Mirage.Effects

structure Done (ε σ ι α : Type) where
  result : Except ε α
  state : σ
  log : List ι

abbrev Act (ε σ ι α : Type) : Type := σ → Done ε σ ι α

variable {ε σ ι α β : Type}

def Act.bind (m : Act ε σ ι α) (f : α → Act ε σ ι β) : Act ε σ ι β := fun s =>
  match (m s).result with
  | .ok a =>
    ⟨(f a (m s).state).result, (f a (m s).state).state, (m s).log ++ (f a (m s).state).log⟩
  | .error e => ⟨.error e, (m s).state, (m s).log⟩

instance : Monad (Act ε σ ι) where
  pure a := fun s => ⟨.ok a, s, []⟩
  bind := Act.bind

def raise (e : ε) : Act ε σ ι α := fun s => ⟨.error e, s, []⟩

def look (f : σ → Except ε α) : Act ε σ ι α := fun s => ⟨f s, s, []⟩

def change (e : ε) (f : σ → Option (σ × List ι)) : Act ε σ ι Unit := fun s =>
  match f s with
  | some (s', log) => ⟨.ok (), s', log⟩
  | none => ⟨.error e, s, []⟩

def onError (m : Act ε σ ι α) (handler : Act ε σ ι Unit) : Act ε σ ι α := fun s =>
  match (m s).result with
  | .ok _ => m s
  | .error e =>
    ⟨(handler (m s).state).result.bind fun _ => .error e, (handler (m s).state).state,
      (m s).log ++ (handler (m s).state).log⟩

theorem bind_ok {m : Act ε σ ι α} {f : α → Act ε σ ι β} {s : σ} {a : α}
    (ran : (m s).result = .ok a) : (m >>= f) s =
      ⟨(f a (m s).state).result, (f a (m s).state).state, (m s).log ++ (f a (m s).state).log⟩ := by
  show Act.bind m f s = _
  rw [Act.bind, ran]

theorem bind_error {m : Act ε σ ι α} {f : α → Act ε σ ι β} {s : σ} {e : ε}
    (raised : (m s).result = .error e) : (m >>= f) s = ⟨.error e, (m s).state, (m s).log⟩ := by
  show Act.bind m f s = _
  rw [Act.bind, raised]

theorem bind_of_ok {m : Act ε σ ι α} {s s' : σ} {a : α} {log : List ι} (ran : m s = ⟨.ok a, s', log⟩)
    (f : α → Act ε σ ι β) :
    (m >>= f) s = ⟨(f a s').result, (f a s').state, log ++ (f a s').log⟩ := by
  rw [bind_ok (a := a) (by rw [ran]), ran]

theorem bind_of_error {m : Act ε σ ι α} {s s' : σ} {e : ε} {log : List ι}
    (ran : m s = ⟨.error e, s', log⟩) (f : α → Act ε σ ι β) :
    (m >>= f) s = ⟨.error e, s', log⟩ := by
  rw [bind_error (e := e) (by rw [ran]), ran]

theorem bind_assoc {γ : Type} (m : Act ε σ ι α) (f : α → Act ε σ ι β) (g : β → Act ε σ ι γ) :
    (m >>= f) >>= g = m >>= fun a => f a >>= g := by
  funext s
  show Act.bind (Act.bind m f) g s = Act.bind m (fun a => Act.bind (f a) g) s
  simp only [Act.bind]
  cases (m s).result with
  | error e => rfl
  | ok a =>
    dsimp only
    cases (f a (m s).state).result with
    | error e => rfl
    | ok b => simp only [List.append_assoc]

@[simp] theorem pure_run (a : α) (s : σ) : (pure a : Act ε σ ι α) s = ⟨.ok a, s, []⟩ := rfl

@[simp] theorem raise_run (e : ε) (s : σ) : (raise e : Act ε σ ι α) s = ⟨.error e, s, []⟩ := rfl

@[simp] theorem look_run (f : σ → Except ε α) (s : σ) :
    (look f : Act ε σ ι α) s = ⟨f s, s, []⟩ := rfl

theorem look_bind_error {f : σ → Except ε α} {g : α → Act ε σ ι β} {s : σ} {e : ε}
    (failed : f s = .error e) : (look f >>= g) s = ⟨.error e, s, []⟩ :=
  bind_error failed

theorem look_bind_ok {f : σ → Except ε α} {g : α → Act ε σ ι β} {s : σ} {a : α}
    (read : f s = .ok a) : (look f >>= g) s = g a s :=
  bind_ok read

theorem change_some {e : ε} {f : σ → Option (σ × List ι)} {s s' : σ} {log : List ι}
    (made : f s = some (s', log)) : change e f s = ⟨.ok (), s', log⟩ := by
  rw [change, made]

theorem change_none {e : ε} {f : σ → Option (σ × List ι)} {s : σ} (refused : f s = none) :
    change e f s = ⟨.error e, s, []⟩ := by
  rw [change, refused]

theorem change_bind_none {e : ε} {f : σ → Option (σ × List ι)} {s : σ} (refused : f s = none)
    (g : Unit → Act ε σ ι β) : (change e f >>= g) s = ⟨.error e, s, []⟩ :=
  bind_of_error (change_none refused) g

theorem change_bind_some {e : ε} {f : σ → Option (σ × List ι)} {s s' : σ} {log : List ι}
    (made : f s = some (s', log)) (g : Unit → Act ε σ ι β) : (change e f >>= g) s =
      ⟨(g () s').result, (g () s').state, log ++ (g () s').log⟩ :=
  bind_of_ok (change_some made) g

def Within (P : ι → Prop) (m : Act ε σ ι α) (s : σ) : Prop := ∀ i ∈ (m s).log, P i

@[simp] theorem within_pure (P : ι → Prop) (a : α) (s : σ) :
    Within P (pure a : Act ε σ ι α) s ↔ True := by
  simp [Within]

@[simp] theorem within_raise (P : ι → Prop) (e : ε) (s : σ) :
    Within P (raise e : Act ε σ ι α) s ↔ True := by
  simp [Within]

@[simp] theorem within_look (P : ι → Prop) (f : σ → Except ε α) (s : σ) :
    Within P (look f : Act ε σ ι α) s ↔ True := by
  simp [Within]

theorem within_change (P : ι → Prop) (e : ε) (f : σ → Option (σ × List ι)) (s : σ) :
    Within P (change e f) s ↔ ∀ s' log, f s = some (s', log) → ∀ i ∈ log, P i := by
  unfold Within change
  cases made : f s with
  | none => simp
  | some done =>
    obtain ⟨s', log⟩ := done
    simp

theorem within_bind (P : ι → Prop) (m : Act ε σ ι α) (f : α → Act ε σ ι β) (s : σ) :
    Within P (m >>= f) s ↔
      Within P m s ∧ ∀ a, (m s).result = .ok a → Within P (f a) (m s).state := by
  unfold Within
  cases ran : (m s).result with
  | ok a =>
    rw [bind_ok ran]
    simp [or_imp, forall_and]
  | error e =>
    rw [bind_error ran]
    simp

theorem within_look_bind (P : ι → Prop) (f : σ → Except ε α) (g : α → Act ε σ ι β) (s : σ) :
    Within P (look f >>= g) s ↔ ∀ a, f s = .ok a → Within P (g a) s := by
  rw [within_bind]
  simp

theorem within_pure_bind (P : ι → Prop) (a : α) (g : α → Act ε σ ι β) (s : σ) :
    Within P ((pure a : Act ε σ ι α) >>= g) s ↔ Within P (g a) s := by
  rw [within_bind]
  simp

theorem within_change_bind (P : ι → Prop) (e : ε) (f : σ → Option (σ × List ι))
    (g : Unit → Act ε σ ι β) (s : σ) :
    Within P (change e f >>= g) s ↔
      ∀ s' log, f s = some (s', log) → (∀ i ∈ log, P i) ∧ Within P (g ()) s' := by
  rw [within_bind, within_change]
  cases made : f s with
  | none => simp [change, made]
  | some done =>
    obtain ⟨s', log⟩ := done
    rw [change_some made]
    constructor
    · rintro ⟨logged, rest⟩ s'' log' same
      cases same
      exact ⟨logged s' log rfl, rest () rfl⟩
    · intro h
      refine ⟨fun s'' log' same => ?_, fun a ran => (h s' log rfl).2⟩
      cases same
      exact (h s' log rfl).1

theorem within_onError (P : ι → Prop) (m : Act ε σ ι α) (handler : Act ε σ ι Unit) (s : σ) :
    Within P (onError m handler) s ↔
      Within P m s ∧ ∀ e, (m s).result = .error e → Within P handler (m s).state := by
  unfold Within onError
  cases ran : (m s).result with
  | ok a => simp
  | error e => simp [or_imp, forall_and]

theorem within_onError_bind_error {P : ι → Prop} {m : Act ε σ ι α} {handler : Act ε σ ι Unit}
    {g : α → Act ε σ ι β} {s s' : σ} {e : ε} {log : List ι} (ran : m s = ⟨.error e, s', log⟩) :
    Within P (onError m handler >>= g) s ↔ (∀ i ∈ log, P i) ∧ Within P handler s' := by
  rw [within_bind, within_onError]
  have raised : (m s).result = .error e := by rw [ran]
  have never : ∀ a, (onError m handler s).result ≠ .ok a := by
    intro a
    simp only [onError, raised]
    cases (handler (m s).state).result with
    | error e' => exact fun same => nomatch same
    | ok u => exact fun same => nomatch same
  simp [Within, ran, never]

theorem within_onError_bind_ok {P : ι → Prop} {m : Act ε σ ι α} {handler : Act ε σ ι Unit}
    {g : α → Act ε σ ι β} {s s' : σ} {a : α} {log : List ι} (ran : m s = ⟨.ok a, s', log⟩) :
    Within P (onError m handler >>= g) s ↔ (∀ i ∈ log, P i) ∧ Within P (g a) s' := by
  have same : onError m handler s = m s := by simp only [onError, ran]
  rw [within_bind, within_onError, same]
  simp [Within, ran]

/-! How the log accounts for the change. -/

structure Account (R : List ι → σ → σ → Prop) : Prop where
  refl : ∀ s, R [] s s
  trans : ∀ log log' s s' s'', R log s s' → R log' s' s'' → R (log ++ log') s s''

def Obeys (R : List ι → σ → σ → Prop) (m : Act ε σ ι α) : Prop :=
  ∀ s, R (m s).log s (m s).state

variable {R : List ι → σ → σ → Prop}

theorem obeys_pure (account : Account R) (a : α) : Obeys R (pure a : Act ε σ ι α) :=
  fun s => account.refl s

theorem obeys_raise (account : Account R) (e : ε) : Obeys R (raise e : Act ε σ ι α) :=
  fun s => account.refl s

theorem obeys_look (account : Account R) (f : σ → Except ε α) : Obeys R (look f : Act ε σ ι α) :=
  fun s => account.refl s

theorem obeys_change (account : Account R) (e : ε) {f : σ → Option (σ × List ι)}
    (accounted : ∀ s s' log, f s = some (s', log) → R log s s') : Obeys R (change e f) := by
  intro s
  cases made : f s with
  | none =>
    rw [change_none made]
    exact account.refl s
  | some done =>
    rw [change_some made]
    exact accounted s _ _ made

theorem obeys_bind (account : Account R) {m : Act ε σ ι α} {f : α → Act ε σ ι β}
    (first : Obeys R m) (rest : ∀ a, Obeys R (f a)) : Obeys R (m >>= f) := by
  intro s
  cases ran : (m s).result with
  | ok a =>
    rw [bind_ok ran]
    exact account.trans _ _ _ _ _ (first s) (rest a _)
  | error e =>
    rw [bind_error ran]
    exact first s

theorem obeys_onError (account : Account R) {m : Act ε σ ι α} {handler : Act ε σ ι Unit}
    (first : Obeys R m) (second : Obeys R handler) : Obeys R (onError m handler) := by
  intro s
  unfold onError
  split
  · exact first s
  · exact account.trans _ _ _ _ _ (first s) (second _)

def Raises (Q : ε → Prop) (m : Act ε σ ι α) : Prop := ∀ s e, (m s).result = .error e → Q e

variable {Q : ε → Prop}

theorem raises_pure (a : α) : Raises Q (pure a : Act ε σ ι α) := fun _ _ raised => nomatch raised

theorem raises_change {e : ε} (allowed : Q e) (f : σ → Option (σ × List ι)) : Raises Q (change e f) := by
  intro s e' raised
  cases made : f s with
  | none =>
    rw [change_none made] at raised
    cases raised
    exact allowed
  | some done =>
    rw [change_some made] at raised
    cases raised

theorem raises_bind {m : Act ε σ ι α} {f : α → Act ε σ ι β} (first : Raises Q m)
    (rest : ∀ a, Raises Q (f a)) : Raises Q (m >>= f) := by
  intro s e raised
  cases ran : (m s).result with
  | ok a =>
    rw [bind_ok ran] at raised
    exact rest a _ e raised
  | error e' =>
    rw [bind_error ran] at raised
    cases raised
    exact first s e ran

theorem raises_onError {m : Act ε σ ι α} {handler : Act ε σ ι Unit} (first : Raises Q m)
    (second : Raises Q handler) : Raises Q (onError m handler) := by
  intro s e raised
  cases ran : (m s).result with
  | ok a =>
    simp only [onError, ran] at raised
    cases raised
  | error e' =>
    simp only [onError, ran] at raised
    cases ended : (handler (m s).state).result with
    | ok u =>
      rw [ended] at raised
      cases raised
      exact first s e ran
    | error e'' =>
      rw [ended] at raised
      cases raised
      exact second _ e ended

/-! What an action that fails leaves behind. -/

def Leaves (Q : σ → Prop) (m : Act ε σ ι α) (s : σ) : Prop :=
  ∀ e, (m s).result = .error e → Q (m s).state

section
variable {Q : σ → Prop} {s : σ}

theorem leaves_pure (Q : σ → Prop) (a : α) (s : σ) : Leaves Q (pure a : Act ε σ ι α) s :=
  fun _ raised => nomatch raised

theorem leaves_raise (kept : Q s) (e : ε) : Leaves Q (raise e : Act ε σ ι α) s := fun _ _ => kept

theorem leaves_change (kept : Q s) (e : ε) (f : σ → Option (σ × List ι)) : Leaves Q (change e f) s := by
  intro e' raised
  cases made : f s with
  | none =>
    rw [change_none made]
    exact kept
  | some done =>
    rw [change_some made] at raised
    cases raised

theorem leaves_bind {m : Act ε σ ι α} {f : α → Act ε σ ι β} (first : Leaves Q m s)
    (rest : ∀ a s' log, m s = ⟨.ok a, s', log⟩ → Leaves Q (f a) s') : Leaves Q (m >>= f) s := by
  intro e raised
  cases ran : m s with
  | mk result s' log =>
    cases result with
    | error e' =>
      rw [bind_of_error ran]
      have left := first e' (by rw [ran])
      rwa [ran] at left
    | ok a =>
      rw [bind_of_ok ran] at raised ⊢
      exact rest a s' log ran e raised

theorem leaves_look_bind {f : σ → Except ε α} {g : α → Act ε σ ι β} (kept : Q s)
    (rest : ∀ a, f s = .ok a → Leaves Q (g a) s) : Leaves Q (look f >>= g) s := by
  refine leaves_bind (fun _ _ => kept) fun a s' log ran => ?_
  have read := congrArg Done.result ran
  have same := congrArg Done.state ran
  cases same
  exact rest a read

theorem leaves_read_bind {f : σ → Except ε α} {g : α → Act ε σ ι β} {a : α} (read : f s = .ok a)
    (rest : Leaves Q (g a) s) : Leaves Q (look f >>= g) s := by
  intro e raised
  rw [look_bind_ok read] at raised ⊢
  exact rest e raised

theorem leaves_change_bind {e : ε} {f : σ → Option (σ × List ι)} {g : Unit → Act ε σ ι β} (kept : Q s)
    (rest : ∀ s' log, f s = some (s', log) → Leaves Q (g ()) s') : Leaves Q (change e f >>= g) s := by
  refine leaves_bind (leaves_change kept e f) fun u s' log ran => ?_
  cases made : f s with
  | none =>
    rw [change_none made] at ran
    cases ran
  | some done =>
    rw [change_some made] at ran
    cases ran
    exact rest _ _ made

theorem leaves_bind_pure {m : Act ε σ ι α} (left : Leaves Q m s) (f : α → β) :
    Leaves Q (m >>= fun a => (pure (f a) : Act ε σ ι β)) s :=
  leaves_bind left fun a s' _ _ => leaves_pure Q (f a) s'

theorem leaves_onError {m : Act ε σ ι α} {handler : Act ε σ ι Unit}
    (left : ∀ e s' log, m s = ⟨.error e, s', log⟩ → Q (handler s').state) :
    Leaves Q (onError m handler) s := by
  intro e raised
  cases ran : m s with
  | mk result s' log =>
    cases result with
    | error e' =>
      simp only [onError, ran]
      exact left e' s' log ran
    | ok a =>
      simp only [onError, ran] at raised
      cases raised

end

/-! What an action that succeeds has done. -/

def Gives (Q : α → σ → Prop) (m : Act ε σ ι α) (s : σ) : Prop :=
  ∀ a, (m s).result = .ok a → Q a (m s).state

section
variable {s : σ}

theorem gives_bind {Q : β → σ → Prop} {m : Act ε σ ι α} {f : α → Act ε σ ι β}
    (rest : ∀ a, (m s).result = .ok a → Gives Q (f a) (m s).state) : Gives Q (m >>= f) s := by
  intro b given
  cases ran : (m s).result with
  | error e =>
    rw [bind_error ran] at given
    cases given
  | ok a =>
    rw [bind_ok ran] at given ⊢
    exact rest a ran b given

theorem gives_change_bind {Q : β → σ → Prop} {e : ε} {f : σ → Option (σ × List ι)} {g : Unit → Act ε σ ι β}
    (rest : ∀ s' log, f s = some (s', log) → Gives Q (g ()) s') : Gives Q (change e f >>= g) s := by
  refine gives_bind fun u given => ?_
  cases made : f s with
  | none =>
    rw [change_none made] at given
    cases given
  | some done =>
    rw [change_some made]
    exact rest _ _ made

theorem gives_change {Q : Unit → σ → Prop} {e : ε} {f : σ → Option (σ × List ι)}
    (rest : ∀ s' log, f s = some (s', log) → Q () s') : Gives Q (change e f) s := by
  intro u given
  cases made : f s with
  | none =>
    rw [change_none made] at given
    cases given
  | some done =>
    rw [change_some made]
    exact rest _ _ made

end

end Mirage.Effects
