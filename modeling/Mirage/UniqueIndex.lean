import Mathlib.Data.List.Nodup
import Mathlib.Data.Fintype.Basic
import Mathlib.Logic.Function.Basic

/-! Unique indexes under concurrent transactions that only insert. A connection has at
most one open transaction, and what a transaction wrote is seen by the others from its
commit on. -/

namespace Mirage.UniqueIndex

structure Store (n : ℕ) (τ : Type) where
  committed : List τ
  opened : Fin n → Option τ

inductive Verdict where
  | free
  | waits
  | taken

variable {n : ℕ} {τ κ : Type}

namespace Store

def set (s : Store n τ) (i : Fin n) (t : τ) : Store n τ :=
  { s with opened := Function.update s.opened i (some t) }

def rollBack (s : Store n τ) (i : Fin n) : Store n τ :=
  { s with opened := Function.update s.opened i none }

def commit (s : Store n τ) (i : Fin n) (t : τ) : Store n τ :=
  { committed := s.committed ++ [t], opened := Function.update s.opened i none }

@[simp] theorem set_committed (s : Store n τ) (i : Fin n) (t : τ) :
    (s.set i t).committed = s.committed := rfl

@[simp] theorem rollBack_committed (s : Store n τ) (i : Fin n) :
    (s.rollBack i).committed = s.committed := rfl

@[simp] theorem commit_committed (s : Store n τ) (i : Fin n) (t : τ) :
    (s.commit i t).committed = s.committed ++ [t] := rfl

theorem opened_set {s : Store n τ} {i j : Fin n} {t t' : τ}
    (h : (s.set i t).opened j = some t') : j = i ∧ t' = t ∨ j ≠ i ∧ s.opened j = some t' := by
  by_cases same : j = i
  · subst same
    simp only [set, Function.update_self, Option.some.injEq] at h
    exact .inl ⟨rfl, h.symm⟩
  · simp only [set, Function.update_of_ne same] at h
    exact .inr ⟨same, h⟩

theorem opened_rollBack {s : Store n τ} {i j : Fin n} {t : τ}
    (h : (s.rollBack i).opened j = some t) : j ≠ i ∧ s.opened j = some t := by
  by_cases same : j = i
  · subst same
    simp [rollBack] at h
  · simp only [rollBack, Function.update_of_ne same] at h
    exact ⟨same, h⟩

theorem opened_commit {s : Store n τ} {i j : Fin n} {t t' : τ}
    (h : (s.commit i t).opened j = some t') : j ≠ i ∧ s.opened j = some t' :=
  opened_rollBack h

end Store

def keys (column : τ → Option κ) (s : Store n τ) : List κ := s.committed.filterMap column

/-- The uniqueness check of an insert by connection `i`; a null is never a conflict. -/
def check [DecidableEq κ] (column : τ → Option κ) (s : Store n τ) (i : Fin n) : Option κ → Verdict
  | none => .free
  | some key =>
    if key ∈ keys column s then .taken
    else if ∃ j, j ≠ i ∧ (s.opened j).bind column = some key then .waits
    else .free

theorem check_free [DecidableEq κ] {column : τ → Option κ} {s : Store n τ} {i : Fin n} {key : κ}
    (h : check column s i (some key) = .free) :
    key ∉ keys column s ∧ ∀ j t, j ≠ i → s.opened j = some t → column t ≠ some key := by
  simp only [check] at h
  split at h
  · cases h
  next fresh =>
    split at h
    · cases h
    next alone =>
      refine ⟨fresh, fun j t other found same => alone ⟨j, other, ?_⟩⟩
      rw [found, Option.bind_some]
      exact same

structure Unique (column : τ → Option κ) (s : Store n τ) : Prop where
  nodup : (keys column s).Nodup
  fresh : ∀ i t key, s.opened i = some t → column t = some key → key ∉ keys column s
  apart : ∀ i j t t' key, s.opened i = some t → s.opened j = some t' → column t = some key →
    column t' = some key → i = j

theorem unique_empty (column : τ → Option κ) : Unique column (⟨[], fun _ => none⟩ : Store n τ) where
  nodup := List.nodup_nil
  fresh := fun _ _ _ found => absurd found.symm (Option.some_ne_none _)
  apart := fun _ _ _ _ _ found => absurd found.symm (Option.some_ne_none _)

/-- A transaction goes on to where its key, if it has one, is the one it had
or one that no other transaction has. -/
theorem Unique.set {column : τ → Option κ} {s : Store n τ} (unique : Unique column s) {i : Fin n}
    {t : τ} (new : ∀ key, column t = some key → (∃ t', s.opened i = some t' ∧ column t' = some key) ∨
      key ∉ keys column s ∧ ∀ j t', j ≠ i → s.opened j = some t' → column t' ≠ some key) :
    Unique column (s.set i t) := by
  have fresh : ∀ key, column t = some key → key ∉ keys column s := by
    intro key has
    rcases new key has with ⟨t', found, had⟩ | ⟨fresh, -⟩
    · exact unique.fresh i t' key found had
    · exact fresh
  have alone : ∀ j t' key, j ≠ i → s.opened j = some t' → column t = some key →
      column t' ≠ some key := by
    intro j t' key other found has same
    rcases new key has with ⟨t₀, found₀, had⟩ | ⟨-, alone⟩
    · exact other (unique.apart j i t' t₀ key found found₀ same had)
    · exact alone j t' other found same
  refine ⟨unique.nodup, fun j t' key found has => ?_, fun j k t₁ t₂ key found₁ found₂ has₁ has₂ => ?_⟩
  · rcases Store.opened_set found with ⟨rfl, rfl⟩ | ⟨-, before⟩
    · exact fresh key has
    · exact unique.fresh j t' key before has
  · rcases Store.opened_set found₁ with ⟨rfl, rfl⟩ | ⟨other₁, before₁⟩
    · rcases Store.opened_set found₂ with ⟨rfl, rfl⟩ | ⟨other₂, before₂⟩
      · rfl
      · exact absurd has₂ (alone k t₂ key other₂ before₂ has₁)
    · rcases Store.opened_set found₂ with ⟨rfl, rfl⟩ | ⟨-, before₂⟩
      · exact absurd has₁ (alone j t₁ key other₁ before₁ has₂)
      · exact unique.apart j k t₁ t₂ key before₁ before₂ has₁ has₂

theorem Unique.set_same {column : τ → Option κ} {s : Store n τ} (unique : Unique column s)
    {i : Fin n} {t t' : τ} (found : s.opened i = some t) (same : column t' = column t) :
    Unique column (s.set i t') :=
  unique.set fun _ has => .inl ⟨t, found, same ▸ has⟩

theorem Unique.set_none {column : τ → Option κ} {s : Store n τ} (unique : Unique column s)
    {i : Fin n} {t : τ} (none : column t = none) : Unique column (s.set i t) :=
  unique.set fun key has => absurd (none.symm.trans has).symm (Option.some_ne_none key)

theorem Unique.set_free [DecidableEq κ] {column : τ → Option κ} {s : Store n τ}
    (unique : Unique column s) {i : Fin n} {t : τ} (free : check column s i (column t) = .free) :
    Unique column (s.set i t) := by
  refine unique.set fun key has => ?_
  rw [has] at free
  exact .inr (check_free free)

theorem Unique.rollBack {column : τ → Option κ} {s : Store n τ} (unique : Unique column s)
    (i : Fin n) : Unique column (s.rollBack i) := by
  refine ⟨unique.nodup, fun j t key found has => ?_, fun j k t₁ t₂ key found₁ found₂ => ?_⟩
  · exact unique.fresh j t key (Store.opened_rollBack found).2 has
  · exact unique.apart j k t₁ t₂ key (Store.opened_rollBack found₁).2
      (Store.opened_rollBack found₂).2

theorem keys_commit (column : τ → Option κ) (s : Store n τ) (i : Fin n) (t : τ) :
    keys column (s.commit i t) = keys column s ++ (column t).toList := by
  cases has : column t <;> simp [keys, has]

theorem Unique.commit {column : τ → Option κ} {s : Store n τ} (unique : Unique column s)
    {i : Fin n} {t : τ} (found : s.opened i = some t) : Unique column (s.commit i t) := by
  refine ⟨?_, fun j t' key found' has => ?_, fun j k t₁ t₂ key found₁ found₂ => ?_⟩
  · rw [keys_commit, List.nodup_append]
    refine ⟨unique.nodup, by cases column t <;> simp, fun key old key' new => ?_⟩
    rw [Option.mem_toList] at new
    rintro rfl
    exact unique.fresh i t key found new old
  · obtain ⟨other, before⟩ := Store.opened_commit found'
    rw [keys_commit, List.mem_append, Option.mem_toList]
    rintro (old | new)
    · exact unique.fresh j t' key before has old
    · exact other (unique.apart j i t' t key before found has new)
  · exact unique.apart j k t₁ t₂ key (Store.opened_commit found₁).2 (Store.opened_commit found₂).2

theorem Unique.eq_of_key {column : τ → Option κ} {s : Store n τ} (unique : Unique column s)
    {t t' : τ} {key : κ} (mem : t ∈ s.committed) (mem' : t' ∈ s.committed)
    (has : column t = some key) (has' : column t' = some key) : t = t' := by
  have nodup := unique.nodup
  unfold keys at nodup
  generalize s.committed = l at mem mem' nodup
  induction l with
  | nil => cases mem
  | cons head rest ih =>
    have later : ∀ t₁ ∈ rest, column t₁ = some key → key ∈ rest.filterMap column :=
      fun t₁ mem₁ has₁ => List.mem_filterMap.mpr ⟨t₁, mem₁, has₁⟩
    rcases List.mem_cons.mp mem with rfl | inRest
    · rcases List.mem_cons.mp mem' with rfl | inRest'
      · rfl
      · rw [List.filterMap_cons_some has, List.nodup_cons] at nodup
        exact absurd (later t' inRest' has') nodup.1
    · rcases List.mem_cons.mp mem' with rfl | inRest'
      · rw [List.filterMap_cons_some has', List.nodup_cons] at nodup
        exact absurd (later t inRest has) nodup.1
      · refine ih inRest inRest' ?_
        cases head' : column head with
        | none => rwa [List.filterMap_cons_none head'] at nodup
        | some other =>
          rw [List.filterMap_cons_some head', List.nodup_cons] at nodup
          exact nodup.2

/-- Exactly one row belongs to a key, where every transaction with the key has
written one and the others none that `p` picks. -/
theorem Unique.countP_rows {ρ : Type} [DecidableEq κ] {column : τ → Option κ} {s : Store n τ}
    (unique : Unique column s) {row : τ → Option ρ} {p : ρ → Bool} {t : τ} {key : κ} {r : ρ}
    (mem : t ∈ s.committed) (has : column t = some key) (wrote : row t = some r)
    (reads : ∀ t' ∈ s.committed, ∀ r', row t' = some r' → (p r' = true ↔ column t' = some key)) :
    (s.committed.filterMap row).countP p = 1 := by
  have same : ∀ t' ∈ s.committed, ((Option.map p (row t')).getD false = true ↔ column t' = some key) := by
    intro t' mem'
    cases wrote' : row t' with
    | some r' => exact reads t' mem' r' wrote'
    | none =>
      refine iff_of_false Bool.false_ne_true fun has' => ?_
      rw [unique.eq_of_key mem' mem has' has, wrote] at wrote'
      cases wrote'
  have present : key ∈ keys column s := List.mem_filterMap.mpr ⟨t, mem, has⟩
  have once := List.count_eq_one_of_mem unique.nodup present
  rw [keys, List.count_eq_countP, List.countP_filterMap] at once
  rw [List.countP_filterMap]
  refine Eq.trans (List.countP_congr fun t' mem' => ?_) once
  rw [same t' mem']
  cases column t' <;> simp

end Mirage.UniqueIndex
