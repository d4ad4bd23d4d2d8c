import Mathlib.Data.List.Nodup
import Mathlib.Data.List.Perm.Basic

/-! Tables with a primary key. Rows stand in insertion order and no two of
them share a key: the constraint is a field, so a table that breaks it cannot
be built. Inserting a second row under a key fails, as the database does. -/

namespace Mirage

structure KeyedTable {ρ κ : Type} (key : ρ → κ) where
  rows : List ρ
  unique : (rows.map key).Nodup

namespace KeyedTable

variable {ρ κ : Type} {key : ρ → κ}

def empty : KeyedTable key := ⟨[], List.nodup_nil⟩

theorem key_injective (t : KeyedTable key) {a b : ρ} (ha : a ∈ t.rows) (hb : b ∈ t.rows)
    (same : key a = key b) : a = b :=
  List.inj_on_of_nodup_map t.unique ha hb same

variable [DecidableEq κ]

def find (t : KeyedTable key) (k : κ) : Option ρ := t.rows.find? fun r => key r = k

theorem find_eq_some (t : KeyedTable key) {k : κ} {r : ρ} :
    t.find k = some r ↔ r ∈ t.rows ∧ key r = k := by
  constructor
  · intro h
    exact ⟨List.mem_of_find?_eq_some h, by simpa using List.find?_some h⟩
  · rintro ⟨hr, rfl⟩
    cases h : t.find (key r) with
    | none =>
      have := List.find?_eq_none.mp h r hr
      simp at this
    | some r' =>
      have hk : key r' = key r := by simpa using List.find?_some h
      rw [t.key_injective (List.mem_of_find?_eq_some h) hr hk]

theorem find_eq_none (t : KeyedTable key) {k : κ} :
    t.find k = none ↔ k ∉ t.rows.map key := by
  simp [find, List.find?_eq_none]

theorem find_of_mem (t : KeyedTable key) {r : ρ} (h : r ∈ t.rows) : t.find (key r) = some r :=
  t.find_eq_some.mpr ⟨h, rfl⟩

theorem mem_of_find (t : KeyedTable key) {k : κ} {r : ρ} (h : t.find k = some r) : r ∈ t.rows :=
  (t.find_eq_some.mp h).1

theorem key_of_find (t : KeyedTable key) {k : κ} {r : ρ} (h : t.find k = some r) : key r = k :=
  (t.find_eq_some.mp h).2

def insert (t : KeyedTable key) (r : ρ) : Option (KeyedTable key) :=
  if fresh : key r ∈ t.rows.map key then none
  else some ⟨t.rows ++ [r], by
    rw [List.map_append, List.nodup_append]
    refine ⟨t.unique, by simp, ?_⟩
    intro a ha b hb
    simp only [List.map_cons, List.map_nil, List.mem_singleton] at hb
    subst hb
    rintro rfl
    exact fresh ha⟩

theorem insert_eq_some {t t' : KeyedTable key} {r : ρ} (h : t.insert r = some t') :
    key r ∉ t.rows.map key ∧ t'.rows = t.rows ++ [r] := by
  unfold insert at h
  split at h
  · cases h
  · cases h
    exact ⟨‹_›, rfl⟩

theorem insert_isSome {t : KeyedTable key} {r : ρ} (fresh : key r ∉ t.rows.map key) :
    ∃ t', t.insert r = some t' := by
  simp [insert, fresh]

theorem find_insert {t t' : KeyedTable key} {r : ρ} (h : t.insert r = some t') (k : κ) :
    t'.find k = if key r = k then some r else t.find k := by
  obtain ⟨fresh, rows⟩ := insert_eq_some h
  unfold find
  rw [rows, List.find?_append]
  split
  · rename_i hk
    subst hk
    have old := t.find_eq_none.mpr fresh
    unfold find at old
    simp [old]
  · rename_i hk
    simp [hk]

/-- `UPDATE … WHERE key = k`, for a change that leaves the key alone. -/
def update (t : KeyedTable key) (k : κ) (f : ρ → ρ) (keeps : ∀ r, key (f r) = key r) :
    KeyedTable key :=
  ⟨t.rows.map fun r => if key r = k then f r else r, by
    have : (t.rows.map fun r => if key r = k then f r else r).map key = t.rows.map key := by
      rw [List.map_map]
      apply List.map_congr_left
      intro r _
      by_cases h : key r = k <;> simp [h, keeps]
    rw [this]
    exact t.unique⟩

theorem find_update (t : KeyedTable key) (k : κ) (f : ρ → ρ) (keeps : ∀ r, key (f r) = key r)
    (j : κ) : (t.update k f keeps).find j = if j = k then (t.find k).map f else t.find j := by
  unfold find update
  simp only [List.find?_map]
  have same : ((fun r => decide (key r = j)) ∘ fun r => if key r = k then f r else r) =
      fun r => decide (key r = j) := by
    funext r
    by_cases h : key r = k <;> simp [h, keeps]
  rw [same]
  split
  · rename_i hj
    subst hj
    cases h : t.rows.find? fun r => decide (key r = j) with
    | none => rfl
    | some r =>
      have hk : key r = j := by simpa using List.find?_some h
      simp [hk]
  · rename_i hj
    cases h : t.rows.find? fun r => decide (key r = j) with
    | none => rfl
    | some r =>
      have hk : key r = j := by simpa using List.find?_some h
      simp [hk, hj]

def upsert (t : KeyedTable key) (r : ρ) (merge : ρ → ρ) (keeps : ∀ r, key (merge r) = key r) :
    KeyedTable key :=
  (t.insert r).getD (t.update (key r) merge keeps)

theorem find_upsert (t : KeyedTable key) (r : ρ) (merge : ρ → ρ)
    (keeps : ∀ r, key (merge r) = key r) (k : κ) :
    (t.upsert r merge keeps).find k =
      if k = key r then some (((t.find (key r)).map merge).getD r) else t.find k := by
  unfold upsert
  cases h : t.insert r with
  | some t' =>
    have absent := t.find_eq_none.mpr (insert_eq_some h).1
    rw [Option.getD_some, find_insert h, absent]
    simp [eq_comm]
  | none =>
    have taken : key r ∈ t.rows.map key := by
      by_contra fresh
      obtain ⟨t', ht'⟩ := insert_isSome fresh
      rw [h] at ht'
      cases ht'
    cases hf : t.find (key r) with
    | none => exact absurd taken (t.find_eq_none.mp hf)
    | some old =>
      rw [Option.getD_none, find_update, hf]
      rfl

theorem upsert_of_absent {t : KeyedTable key} {r : ρ} {merge : ρ → ρ}
    (keeps : ∀ r, key (merge r) = key r) (absent : t.find (key r) = none) :
    (t.upsert r merge keeps).rows = t.rows ++ [r] := by
  obtain ⟨t', inserted⟩ := insert_isSome (t.find_eq_none.mp absent)
  rw [upsert, inserted, Option.getD_some, (insert_eq_some inserted).2]

theorem filter_upsert (t : KeyedTable key) (r : ρ) (merge : ρ → ρ)
    (keeps : ∀ r, key (merge r) = key r) :
    ((t.upsert r merge keeps).rows.filter fun row => key row ≠ key r) =
      t.rows.filter fun row => key row ≠ key r := by
  unfold upsert
  cases h : t.insert r with
  | some t' =>
    rw [Option.getD_some, (insert_eq_some h).2, List.filter_append]
    simp
  | none =>
    rw [Option.getD_none, update, List.filter_map]
    have other : ((fun row => decide (key row ≠ key r)) ∘
        fun row => if key row = key r then merge row else row) = fun row => decide (key row ≠ key r) := by
      funext row
      by_cases same : key row = key r <;> simp [same, keeps]
    rw [other]
    conv_rhs => rw [← List.map_id (t.rows.filter _)]
    apply List.map_congr_left
    intro row mem
    have different := (List.mem_filter.mp mem).2
    simp only [ne_eq, decide_not, Bool.not_eq_eq_eq_not, Bool.not_true, decide_eq_false_iff_not]
      at different
    simp [different]

def delete (t : KeyedTable key) (p : ρ → Bool) : KeyedTable key :=
  ⟨t.rows.filter fun r => !p r, (List.filter_sublist.map key).nodup t.unique⟩

theorem mem_delete {t : KeyedTable key} {p : ρ → Bool} {r : ρ} :
    r ∈ (t.delete p).rows ↔ r ∈ t.rows ∧ p r = false := by
  rw [delete, List.mem_filter, Bool.not_eq_true']

theorem map_of_absent {l : List ρ} {k : κ} (f : ρ → ρ) (absent : k ∉ l.map key) :
    l.map (fun r => if key r = k then f r else r) = l := by
  conv_rhs => rw [← List.map_id l]
  apply List.map_congr_left
  intro r hr
  have : key r ≠ k := fun h => absent (h ▸ List.mem_map_of_mem hr)
  simp [this]

theorem filterMap_update {β : Type} (t : KeyedTable key) {k : κ} {f : ρ → ρ}
    (keeps : ∀ r, key (f r) = key r) {g : ρ → Option β} {r : ρ} {b : β}
    (found : t.find k = some r) (before : g r = none) (after : g (f r) = some b) :
    ((t.update k f keeps).rows.filterMap g).Perm (b :: t.rows.filterMap g) := by
  obtain ⟨front, back, split⟩ := List.append_of_mem (t.mem_of_find found)
  have hk := t.key_of_find found
  have nodup := t.unique
  rw [split, List.map_append, List.map_cons, List.nodup_append, List.nodup_cons] at nodup
  have inFront : k ∉ front.map key := by
    intro h
    exact nodup.2.2 k h k (by simp [hk]) rfl
  have inBack : k ∉ back.map key := hk ▸ nodup.2.1.1
  simp only [update]
  rw [split, List.map_append, List.map_cons, map_of_absent f inFront, map_of_absent f inBack,
    if_pos hk, List.filterMap_append, List.filterMap_append, List.filterMap_cons_some after,
    List.filterMap_cons_none before]
  exact List.perm_middle

theorem filterMap_update_same {β : Type} (t : KeyedTable key) {k : κ} {f : ρ → ρ}
    (keeps : ∀ r, key (f r) = key r) {g : ρ → Option β}
    (same : ∀ r, t.find k = some r → g (f r) = g r) :
    (t.update k f keeps).rows.filterMap g = t.rows.filterMap g := by
  simp only [update, List.filterMap_map]
  apply List.filterMap_congr
  intro r hr
  by_cases h : key r = k
  · simp [h, same r (t.find_eq_some.mpr ⟨hr, h⟩)]
  · simp [h]

/-- Where every row of a list with distinct keys writes its own entries, the
entries found for one row are those it wrote. -/
theorem countP_flatMap_unique {β : Type} {l : List ρ} (unique : (l.map key).Nodup) {r : ρ}
    (mem : r ∈ l) {write : ρ → List β} {p : β → Bool}
    (counts : ∀ r' ∈ l, (write r').countP p = if key r' = key r then 1 else 0) :
    (l.flatMap write).countP p = 1 := by
  induction l with
  | nil => cases mem
  | cons head rest ih =>
    rw [List.map_cons, List.nodup_cons] at unique
    rw [List.flatMap_cons, List.countP_append, counts head List.mem_cons_self]
    rcases List.mem_cons.mp mem with rfl | later
    · have none : (rest.flatMap write).countP p = 0 := by
        rw [List.countP_eq_zero]
        intro b hb
        obtain ⟨r', hr', wrote⟩ := List.mem_flatMap.mp hb
        have other : key r' ≠ key r := fun same => unique.1 (same ▸ List.mem_map_of_mem hr')
        have count := counts r' (List.mem_cons_of_mem r hr')
        rw [if_neg other, List.countP_eq_zero] at count
        exact count b wrote
      rw [none, if_pos rfl]
    · have other : key head ≠ key r := fun same => unique.1 (same ▸ List.mem_map_of_mem later)
      rw [if_neg other, ih unique.2 later fun r' hr' => counts r' (List.mem_cons_of_mem head hr')]

end KeyedTable
end Mirage
