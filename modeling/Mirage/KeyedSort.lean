import Mathlib.Data.List.Sort

/-! Stable sorting by keys whose comparison may be undefined. The rows are compared by
`less` on their keys only. -/

namespace Mirage.KeyedSort

section
variable {κ α : Type} (less : κ → κ → Option Bool)

def comparable (a b : κ) : Bool := (less a b).isSome && (less b a).isSome

def before (a b : κ × α) : Bool := less b.1 a.1 ≠ some true

def sorted (rows : List (κ × α)) : Option (List α) :=
  if (rows.map Prod.fst).Pairwise fun a b => comparable less a b = true then
    some ((rows.insertionSort fun a b => before less a b = true).map Prod.snd)
  else none

end

section
variable {κ α ι : Type} [LinearOrder ι] {less : κ → κ → Option Bool}

def Ranks (less : κ → κ → Option Bool) (rank : α → ι) (rows : List (κ × α)) : Prop :=
  ∀ a ∈ rows, ∀ b ∈ rows, less a.1 b.1 = some (decide (rank a.2 < rank b.2))

theorem Ranks.comparable {rank : α → ι} {rows : List (κ × α)} (ranks : Ranks less rank rows) :
    (rows.map Prod.fst).Pairwise fun a b => comparable less a b = true := by
  rw [List.pairwise_map]
  refine List.Pairwise.imp_of_mem ?_ (List.pairwise_of_forall fun _ _ => trivial)
  intro a b memA memB _
  rw [KeyedSort.comparable, ranks a memA b memB, ranks b memB a memA]
  rfl

theorem Ranks.sorted_eq {rank : α → ι} {rows : List (κ × α)} (ranks : Ranks less rank rows) :
    sorted less rows =
      some ((rows.map Prod.snd).insertionSort fun a b => rank a ≤ rank b) := by
  rw [sorted, if_pos ranks.comparable, Option.some.injEq]
  refine List.map_insertionSort _ _ Prod.snd rows ?_
  intro a memA b memB
  rw [before, ranks b memB a memA]
  simp

instance rank_total (rank : α → ι) : Std.Total fun a b => rank a ≤ rank b where
  total a b := le_total (rank a) (rank b)

instance rank_isTrans (rank : α → ι) : IsTrans α fun a b => rank a ≤ rank b where
  trans _ _ _ := le_trans

theorem insertionSort_perm {rank : α → ι} {xs ys : List α} (perm : xs.Perm ys)
    (apart : ∀ a ∈ xs, ∀ b ∈ xs, rank a = rank b → a = b) :
    (xs.insertionSort fun a b => rank a ≤ rank b) =
      ys.insertionSort fun a b => rank a ≤ rank b := by
  have antisymm : ∀ a b, a ∈ xs.insertionSort (fun a b => rank a ≤ rank b) →
      b ∈ ys.insertionSort (fun a b => rank a ≤ rank b) → rank a ≤ rank b → rank b ≤ rank a → a = b := by
    intro a b memA memB below above
    have memA' : a ∈ xs := (List.mem_insertionSort _).mp memA
    have memB' : b ∈ xs := perm.mem_iff.mpr ((List.mem_insertionSort _).mp memB)
    exact apart a memA' b memB' (le_antisymm below above)
  exact List.Perm.eq_of_pairwise antisymm (List.pairwise_insertionSort _ xs) (List.pairwise_insertionSort _ ys)
    (((List.perm_insertionSort _ xs).trans perm).trans (List.perm_insertionSort _ ys).symm)

theorem insertionSort_idem (rank : α → ι) (xs : List α) :
    ((xs.insertionSort fun a b => rank a ≤ rank b).insertionSort fun a b => rank a ≤ rank b) =
      xs.insertionSort fun a b => rank a ≤ rank b :=
  (List.pairwise_insertionSort _ xs).insertionSort_eq

end

section
variable {α β ι : Type} [LinearOrder ι]

theorem map_insertionSort_perm {rank : α → ι} {f : α → β} {xs ys : List α} (perm : ys.Perm xs)
    (same : ∀ a ∈ xs, ∀ b ∈ xs, rank a = rank b → f a = f b) :
    (ys.insertionSort fun a b => rank a ≤ rank b).map f =
      (xs.insertionSort fun a b => rank a ≤ rank b).map f := by
  have paired (zs : List α) : (zs.insertionSort fun a b => rank a ≤ rank b).map (fun a => (rank a, f a)) =
      (zs.map fun a => (rank a, f a)).insertionSort fun p q => p.1 ≤ q.1 :=
    List.map_insertionSort _ _ _ zs fun a _ b _ => Iff.rfl
  have sorted : (ys.insertionSort fun a b => rank a ≤ rank b).map (fun a => (rank a, f a)) =
      (xs.insertionSort fun a b => rank a ≤ rank b).map fun a => (rank a, f a) := by
    rw [paired, paired]
    refine @insertionSort_perm _ _ _ Prod.fst _ _ (perm.map _) ?_
    intro p memP q memQ ranks
    obtain ⟨a, memA, rfl⟩ := List.mem_map.mp memP
    obtain ⟨b, memB, rfl⟩ := List.mem_map.mp memQ
    exact Prod.ext ranks (same a (perm.mem_iff.mp memA) b (perm.mem_iff.mp memB) ranks)
  have second := congrArg (List.map Prod.snd) sorted
  rw [List.map_map, List.map_map] at second
  exact second

theorem insertionSort_twins {rank : α → ι} {a b : α} (same : rank a = rank b) (xs : List α) :
    ∃ front back, ((a :: b :: xs).insertionSort fun a b => rank a ≤ rank b) = front ++ a :: b :: back ∧
      ((b :: a :: xs).insertionSort fun a b => rank a ≤ rank b) = front ++ b :: a :: back := by
  simp only [List.insertionSort_cons]
  induction xs.insertionSort fun a b => rank a ≤ rank b with
  | nil =>
    refine ⟨[], [], ?_, ?_⟩
    · rw [List.orderedInsert_nil, List.orderedInsert_cons, if_pos same.le, List.nil_append]
    · rw [List.orderedInsert_nil, List.orderedInsert_cons, if_pos same.ge, List.nil_append]
  | cons y ys ih =>
    by_cases first : rank a ≤ rank y
    · have first' : rank b ≤ rank y := same ▸ first
      refine ⟨[], y :: ys, ?_, ?_⟩
      · rw [List.orderedInsert_cons, if_pos first', List.orderedInsert_cons, if_pos same.le, List.nil_append]
      · rw [List.orderedInsert_cons, if_pos first, List.orderedInsert_cons, if_pos same.ge, List.nil_append]
    · have first' : ¬ rank b ≤ rank y := same ▸ first
      obtain ⟨front, back, ab, ba⟩ := ih
      refine ⟨y :: front, back, ?_, ?_⟩
      · rw [List.orderedInsert_cons, if_neg first', List.orderedInsert_cons, if_neg first, ab, List.cons_append]
      · rw [List.orderedInsert_cons, if_neg first, List.orderedInsert_cons, if_neg first', ba, List.cons_append]

end
end Mirage.KeyedSort
