import Mirage.JsonLoads
import Mirage.RawValues

/-! Values with the keys of their dictionaries in order, which is what is read
back from canonical JSON: they are written alike, have the same members, and are
equal to themselves. -/

namespace Mirage.OrderedJson
open PythonText Raw JsonLoads

theorem sortKeys_sorted (members : List (Text × Raw)) : sortKeys (sortKeys members) = sortKeys members :=
  (List.pairwise_insertionSort (fun a b : Text × Raw => a.1 ≤ b.1) members).insertionSort_eq

theorem orderedMembers_map (members : List (Text × Raw)) :
    orderedMembers members = members.map fun m => (m.1, ordered m.2) :=
  orderedMembers_eq members

theorem orderedMembers_names (members : List (Text × Raw)) :
    (orderedMembers members).map Prod.fst = members.map Prod.fst := by
  rw [orderedMembers_map, List.map_map]
  rfl

theorem sortKeys_orderedMembers (members : List (Text × Raw)) :
    sortKeys (orderedMembers members) = (sortKeys members).map fun m => (m.1, ordered m.2) := by
  rw [orderedMembers_map]
  exact insertionSort_values ordered members

theorem ordered_obj_names (members : List (Text × Raw)) :
    ((sortKeys (orderedMembers members)).map Prod.fst).Perm (members.map Prod.fst) := by
  rw [← orderedMembers_names members]
  exact (sortKeys_perm _).map Prod.fst

mutual
theorem dumps_ordered : (v : Raw) → dumps (ordered v) = dumps v
  | .null | .bool _ | .int _ | .float _ _ | .str _ => rfl
  | .arr items => by
    rw [ordered, dumps, dumps, dumpsItems_ordered items]
  | .obj members => by
    have same := memberOf_ordered members
    rw [ordered, dumps_obj, dumps_obj, sortKeys_orderedMembers, ← sortKeys_orderedMembers, sortKeys_sorted,
      sortKeys_orderedMembers, List.map_map]
    congr 3
    apply List.map_congr_left
    intro m mem
    exact same m ((sortKeys_perm members).mem_iff.mp mem)
theorem dumpsItems_ordered : (items : List Raw) → dumpsItems (orderedItems items) = dumpsItems items
  | [] => rfl
  | item :: rest => by
    rw [orderedItems, dumpsItems, dumpsItems, dumps_ordered item, dumpsItems_ordered rest]
theorem memberOf_ordered : (members : List (Text × Raw)) → ∀ m ∈ members,
    memberOf (m.1, ordered m.2) = memberOf m
  | [], _, mem => absurd mem List.not_mem_nil
  | (name, value) :: rest, m, mem => by
    rcases List.mem_cons.mp mem with rfl | later
    · rw [memberOf, memberOf, dumps_ordered value]
    · exact memberOf_ordered rest m later
end

theorem canonical_ordered (v : Raw) : canonicalJsonBytes (ordered v) = canonicalJsonBytes v := by
  rw [canonicalJsonBytes, dumps_ordered, canonicalJsonBytes]

theorem scalarItems_iff {items : List Raw} :
    scalarItems items = true ↔ ∀ item ∈ items, isScalar item = true := by
  induction items with
  | nil => simp [scalarItems]
  | cons item rest ih => rw [scalarItems, Bool.and_eq_true, ih, List.forall_mem_cons]

theorem scalarMembers_iff {members : List (Text × Raw)} :
    scalarMembers members = true ↔ ∀ m ∈ members, scalar m.1 = true ∧ isScalar m.2 = true := by
  induction members with
  | nil => simp [scalarMembers]
  | cons m rest ih =>
    rw [scalarMembers, Bool.and_eq_true, Bool.and_eq_true, ih, List.forall_mem_cons]

section
variable (py : Interpreter)

theorem readableMembers_iff {members : List (Text × Raw)} :
    readableMembers py members = true ↔ ∀ m ∈ members, readable py m.2 = true := by
  induction members with
  | nil => simp [readableMembers]
  | cons m rest ih => rw [readableMembers, Bool.and_eq_true, ih, List.forall_mem_cons]

theorem readableItems_iff {items : List Raw} :
    readableItems py items = true ↔ ∀ item ∈ items, readable py item = true := by
  induction items with
  | nil => simp [readableItems]
  | cons item rest ih => rw [readableItems, Bool.and_eq_true, ih, List.forall_mem_cons]

theorem readable_obj {members : List (Text × Raw)} :
    readable py (.obj members) = true ↔
      (members.map Prod.fst).Nodup ∧ ∀ m ∈ members, readable py m.2 = true := by
  rw [readable, Bool.and_eq_true, decide_eq_true_eq, readableMembers_iff]

theorem readable_arr {items : List Raw} :
    readable py (.arr items) = true ↔ ∀ item ∈ items, readable py item = true := by
  rw [readable, readableItems_iff]

end

section
variable {py : Interpreter}

mutual
theorem readable_ordered : (v : Raw) → readable py v = true → readable py (ordered v) = true
  | .null, known | .bool _, known | .int _, known | .float _ _, known | .str _, known => known
  | .arr items, known => by
    rw [ordered, readable_arr, orderedItems_eq, List.forall_mem_map]
    exact readable_orderedItems items ((readable_arr py).mp known)
  | .obj members, known => by
    obtain ⟨unique, values⟩ := (readable_obj py).mp known
    rw [ordered, readable_obj]
    refine ⟨(ordered_obj_names members).nodup_iff.mpr unique, fun m mem => ?_⟩
    rw [sortKeys_orderedMembers, List.mem_map] at mem
    obtain ⟨old, mem, rfl⟩ := mem
    exact readable_orderedMembers members values old ((sortKeys_perm members).mem_iff.mp mem)
theorem readable_orderedItems : (items : List Raw) → (∀ item ∈ items, readable py item = true) →
    ∀ item ∈ items, readable py (ordered item) = true
  | [], _ => fun _ mem => absurd mem List.not_mem_nil
  | item :: rest, known => by
    rw [List.forall_mem_cons] at known ⊢
    exact ⟨readable_ordered item known.1, readable_orderedItems rest known.2⟩
theorem readable_orderedMembers : (members : List (Text × Raw)) →
    (∀ m ∈ members, readable py m.2 = true) → ∀ m ∈ members, readable py (ordered m.2) = true
  | [], _ => fun _ mem => absurd mem List.not_mem_nil
  | (_, value) :: rest, known => by
    rw [List.forall_mem_cons] at known ⊢
    exact ⟨readable_ordered value known.1, readable_orderedMembers rest known.2⟩
end

theorem member_perm {name : Text} {members other : List (Text × Raw)} (perm : members.Perm other)
    (unique : (members.map Prod.fst).Nodup) : member name members = member name other := by
  have unique' : (other.map Prod.fst).Nodup := (perm.map Prod.fst).nodup_iff.mp unique
  cases found : member name members with
  | some value => exact (member_of_mem unique' (perm.mem_iff.mp (mem_of_member found))).symm
  | none =>
    cases found' : member name other with
    | none => rfl
    | some value =>
      rw [member_of_mem unique (perm.mem_iff.mpr (mem_of_member found'))] at found
      cases found

theorem member_map (f : Raw → Raw) (name : Text) (members : List (Text × Raw)) :
    member name (members.map fun m => (m.1, f m.2)) = (member name members).map f := by
  induction members with
  | nil => rfl
  | cons m rest ih =>
    rw [List.map_cons, member, member, ih]
    split <;> rfl

theorem member_ordered {members : List (Text × Raw)} (unique : (members.map Prod.fst).Nodup)
    (name : Text) :
    member name (sortKeys (orderedMembers members)) = (member name members).map ordered := by
  have unique' : ((sortKeys (orderedMembers members)).map Prod.fst).Nodup :=
    (ordered_obj_names members).nodup_iff.mpr unique
  rw [member_perm (sortKeys_perm _) unique', orderedMembers_map, member_map]

theorem get?_ordered {v : Raw} (known : readable py v = true) (name : String) :
    (ordered v).get? name = (v.get? name).map ordered := by
  cases v with
  | obj members => exact member_ordered ((readable_obj py).mp known).1 (text name)
  | arr items => rfl
  | _ => rfl

end

/-! A value equals itself: its dictionaries have distinct keys, and a NaN is found
to be itself. -/

theorem sameNumber_self (n : Json.Num) : sameNumber n n = true := by
  cases n with
  | finite q => simp [sameNumber, Json.Num.eq]
  | _ => rfl

section
variable {py : Interpreter}

mutual
theorem equals_self : (v : Raw) → readable py v = true → equals v v = true
  | .null, _ => rfl
  | .bool b, _ => sameNumber_self (.finite (if b then 1 else 0))
  | .int n, _ => sameNumber_self (.finite n)
  | .float repr integral, _ => by
    have number : ∃ n, number (.float repr integral) = some n := by
      unfold number
      split <;> simp_all
    obtain ⟨n, known⟩ := number
    simp only [equals, known, sameNumber_self]
  | .str t, _ => decide_eq_true rfl
  | .arr items, known => equalsItems_self items ((readable_arr py).mp known)
  | .obj members, known => by
    obtain ⟨unique, values⟩ := (readable_obj py).mp known
    rw [equals, Bool.and_eq_true, decide_eq_true_eq]
    exact ⟨rfl, equalsMembers_self members members unique (List.Subset.refl _) values⟩
theorem equalsItems_self : (items : List Raw) → (∀ item ∈ items, readable py item = true) →
    equalsItems items items = true
  | [], _ => rfl
  | item :: rest, known => by
    rw [List.forall_mem_cons] at known
    rw [equalsItems, Bool.and_eq_true]
    exact ⟨equals_self item known.1, equalsItems_self rest known.2⟩
theorem equalsMembers_self : (members whole : List (Text × Raw)) → (whole.map Prod.fst).Nodup →
    members ⊆ whole → (∀ m ∈ members, readable py m.2 = true) → equalsMembers members whole = true
  | [], _, _, _, _ => rfl
  | (name, value) :: rest, whole, unique, part, known => by
    rw [List.forall_mem_cons] at known
    have found : member name whole = some value :=
      member_of_mem unique (part List.mem_cons_self)
    have later := equalsMembers_self rest whole unique (List.subset_of_cons_subset part) known.2
    rw [equalsMembers, found, later, Bool.and_true]
    exact equals_self value known.1
end

end
/-! `json.dumps(value, sort_keys=True)` with its spaces; `quote` writes a text. -/

section
variable (quote : Text → Text)

mutual
def dumpsSpaced : Raw → Text
  | .str t => quote t
  | .arr items => text "[" ++ (text ", ").intercalate (spacedItems items) ++ text "]"
  | .obj members =>
    text "\x7b" ++ (text ", ").intercalate ((sortMembers (spacedMembers members)).map fun m =>
      quote m.1 ++ text ": " ++ m.2) ++ text "\x7d"
  | value => dumps value
def spacedItems : List Raw → List Text
  | [] => []
  | item :: rest => dumpsSpaced item :: spacedItems rest
def spacedMembers : List (Text × Raw) → List (Text × Text)
  | [] => []
  | (name, value) :: rest => (name, dumpsSpaced value) :: spacedMembers rest
end

end

end Mirage.OrderedJson
