import Mirage.DashboardRecords
import Mirage.PythonText
import Mathlib.Data.List.Induction

/-! What the sanitiser of display metadata lets through: short texts without markup,
five levels of fifty entries. Keys are shortened like values, so two of them can
become one; then the later entry stands. -/

namespace Mirage.DisplaySafety
open Json DashboardRecords

def markup : List Char := ['<', '>', '"', '\'']

structure SafeText (limit : ℕ) (s : String) : Prop where
  short : s.length ≤ limit
  plain : ∀ c ∈ s.toList, c ∉ markup

inductive Safe : ℕ → Json → Prop
  | obj {levels : ℕ} {members : List (String × Json)} : members.length ≤ 50 →
      (∀ m ∈ members, SafeText 64 m.1) → (∀ m ∈ members, Safe levels m.2) → Safe (levels + 1) (.obj members)
  | arr {levels : ℕ} {items : List Json} : items.length ≤ 50 → (∀ item ∈ items, Safe levels item) →
      Safe (levels + 1) (.arr items)
  | str {levels : ℕ} {s : String} : SafeText 1024 s → Safe levels (.str s)
  | null {levels : ℕ} : Safe levels .null
  | bool {levels : ℕ} (b : Bool) : Safe levels (.bool b)
  | int {levels : ℕ} (n : ℤ) : Safe levels (.int n)
  | float {levels : ℕ} (repr : String) (integral : Option ℤ) : Safe levels (.float repr integral)

section
variable {py : Python}

theorem escapeHtml_plain (c : Char) : ∀ d ∈ escapeHtml c, d ∉ markup := by
  unfold escapeHtml
  split
  · exact PythonText.forall_mem_of_all (by decide +kernel)
  · exact PythonText.forall_mem_of_all (by decide +kernel)
  · exact PythonText.forall_mem_of_all (by decide +kernel)
  · exact PythonText.forall_mem_of_all (by decide +kernel)
  · exact PythonText.forall_mem_of_all (by decide +kernel)
  · next hAmp hLess hMore hQuote hApostrophe =>
    intro d mem
    rw [List.mem_singleton.mp mem]
    simp only [markup, List.mem_cons, List.not_mem_nil, or_false, not_or]
    exact ⟨hLess, hMore, hQuote, hApostrophe⟩

theorem safeDisplayText_safe (value : Json) {limit : ℕ} (positive : 1 ≤ limit) :
    SafeText limit (safeDisplayText py value limit) := by
  unfold safeDisplayText
  extract_lets text escaped
  have plain : ∀ c ∈ escaped, c ∉ markup := by
    intro c mem
    obtain ⟨d, -, here⟩ := List.mem_flatMap.mp mem
    exact escapeHtml_plain d c here
  split
  · next fits =>
    exact ⟨by rw [← String.length_toList, String.toList_ofList]; exact fits,
      by rw [String.toList_ofList]; exact plain⟩
  · refine ⟨?_, ?_⟩
    · rw [← String.length_toList, String.toList_ofList, List.length_append, List.length_take, List.length_singleton]
      omega
    · rw [String.toList_ofList]
      intro c mem
      rcases List.mem_append.mp mem with kept | mark
      · exact plain c ((List.take_sublist _ _).subset kept)
      · rw [List.mem_singleton.mp mark]
        decide

theorem sanitiseItems_eq (depth : ℕ) (items : List Json) (left : ℕ) :
    sanitiseItems py depth items left = (items.take left).map (sanitiseDisplayMetadata py depth) := by
  induction items generalizing left with
  | nil => cases left <;> rfl
  | cons item rest ih =>
    cases left with
    | zero => rfl
    | succ left => rw [sanitiseItems, ih, List.take_succ_cons, List.map_cons]

/-- The entries of a dictionary after sanitising, before they meet in one dictionary. -/
def entries (py : Python) (depth : ℕ) (members : List (String × Json)) : List (String × Json) :=
  (members.take 50).map fun m => (safeDisplayText py (.str m.1) 64, sanitiseDisplayMetadata py depth m.2)

theorem sanitiseMembers_eq (depth : ℕ) (members : List (String × Json)) :
    sanitiseMembers py depth members 50 = entries py depth members := by
  have all (left : ℕ) : sanitiseMembers py depth members left = (members.take left).map fun m =>
      (safeDisplayText py (.str m.1) 64, sanitiseDisplayMetadata py depth m.2) := by
    induction members generalizing left with
    | nil => cases left <;> rfl
    | cons m rest ih =>
      cases left with
      | zero => rfl
      | succ left => rw [sanitiseMembers, ih, List.take_succ_cons, List.map_cons]
  exact all 50

/-! Dictionaries built entry by entry. -/

theorem mem_setMember {name : String} {value : Json} {members : List (String × Json)} {m : String × Json}
    (mem : m ∈ setMember name value members) : m = (name, value) ∨ m ∈ members := by
  induction members with
  | nil => exact Or.inl (List.mem_singleton.mp mem)
  | cons head rest ih =>
    rw [setMember] at mem
    split at mem
    · exact (List.mem_cons.mp mem).imp_right (List.mem_cons_of_mem _)
    · rcases List.mem_cons.mp mem with first | later
      · exact Or.inr (first ▸ List.mem_cons_self ..)
      · exact (ih later).imp_right (List.mem_cons_of_mem _)

theorem keys_setMember (name : String) (value : Json) (members : List (String × Json)) :
    (setMember name value members).map Prod.fst =
      if name ∈ members.map Prod.fst then members.map Prod.fst else members.map Prod.fst ++ [name] := by
  induction members with
  | nil => rfl
  | cons head rest ih =>
    by_cases same : head.1 = name
    · simp [setMember, same]
    · have other : name ≠ head.1 := fun h => same h.symm
      simp only [setMember, same, if_false, List.map_cons, ih, List.mem_cons, other, false_or]
      split <;> rfl

theorem dictionary_append (items : List (String × Json)) (m : String × Json) :
    dictionary (items ++ [m]) = setMember m.1 m.2 (dictionary items) := by
  rw [dictionary, List.foldl_append]
  rfl

theorem mem_dictionary {items : List (String × Json)} {m : String × Json} (mem : m ∈ dictionary items) :
    m ∈ items := by
  induction items using List.reverseRecOn with
  | nil => exact mem
  | append_singleton items last ih =>
    rw [dictionary_append] at mem
    rw [List.mem_append, List.mem_singleton]
    exact (mem_setMember mem).symm.imp_left ih

theorem member_dictionary (items : List (String × Json)) (name : String) :
    member name (dictionary items) = member name items.reverse := by
  induction items using List.reverseRecOn with
  | nil => rfl
  | append_singleton items last ih =>
    rw [dictionary_append, member_setMember, List.reverse_append]
    by_cases same : last.1 = name
    · simp [member, same]
    · have other : name ≠ last.1 := fun h => same h.symm
      simp [member, same, other, ih]

theorem keys_dictionary (items : List (String × Json)) :
    ((dictionary items).map Prod.fst).Nodup ∧ (dictionary items).length ≤ items.length ∧
    (∀ name, name ∈ (dictionary items).map Prod.fst ↔ name ∈ items.map Prod.fst) ∧
    ((dictionary items).length = items.length ↔ (items.map Prod.fst).Nodup) := by
  induction items using List.reverseRecOn with
  | nil => simp [dictionary]
  | append_singleton items last ih =>
    obtain ⟨unique, fewer, same, full⟩ := ih
    have keys := keys_setMember last.1 last.2 (dictionary items)
    by_cases old : last.1 ∈ items.map Prod.fst
    · rw [if_pos ((same last.1).mpr old)] at keys
      have lengths : (setMember last.1 last.2 (dictionary items)).length = (dictionary items).length := by
        simpa using congrArg List.length keys
      rw [dictionary_append, keys, lengths, List.map_append, List.length_append, List.length_singleton]
      refine ⟨unique, by omega, ?_, fun h => by omega, fun h => ?_⟩
      · intro name
        rw [same, List.mem_append]
        refine ⟨Or.inl, fun h => h.elim id fun new => ?_⟩
        rw [List.mem_singleton.mp new]
        exact old
      · exact (List.disjoint_of_nodup_append h old (List.mem_singleton_self _)).elim
    · have fresh : last.1 ∉ (dictionary items).map Prod.fst := fun h => old ((same last.1).mp h)
      rw [if_neg fresh] at keys
      have lengths : (setMember last.1 last.2 (dictionary items)).length = (dictionary items).length + 1 := by
        simpa using congrArg List.length keys
      rw [dictionary_append, keys, lengths, List.map_append, List.length_append, List.length_singleton,
        Nat.add_right_cancel_iff, full]
      refine ⟨unique.append (List.nodup_singleton _) (List.disjoint_singleton.mpr fresh), by omega, ?_,
        fun h => h.append (List.nodup_singleton _) (List.disjoint_singleton.mpr old), fun h => h.of_append_left⟩
      intro name
      rw [List.mem_append, List.mem_append, same]
      rfl

theorem sanitise_safe (levels depth : ℕ) (value : Json) (deep : depth + levels = 5) :
    Safe levels (sanitiseDisplayMetadata py depth value) := by
  induction levels generalizing depth value with
  | zero =>
    have cut : sanitiseDisplayMetadata py depth value = .str "[TRUNCATED]" := by
      have beyond : depth > 4 := by omega
      cases value <;> simp [sanitiseDisplayMetadata, beyond]
    rw [cut]
    exact .str ⟨by decide +kernel, PythonText.forall_mem_of_all (by decide +kernel)⟩
  | succ levels ih =>
    have inside : ¬ depth > 4 := by omega
    have next (value : Json) := ih (depth + 1) value (by omega)
    cases value with
    | obj members =>
      rw [sanitiseDisplayMetadata, if_neg inside, sanitiseMembers_eq]
      have source {m : String × Json} (mem : m ∈ dictionary (entries py (depth + 1) members)) :=
        List.mem_map.mp (mem_dictionary mem)
      refine .obj ((keys_dictionary _).2.1.trans ?_) ?_ ?_
      · rw [entries, List.length_map]
        exact List.length_take_le ..
      · intro m mem
        obtain ⟨old, -, rfl⟩ := source mem
        have safe : SafeText 64 (safeDisplayText py (.str old.1) 64) := safeDisplayText_safe _ (by decide)
        exact safe
      · intro m mem
        obtain ⟨old, -, rfl⟩ := source mem
        exact next old.2
    | arr items =>
      rw [sanitiseDisplayMetadata, if_neg inside, sanitiseItems_eq]
      refine .arr (by rw [List.length_map]; exact List.length_take_le ..) fun item mem => ?_
      obtain ⟨old, -, rfl⟩ := List.mem_map.mp mem
      exact next old
    | str s =>
      rw [sanitiseDisplayMetadata, if_neg inside]
      have safe : SafeText 1024 (safeDisplayText py (.str s) 1024) := safeDisplayText_safe _ (by decide)
      exact .str safe
    | null =>
      simp only [sanitiseDisplayMetadata, inside, if_false]
      exact .null
    | bool b =>
      simp only [sanitiseDisplayMetadata, inside, if_false]
      exact .bool b
    | int n =>
      simp only [sanitiseDisplayMetadata, inside, if_false]
      exact .int n
    | float repr integral =>
      simp only [sanitiseDisplayMetadata, inside, if_false]
      exact .float repr integral

/-- Every sanitised value is safe; of a dictionary's first fifty entries one is dropped
exactly when two keys have one display text, and then the later value stands. -/
theorem display_safe (py : Python) (value : Json) :
    Safe 5 (sanitiseDisplayMetadata py 0 value) ∧
    (∀ depth ≤ 4, ∀ members, ∃ result, sanitiseDisplayMetadata py depth (.obj members) = .obj result ∧
      (result.length = (members.take 50).length ↔
        ((members.take 50).map fun m => safeDisplayText py (.str m.1) 64).Nodup) ∧
      ∀ name, member name result = member name (entries py (depth + 1) members).reverse) ∧
    ∀ limit, 1 ≤ limit → (safeDisplayText py value limit).length ≤ limit := by
  refine ⟨sanitise_safe 5 0 value rfl, ?_, fun limit positive => (safeDisplayText_safe value positive).short⟩
  intro depth shallow members
  refine ⟨dictionary (entries py (depth + 1) members), ?_, ?_, fun name => member_dictionary _ name⟩
  · rw [sanitiseDisplayMetadata, if_neg (by omega), sanitiseMembers_eq]
  · have full := (keys_dictionary (entries py (depth + 1) members)).2.2.2
    rw [entries, List.length_map, List.map_map] at full
    exact full

end

def plainPython : Python :=
  ⟨fun _ => "", id, id, id, fun _ => none, fun _ => none, fun _ => ""⟩

theorem tag_safe : (safeDisplayText plainPython (.str "<b>") 1).length ≤ 1 :=
  (display_safe plainPython (.str "<b>")).2.2 1 (le_refl 1)

/-- Two distinct keys that differ in a blank at the end are merged. -/
theorem blank_key_merged : sanitiseDisplayMetadata plainPython 0
    (.obj [("host", .int 1), ("host ", .int 2)]) = .obj [("host", .int 2)] := by
  have first : safeDisplayText plainPython (.str "host") 64 = "host" := by decide +kernel
  have second : safeDisplayText plainPython (.str "host ") 64 = "host" := by decide +kernel
  simp [sanitiseDisplayMetadata, sanitiseMembers, first, second, dictionary, setMember]

end Mirage.DisplaySafety
