import Mirage.EventEnvelope
import Mirage.Utf16Order

/-! The two canonical JSON encoders of the event contracts: `canonical_json_bytes` of
envelope.py, which sorts the keys of an object as Python compares texts, and
`canonicalJsonBytes` of envelope.ts, which sorts them as JavaScript does. -/

namespace Mirage.CanonicalJson
open Utf16Order Json

def stringifyChar (c : Char) : List Char :=
  match c.toNat with
  | 8 => ['\\', 'b']
  | 9 => ['\\', 't']
  | 10 => ['\\', 'n']
  | 12 => ['\\', 'f']
  | 13 => ['\\', 'r']
  | 34 => ['\\', '"']
  | 92 => ['\\', '\\']
  | n => if n < 32 then '\\' :: 'u' :: [n / 4096, n / 256, n / 16, n].map fun d => hexDigit (d % 16)
    else [c]

def stringify (s : String) : String :=
  String.ofList ('"' :: (s.toList.flatMap stringifyChar ++ ['"']))

def sortKeys (members : List (String × String)) : List (String × String) :=
  members.insertionSort fun a b => utf16 a.1.toList ≤ utf16 b.1.toList

section
variable (numberText : String → String)

mutual
/-- `canonicalStringify`; `numberText` is the text of a number that is not an integer. -/
def canonicalStringify : Json → String
  | .null => "null"
  | .bool true => "true"
  | .bool false => "false"
  | .int n => toString n
  | .float repr _ => numberText repr
  | .str s => stringify s
  | .arr items => "[" ++ ",".intercalate (stringifyItems items) ++ "]"
  | .obj members => "\x7b" ++ ",".intercalate
      ((sortKeys (stringifyMembers members)).map fun m => stringify m.1 ++ ":" ++ m.2) ++ "\x7d"
def stringifyItems : List Json → List String
  | [] => []
  | item :: rest => canonicalStringify item :: stringifyItems rest
def stringifyMembers : List (String × Json) → List (String × String)
  | [] => []
  | (name, value) :: rest => (name, canonicalStringify value) :: stringifyMembers rest
end

end

mutual
/-- Integers below `2 ^ 53` in absolute value, no other numbers, and objects with distinct keys. -/
def interchange : Json → Bool
  | .int n => n.natAbs < 2 ^ 53
  | .float _ _ => false
  | .arr items => interchangeItems items
  | .obj members => (members.map Prod.fst).Nodup && interchangeMembers members
  | _ => true
def interchangeItems : List Json → Bool
  | [] => true
  | item :: rest => interchange item && interchangeItems rest
def interchangeMembers : List (String × Json) → Bool
  | [] => true
  | (_, value) :: rest => interchange value && interchangeMembers rest
end

def alignedKeys (keys : List String) : Bool :=
  keys.all fun a => keys.all fun b => !clash a.toList b.toList

mutual
/-- No two keys of one object part at a character from U+E000 to U+FFFF on the
one side and a character above U+FFFF on the other. -/
def aligned : Json → Bool
  | .arr items => alignedItems items
  | .obj members => alignedKeys (members.map Prod.fst) && alignedMembers members
  | _ => true
def alignedItems : List Json → Bool
  | [] => true
  | item :: rest => aligned item && alignedItems rest
def alignedMembers : List (String × Json) → Bool
  | [] => true
  | (_, value) :: rest => aligned value && alignedMembers rest
end

/-! One encoder with its key order as a parameter. -/

section
variable (le : String → String → Prop) [DecidableRel le] (numberText : String → String)

def memberText (m : String × List Char) : List Char := (quote m.1).toList ++ ':' :: m.2

def sortBy (members : List (String × List Char)) : List (String × List Char) :=
  members.insertionSort fun a b => le a.1 b.1

mutual
def encode : Json → List Char
  | .null => "null".toList
  | .bool true => "true".toList
  | .bool false => "false".toList
  | .int n => (toString n).toList
  | .float repr _ => (numberText repr).toList
  | .str s => (quote s).toList
  | .arr items => '[' :: ([','].intercalate (encodeItems items) ++ [']'])
  | .obj members =>
    '\x7b' :: ([','].intercalate ((sortBy le (encodeMembers members)).map memberText) ++ ['\x7d'])
def encodeItems : List Json → List (List Char)
  | [] => []
  | item :: rest => encode item :: encodeItems rest
def encodeMembers : List (String × Json) → List (String × List Char)
  | [] => []
  | (name, value) :: rest => (name, encode value) :: encodeMembers rest
end

end

def pointLe (a b : String) : Prop := a ≤ b

def unitLe (a b : String) : Prop := utf16 a.toList ≤ utf16 b.toList

instance : DecidableRel pointLe := fun a b => inferInstanceAs (Decidable (a ≤ b))

instance : DecidableRel unitLe := fun a b =>
  inferInstanceAs (Decidable (utf16 a.toList ≤ utf16 b.toList))

theorem stringifyChar_eq (c : Char) : stringifyChar c = escapeChar c := by
  have low : ∀ n < 93, stringifyChar (Char.ofNat n) = escapeChar (Char.ofNat n) := by decide
  by_cases small : c.toNat < 93
  · simpa using low c.toNat small
  · have ne : ∀ d : Char, d.toNat < 93 → c ≠ d := by
      rintro d below rfl
      exact small below
    have plain : escapeChar c = [c] := by
      simp only [escapeChar, ne '"' (by decide), ne '\\' (by decide), ne '\n' (by decide),
        ne '\r' (by decide), ne '\t' (by decide), if_false]
      rw [if_neg (by omega), if_neg (by omega), if_neg (by omega)]
    rw [plain, stringifyChar]
    split
    case h_8 => rw [if_neg (by omega)]
    all_goals omega

theorem stringify_eq (s : String) : stringify s = quote s := by
  simp [stringify, quote, funext stringifyChar_eq]

theorem objectText_toList (le : String → String → Prop) [DecidableRel le]
    (members : List (String × String)) :
    ("\x7b" ++ ",".intercalate ((members.insertionSort fun a b => le a.1 b.1).map fun m =>
      quote m.1 ++ ":" ++ m.2) ++ "\x7d").toList =
    '\x7b' :: ([','].intercalate ((sortBy le (members.map fun m => (m.1, m.2.toList))).map memberText) ++
      ['\x7d']) := by
  have sorted : (members.insertionSort fun a b => le a.1 b.1).map (fun m => (m.1, m.2.toList)) =
      sortBy le (members.map fun m => (m.1, m.2.toList)) :=
    List.map_insertionSort _ _ _ _ fun _ _ _ _ => Iff.rfl
  have parts : String.toList ∘ (fun m : String × String => quote m.1 ++ ":" ++ m.2) =
      memberText ∘ fun m => (m.1, m.2.toList) := by
    funext m
    simp [memberText]
  rw [← sorted, String.toList_append, String.toList_append, String.toList_intercalate,
    List.map_map, List.map_map, parts]
  rfl

mutual
theorem canonical_toList : (v : Json) → v.canonical.toList = encode pointLe id v
  | .null | .bool true | .bool false | .int _ | .float _ _ | .str _ => by simp [canonical, encode]
  | .arr items => by simp [canonical, encode, canonicalItems_toList items]
  | .obj members => by
    rw [encode, ← canonicalMembers_toList members]
    exact objectText_toList pointLe (canonicalMembers members)
theorem canonicalItems_toList : (items : List Json) →
    (canonicalItems items).map String.toList = encodeItems pointLe id items
  | [] => rfl
  | item :: rest => by
    rw [canonicalItems, encodeItems, List.map_cons, canonical_toList item, canonicalItems_toList rest]
theorem canonicalMembers_toList : (members : List (String × Json)) →
    (canonicalMembers members).map (fun m => (m.1, m.2.toList)) = encodeMembers pointLe id members
  | [] => rfl
  | (name, value) :: rest => by
    rw [canonicalMembers, encodeMembers, List.map_cons, canonical_toList value,
      canonicalMembers_toList rest]
end

section
variable (numberText : String → String)

mutual
theorem canonicalStringify_toList :
    (v : Json) → (canonicalStringify numberText v).toList = encode unitLe numberText v
  | .null | .bool true | .bool false | .int _ | .float _ _ | .str _ => by
    simp [canonicalStringify, encode, stringify_eq]
  | .arr items => by simp [canonicalStringify, encode, stringifyItems_toList items]
  | .obj members => by
    rw [encode, ← stringifyMembers_toList members, canonicalStringify]
    simp only [stringify_eq]
    exact objectText_toList unitLe (stringifyMembers numberText members)
theorem stringifyItems_toList : (items : List Json) →
    (stringifyItems numberText items).map String.toList = encodeItems unitLe numberText items
  | [] => rfl
  | item :: rest => by
    rw [stringifyItems, encodeItems, List.map_cons, canonicalStringify_toList item,
      stringifyItems_toList rest]
theorem stringifyMembers_toList : (members : List (String × Json)) →
    (stringifyMembers numberText members).map (fun m => (m.1, m.2.toList)) =
      encodeMembers unitLe numberText members
  | [] => rfl
  | (name, value) :: rest => by
    rw [stringifyMembers, encodeMembers, List.map_cons, canonicalStringify_toList value,
      stringifyMembers_toList rest]
end

end

def hexValue (c : Char) : ℕ := "0123456789abcdef".toList.idxOf c

def readChar : List Char → Option (Char × List Char)
  | '\\' :: 'u' :: _ :: _ :: h :: l :: rest => some (Char.ofNat (16 * hexValue h + hexValue l), rest)
  | '\\' :: 'n' :: rest => some ('\n', rest)
  | '\\' :: 'r' :: rest => some ('\r', rest)
  | '\\' :: 't' :: rest => some ('\t', rest)
  | '\\' :: 'b' :: rest => some (Char.ofNat 8, rest)
  | '\\' :: 'f' :: rest => some (Char.ofNat 12, rest)
  | '\\' :: c :: rest => some (c, rest)
  | '"' :: _ => none
  | c :: rest => some (c, rest)
  | [] => none

theorem hexValue_hexDigit : ∀ n < 16, hexValue (hexDigit n) = n := by decide

theorem readChar_escapeChar (c : Char) (rest : List Char) :
    readChar (escapeChar c ++ rest) = some (c, rest) := by
  unfold escapeChar
  split
  · simp_all [readChar]
  split
  · simp_all [readChar]
  split
  · simp_all [readChar]
  split
  · simp_all [readChar]
  split
  · simp_all [readChar]
  split
  · rename_i h
    rw [List.cons_append, List.cons_append, List.nil_append, readChar, ← h, Char.ofNat_toNat]
  split
  · rename_i h
    rw [List.cons_append, List.cons_append, List.nil_append, readChar, ← h, Char.ofNat_toNat]
  split
  · have high := hexValue_hexDigit (c.toNat / 16) (by omega)
    have low := hexValue_hexDigit (c.toNat % 16) (by omega)
    simp [readChar, high, low, Nat.div_add_mod]
  · simp_all [readChar]

theorem escapes_cancel {a b x y : List Char}
    (same : a.flatMap escapeChar ++ '"' :: x = b.flatMap escapeChar ++ '"' :: y) : a = b ∧ x = y := by
  induction a generalizing b with
  | nil =>
    cases b with
    | nil => exact ⟨rfl, by simpa using same⟩
    | cons d b =>
      have read := congrArg readChar same
      rw [List.flatMap_cons, List.append_assoc, readChar_escapeChar] at read
      cases read
  | cons c a ih =>
    have read := congrArg readChar same
    rw [List.flatMap_cons, List.append_assoc, readChar_escapeChar] at read
    cases b with
    | nil => cases read
    | cons d b =>
      rw [List.flatMap_cons, List.append_assoc, readChar_escapeChar] at read
      simp only [Option.some.injEq, Prod.mk.injEq] at read
      obtain ⟨rfl, later⟩ := read
      obtain ⟨rfl, rfl⟩ := ih later
      exact ⟨rfl, rfl⟩

theorem quote_cancel {a b : String} {x y : List Char}
    (same : (quote a).toList ++ x = (quote b).toList ++ y) : a = b ∧ x = y := by
  simp only [quote, String.toList_ofList, List.cons_append, List.append_assoc, List.nil_append,
    List.cons.injEq, true_and] at same
  obtain ⟨texts, rests⟩ := escapes_cancel same
  exact ⟨String.toList_inj.mp texts, rests⟩

/-! When two key orders give one text. -/

section
variable {κ : Type} {r s : κ → κ → Prop} [DecidableRel r] [DecidableRel s]

theorem agree_of_insertionSort_eq [Std.Total r] [Std.Total s] [IsTrans κ r] [IsTrans κ s]
    [Std.Antisymm r] [Std.Antisymm s] {keys : List κ} (unique : keys.Nodup)
    (same : keys.insertionSort r = keys.insertionSort s) :
    ∀ a ∈ keys, ∀ b ∈ keys, (r a b ↔ s a b) := by
  have byR := List.pairwise_insertionSort r keys
  have byS := List.pairwise_insertionSort s keys
  have apart : (keys.insertionSort r).Nodup := (List.perm_insertionSort r keys).symm.nodup unique
  rw [← same] at byS
  have both : (keys.insertionSort r).Pairwise fun a b => (r a b ↔ s a b) ∧ (r b a ↔ s b a) := by
    refine ((byR.and byS).and apart).imp ?_
    rintro a b ⟨⟨hr, hs⟩, different⟩
    have notR : ¬ r b a := fun back => different (Std.Antisymm.antisymm a b hr back)
    have notS : ¬ s b a := fun back => different (Std.Antisymm.antisymm a b hs back)
    exact ⟨iff_of_true hr hs, iff_of_false notR notS⟩
  have self : ∀ c ∈ keys.insertionSort r, (r c c ↔ s c c) ∧ (r c c ↔ s c c) := by
    intro c _
    have hr : r c c := (Std.Total.total c c).elim id id
    have hs : s c c := (Std.Total.total c c).elim id id
    exact ⟨iff_of_true hr hs, iff_of_true hr hs⟩
  have all := List.Pairwise.forall_of_forall_of_flip self both (both.imp fun h => ⟨h.2, h.1⟩)
  intro a ha b hb
  exact (all ((List.mem_insertionSort r).mpr ha) ((List.mem_insertionSort r).mpr hb)).1

end

theorem utf16_injective : Function.Injective utf16 := by
  intro a b same
  have forward := utf16_lt_iff a b
  have back := utf16_lt_iff b a
  rw [same] at forward back
  rw [clash_comm b a] at back
  simp only [lt_self_iff_false, false_iff] at forward back
  split at forward <;> rename_i met
  · rw [if_pos met] at back
    exact le_antisymm (not_lt.mp forward) (not_lt.mp back)
  · rw [if_neg met] at back
    exact le_antisymm (not_lt.mp back) (not_lt.mp forward)

instance : Std.Total pointLe := ⟨fun a b => le_total a b⟩
instance : IsTrans String pointLe := ⟨fun _ _ _ => le_trans⟩
instance : Std.Antisymm pointLe := ⟨fun _ _ => le_antisymm⟩
instance : Std.Total unitLe := ⟨fun _ _ => le_total _ _⟩
instance : IsTrans String unitLe := ⟨fun _ _ _ => le_trans⟩
instance : Std.Antisymm unitLe :=
  ⟨fun _ _ h h' => String.toList_inj.mp (utf16_injective (le_antisymm h h'))⟩

theorem alignedKeys_iff {keys : List String} :
    alignedKeys keys = true ↔ ∀ a ∈ keys, ∀ b ∈ keys, (pointLe a b ↔ unitLe a b) := by
  simp only [alignedKeys, List.all_eq_true, Bool.not_eq_true', clash_eq_false_iff,
    ← String.le_iff_toList_le]
  exact forall₄_congr fun _ _ _ _ => iff_comm

theorem keys_encodeMembers (le : String → String → Prop) [DecidableRel le]
    (numberText : String → String) (members : List (String × Json)) :
    (encodeMembers le numberText members).map Prod.fst = members.map Prod.fst := by
  induction members with
  | nil => rfl
  | cons m rest ih => rw [encodeMembers, List.map_cons, List.map_cons, ih]

theorem mem_encodeMembers {le : String → String → Prop} [DecidableRel le]
    {numberText : String → String} {members : List (String × Json)} {m : String × List Char} :
    m ∈ encodeMembers le numberText members ↔
      ∃ value, (m.1, value) ∈ members ∧ m.2 = encode le numberText value := by
  induction members with
  | nil => simp [encodeMembers]
  | cons head rest ih =>
    obtain ⟨name, value⟩ := head
    obtain ⟨key, text⟩ := m
    simp only [encodeMembers, List.mem_cons, ih, Prod.mk.injEq]
    constructor
    · rintro (⟨rfl, rfl⟩ | ⟨v, mem, text⟩)
      · exact ⟨value, .inl ⟨rfl, rfl⟩, rfl⟩
      · exact ⟨v, .inr mem, text⟩
    · rintro ⟨v, ⟨rfl, rfl⟩ | mem, text⟩
      · exact .inl ⟨rfl, text⟩
      · exact .inr ⟨v, mem, text⟩

theorem keys_sortBy (le : String → String → Prop) [DecidableRel le]
    (members : List (String × List Char)) :
    (sortBy le members).map Prod.fst = (members.map Prod.fst).insertionSort le :=
  List.map_insertionSort _ _ _ _ fun _ _ _ _ => Iff.rfl

section
variable (numberText : String → String)

mutual
theorem encode_aligned : (v : Json) → interchange v = true → aligned v = true →
    encode pointLe id v = encode unitLe numberText v
  | .null, _, _ | .bool true, _, _ | .bool false, _, _ | .int _, _, _ | .str _, _, _ => by
    simp only [encode]
  | .float _ _, known, _ => by cases known
  | .arr items, known, same => by
    rw [encode, encode, encodeItems_aligned items known same]
  | .obj members, known, same => by
    simp only [interchange, aligned, Bool.and_eq_true] at known same
    have sorted : sortBy pointLe (encodeMembers unitLe numberText members) =
        sortBy unitLe (encodeMembers unitLe numberText members) := by
      have agree := List.map_insertionSort (fun a b => pointLe a.1 b.1) (fun a b => unitLe a.1 b.1) id
        (encodeMembers unitLe numberText members) fun a ha b hb => by
          have keys := keys_encodeMembers unitLe numberText members
          exact alignedKeys_iff.mp same.1 a.1 (keys ▸ List.mem_map_of_mem ha) b.1
            (keys ▸ List.mem_map_of_mem hb)
      rwa [List.map_id, List.map_id] at agree
    rw [encode, encode, encodeMembers_aligned members known.2 same.2, sorted]
theorem encodeItems_aligned : (items : List Json) → interchangeItems items = true →
    alignedItems items = true → encodeItems pointLe id items = encodeItems unitLe numberText items
  | [], _, _ => rfl
  | item :: rest, known, same => by
    simp only [interchangeItems, alignedItems, Bool.and_eq_true] at known same
    rw [encodeItems, encodeItems, encode_aligned item known.1 same.1,
      encodeItems_aligned rest known.2 same.2]
theorem encodeMembers_aligned : (members : List (String × Json)) →
    interchangeMembers members = true → alignedMembers members = true →
    encodeMembers pointLe id members = encodeMembers unitLe numberText members
  | [], _, _ => rfl
  | (name, value) :: rest, known, same => by
    simp only [interchangeMembers, alignedMembers, Bool.and_eq_true] at known same
    rw [encodeMembers, encodeMembers, encode_aligned value known.1 same.1,
      encodeMembers_aligned rest known.2 same.2]
end

theorem intercalate_cons_eq (part : List Char) (rest : List (List Char)) :
    [','].intercalate (part :: rest) = part ++ rest.flatMap (',' :: ·) := by
  induction rest generalizing part with
  | nil => simp
  | cons next rest ih => rw [List.intercalate_cons_cons, ih]; simp

def Readable (a b : List (String × List Char)) : Prop :=
  ∀ m ∈ a, ∀ m' ∈ b, m.1 = m'.1 → ∀ x y, m.2 ++ x = m'.2 ++ y → m.2 = m'.2

theorem member_cancel {a b : List (String × List Char)} {m m' : String × List Char}
    {x y : List Char} (readable : Readable (m :: a) (m' :: b))
    (same : memberText m ++ x = memberText m' ++ y) : m = m' ∧ x = y := by
  simp only [memberText, List.append_assoc, List.cons_append] at same
  obtain ⟨name, later⟩ := quote_cancel same
  have texts := (List.cons.inj later).2
  have text := readable m List.mem_cons_self m' List.mem_cons_self name _ _ texts
  rw [text, List.append_cancel_left_eq] at texts
  exact ⟨Prod.ext name text, texts⟩

theorem membersTail_cancel {a b : List (String × List Char)} {x y : List Char}
    (readable : Readable a b)
    (same : (a.map memberText).flatMap (',' :: ·) ++ '\x7d' :: x =
      (b.map memberText).flatMap (',' :: ·) ++ '\x7d' :: y) : a = b := by
  induction a generalizing b with
  | nil =>
    cases b with
    | nil => rfl
    | cons m' b => simp at same
  | cons m a ih =>
    cases b with
    | nil => simp at same
    | cons m' b =>
      simp only [List.map_cons, List.flatMap_cons, List.cons_append, List.append_assoc,
        List.cons.injEq, true_and] at same
      obtain ⟨rfl, later⟩ := member_cancel readable same
      rw [ih (fun n hn n' hn' => readable n (List.mem_cons_of_mem m hn) n'
        (List.mem_cons_of_mem m hn')) later]

theorem members_cancel {a b : List (String × List Char)} {x y : List Char}
    (readable : Readable a b)
    (same : [','].intercalate (a.map memberText) ++ '\x7d' :: x =
      [','].intercalate (b.map memberText) ++ '\x7d' :: y) : a = b := by
  have opened : ∀ m : String × List Char, ∃ rest, memberText m = '"' :: rest := by
    intro m
    exact ⟨_, by simp only [memberText, quote, String.toList_ofList, List.cons_append]; rfl⟩
  cases a with
  | nil =>
    cases b with
    | nil => rfl
    | cons m' b =>
      obtain ⟨rest, text⟩ := opened m'
      rw [List.map_cons, intercalate_cons_eq, text] at same
      simp at same
  | cons m a =>
    cases b with
    | nil =>
      obtain ⟨rest, text⟩ := opened m
      rw [List.map_cons, intercalate_cons_eq, text] at same
      simp at same
    | cons m' b =>
      rw [List.map_cons, List.map_cons, intercalate_cons_eq, intercalate_cons_eq, List.append_assoc,
        List.append_assoc] at same
      obtain ⟨rfl, later⟩ := member_cancel readable same
      rw [membersTail_cancel (fun n hn n' hn' => readable n (List.mem_cons_of_mem m hn) n'
        (List.mem_cons_of_mem m hn')) later]

theorem alignedMembers_iff {members : List (String × Json)} :
    alignedMembers members = true ↔ ∀ name value, (name, value) ∈ members → aligned value = true := by
  induction members with
  | nil => simp [alignedMembers]
  | cons m rest ih =>
    simp only [alignedMembers, Bool.and_eq_true, ih, List.mem_cons]
    constructor
    · rintro ⟨head, later⟩ name value (rfl | mem)
      · exact head
      · exact later name value mem
    · intro all
      exact ⟨all m.1 m.2 (.inl rfl), fun name value mem => all name value (.inr mem)⟩

def Tells (v : Json) : Prop :=
  ∀ x y, encode pointLe id v ++ x = encode unitLe numberText v ++ y → aligned v = true

theorem object_tells {members : List (String × Json)} (unique : (members.map Prod.fst).Nodup)
    (known : ∀ name value, (name, value) ∈ members → interchange value = true)
    (tells : ∀ name value, (name, value) ∈ members → Tells numberText value) :
    Tells numberText (.obj members) := by
  intro x y same
  have one : ∀ {name v w}, (name, v) ∈ members → (name, w) ∈ members → v = w := by
    intro name v w hv hw
    exact (Prod.mk.inj (List.inj_on_of_nodup_map unique hv hw rfl)).2
  have readable : Readable (sortBy pointLe (encodeMembers pointLe id members))
      (sortBy unitLe (encodeMembers unitLe numberText members)) := by
    intro m hm m' hm' name x y texts
    rw [sortBy, List.mem_insertionSort, mem_encodeMembers] at hm hm'
    obtain ⟨v, hv, text⟩ := hm
    obtain ⟨w, hw, text'⟩ := hm'
    rw [name] at hv
    obtain rfl := one hv hw
    rw [text, text'] at texts ⊢
    exact encode_aligned numberText v (known _ v hv) (tells _ v hv x y texts)
  simp only [encode, List.cons_append, List.append_assoc, List.nil_append, List.cons.injEq,
    true_and] at same
  have sorted := members_cancel readable same
  simp only [aligned, Bool.and_eq_true]
  constructor
  · rw [alignedKeys_iff]
    have keys := congrArg (List.map Prod.fst) sorted
    rw [keys_sortBy, keys_sortBy, keys_encodeMembers, keys_encodeMembers] at keys
    exact agree_of_insertionSort_eq unique keys
  · rw [alignedMembers_iff]
    intro name v hv
    have listed : (name, encode pointLe id v) ∈ sortBy unitLe (encodeMembers unitLe numberText members) := by
      rw [← sorted, sortBy, List.mem_insertionSort, mem_encodeMembers]
      exact ⟨v, hv, rfl⟩
    rw [sortBy, List.mem_insertionSort, mem_encodeMembers] at listed
    obtain ⟨w, hw, text⟩ := listed
    obtain rfl := one hv hw
    exact tells name v hv [] [] (congrArg (· ++ []) text)

mutual
theorem encode_tells : (v : Json) → interchange v = true → Tells numberText v
  | .null, _ | .bool _, _ | .int _, _ | .str _, _ => fun _ _ _ => rfl
  | .float _ _, known => by cases known
  | .arr [], _ => fun _ _ _ => rfl
  | .arr (item :: rest), known => by
    intro x y same
    simp only [interchange, interchangeItems, Bool.and_eq_true] at known
    simp only [encode, encodeItems, intercalate_cons_eq, List.cons_append, List.append_assoc,
      List.nil_append, List.cons.injEq, true_and] at same
    have head := encode_tells item known.1 _ _ same
    rw [encode_aligned numberText item known.1 head, List.append_cancel_left_eq] at same
    simp only [aligned, alignedItems, head, itemsTail_tells rest known.2 _ _ same, Bool.and_self]
  | .obj members, known => by
    simp only [interchange, Bool.and_eq_true, decide_eq_true_eq] at known
    have each := members_tell members known.2
    exact object_tells numberText known.1 (fun name value mem => (each name value mem).1)
      fun name value mem => (each name value mem).2
theorem itemsTail_tells : (items : List Json) → interchangeItems items = true → ∀ x y,
    (encodeItems pointLe id items).flatMap (',' :: ·) ++ ']' :: x =
      (encodeItems unitLe numberText items).flatMap (',' :: ·) ++ ']' :: y →
    alignedItems items = true
  | [], _, _, _, _ => rfl
  | item :: rest, known, x, y, same => by
    simp only [interchangeItems, Bool.and_eq_true] at known
    simp only [encodeItems, List.flatMap_cons, List.cons_append, List.append_assoc, List.cons.injEq,
      true_and] at same
    have head := encode_tells item known.1 _ _ same
    rw [encode_aligned numberText item known.1 head, List.append_cancel_left_eq] at same
    simp only [alignedItems, head, itemsTail_tells rest known.2 x y same, Bool.and_self]
theorem members_tell : (members : List (String × Json)) → interchangeMembers members = true →
    ∀ name value, (name, value) ∈ members → interchange value = true ∧ Tells numberText value
  | [], _, _, _, mem => nomatch mem
  | (name, value) :: rest, known, name', value', mem => by
    simp only [interchangeMembers, Bool.and_eq_true] at known
    rcases List.mem_cons.mp mem with here | later
    · cases here
      exact ⟨known.1, encode_tells value known.1⟩
    · exact members_tell rest known.2 name' value' later
end

end

/-! The bytes, their SHA-256 and the payload cap on either side. -/

namespace Python

def canonicalJsonBytes (v : Json) : ByteArray := v.canonical.toUTF8

def sha256Hex (digest : ByteArray → String) (v : Json) : String := digest (canonicalJsonBytes v)

def payloadTooLarge (v : Json) : Bool := EventEnvelope.maxPayloadBytes < (canonicalJsonBytes v).size

end Python

namespace Typescript
variable (numberText : String → String)

def canonicalJsonBytes (v : Json) : ByteArray := (canonicalStringify numberText v).toUTF8

def sha256Hex (digest : ByteArray → String) (v : Json) : String :=
  digest (canonicalJsonBytes numberText v)

def payloadTooLarge (v : Json) : Bool :=
  EventEnvelope.maxPayloadBytes < (canonicalJsonBytes numberText v).size

end Typescript

structure Agree (numberText : String → String) (digest : ByteArray → String) (v : Json) : Prop where
  bytes : Typescript.canonicalJsonBytes numberText v = Python.canonicalJsonBytes v
  sha256 : Typescript.sha256Hex numberText digest v = Python.sha256Hex digest v
  verdict : Typescript.payloadTooLarge numberText v = Python.payloadTooLarge v

theorem bytes_eq_iff (numberText : String → String) {v : Json} (known : interchange v = true) :
    Typescript.canonicalJsonBytes numberText v = Python.canonicalJsonBytes v ↔ aligned v = true := by
  rw [Typescript.canonicalJsonBytes, Python.canonicalJsonBytes, String.toUTF8_eq_toByteArray,
    String.toUTF8_eq_toByteArray, String.toByteArray_inj, ← String.toList_inj,
    canonicalStringify_toList, canonical_toList]
  constructor
  · intro same
    exact encode_tells numberText v known [] [] (congrArg (· ++ []) same.symm)
  · intro same
    exact (encode_aligned numberText v known same).symm

/-- Python and TypeScript treat a payload alike exactly if no object in it has
two keys that the two languages sort differently. -/
theorem encoders_agree_iff (numberText : String → String) (digest : ByteArray → String) (v : Json)
    (known : interchange v = true) : Agree numberText digest v ↔ aligned v = true := by
  rw [← bytes_eq_iff numberText known]
  constructor
  · exact Agree.bytes
  · intro same
    refine ⟨same, ?_, ?_⟩
    · rw [Typescript.sha256Hex, same, Python.sha256Hex]
    · rw [Typescript.payloadTooLarge, same, Python.payloadTooLarge]

def samplePayload (first second : String) : Json :=
  .obj [("checks", .arr [.int (-3), .null, .obj [(first, .bool true), (second, .str "a\n\"b")]])]

theorem ascii_agree : interchange (samplePayload "hostname" "Region") = true ∧
    Agree id (fun bytes => toString bytes.size) (samplePayload "hostname" "Region") :=
  ⟨by decide, (encoders_agree_iff id _ _ (by decide)).mpr (by decide)⟩

/-- U+FF5E is below U+1F600, but its code unit is above the first unit of U+1F600. -/
theorem emojiKey_disagree : interchange (samplePayload "～" "😀") = true ∧
    Typescript.canonicalJsonBytes id (samplePayload "～" "😀") ≠
      Python.canonicalJsonBytes (samplePayload "～" "😀") := by
  refine ⟨by decide, fun same => ?_⟩
  have kept := (bytes_eq_iff id (by decide)).mp same
  revert kept
  decide

end Mirage.CanonicalJson
