import Mirage.ContractEnvelope
import Mirage.CanonicalJson
import Mathlib

/-! `canonical_json_bytes` tells JSON values apart up to the order of keys. -/

namespace Mirage.CanonicalInjective
open PythonText Raw

mutual
/-- Python's equality of two values, with their types told apart: the members of
two dictionaries are compared by key. -/
def same : Raw → Raw → Bool
  | .null, .null => true
  | .bool a, .bool b => a = b
  | .int a, .int b => a = b
  | .float a _, .float b _ => a = b
  | .str a, .str b => a = b
  | .arr a, .arr b => sameItems a b
  | .obj a, .obj b => a.length = b.length && sameMembers a b
  | _, _ => false
def sameItems : List Raw → List Raw → Bool
  | [], [] => true
  | v :: a, w :: b => same v w && sameItems a b
  | _, _ => false
def sameMembers : List (Text × Raw) → List (Text × Raw) → Bool
  | [], _ => true
  | (name, v) :: rest, b => (match member name b with
      | some w => same v w
      | none => false) && sameMembers rest b
end

def floatText (repr : String) : Bool :=
  repr ∈ ["NaN", "Infinity", "-Infinity"] ||
    (repr.toList.all fun c => c ∈ "0123456789.e+-".toList) && repr.toList.any fun c => c = '.' || c = 'e'

mutual
/-- Dictionaries have distinct keys, and floats carry their `repr`. -/
def wellFormed : Raw → Bool
  | .float repr _ => floatText repr
  | .arr items => wellFormedItems items
  | .obj members => (members.map Prod.fst).Nodup && wellFormedMembers members
  | _ => true
def wellFormedItems : List Raw → Bool
  | [] => true
  | item :: rest => wellFormed item && wellFormedItems rest
def wellFormedMembers : List (Text × Raw) → Bool
  | [] => true
  | (_, value) :: rest => wellFormed value && wellFormedMembers rest
end

/-! Texts that end where a delimiter follows. -/

def isDelimiter (p : CodePoint) : Bool := p = ofChar ',' || p = ofChar ']' || p = ofChar '\x7d'

def Ends : Text → Prop
  | [] => True
  | p :: _ => isDelimiter p = true

/-- Two texts, each followed by nothing or a delimiter, are only equal as a whole
if they are equal. -/
def Cancel (s t : Text) : Prop := ∀ x y, Ends x → Ends y → s ++ x = t ++ y → s = t

theorem token_cancel {s t : Text} (plainS : s.all fun p => !isDelimiter p)
    (plainT : t.all fun p => !isDelimiter p) : Cancel s t := by
  intro x y endX endY equal
  induction s generalizing t with
  | nil =>
    cases t with
    | nil => rfl
    | cons q t =>
      rw [List.nil_append] at equal
      rw [List.all_cons, Bool.and_eq_true, Bool.not_eq_true'] at plainT
      rw [equal] at endX
      exact absurd endX (by rw [List.cons_append, Ends, plainT.1]; decide)
  | cons p s ih =>
    rw [List.all_cons, Bool.and_eq_true, Bool.not_eq_true'] at plainS
    cases t with
    | nil =>
      rw [List.nil_append] at equal
      rw [← equal] at endY
      exact absurd endY (by rw [List.cons_append, Ends, plainS.1]; decide)
    | cons q t =>
      rw [List.all_cons, Bool.and_eq_true] at plainT
      rw [List.cons_append, List.cons_append, List.cons.injEq] at equal
      rw [equal.1, ih plainS.2 plainT.2 equal.2]

theorem escapePoint_ascii {p : CodePoint} (ascii : p.val < 0x80) :
    (escapePoint p).map toChar = Json.escapeChar (toChar p) := by
  rw [escapePoint, if_pos ascii, List.map_map]
  have back : toChar ∘ ofChar = id := funext toChar_ofChar
  rw [back, List.map_id]

theorem toChar_injOn {p q : CodePoint} (low : p.val < 0x80) (low' : q.val < 0x80)
    (equal : toChar p = toChar q) : p = q := by
  have proper : ∀ r : CodePoint, r.val < 0x80 → isSurrogate r = false := by
    intro r below
    rw [isSurrogate, Bool.and_eq_false_iff, decide_eq_false_iff_not]
    omega
  rw [← ofChar_toChar (proper p low), equal, ofChar_toChar (proper q low')]

theorem escapePoint_head (p : CodePoint) :
    ∃ q rest, escapePoint p = q :: rest ∧ (p.val < 0x80 → q.val < 0x80) ∧ (0x80 ≤ p.val → q = p) ∧
      q ≠ ofChar '"' := by
  by_cases ascii : p.val < 0x80
  · have all : ∀ n < 0x80, ∃ c rest, Json.escapeChar (Char.ofNat n) = c :: rest ∧ c.toNat < 0x80 ∧
        c ≠ '"' := by
      intro n below
      have heads : ∀ n < 0x80, (Json.escapeChar (Char.ofNat n)).head?.any
          (fun c => c.toNat < 0x80 && c ≠ '"') = true := by decide
      have head := heads n below
      cases text : Json.escapeChar (Char.ofNat n) with
      | nil => rw [text] at head; cases head
      | cons c rest =>
        rw [text, List.head?_cons, Option.any_some, Bool.and_eq_true] at head
        exact ⟨c, rest, rfl, by simpa using head.1, by simpa using head.2⟩
    obtain ⟨c, rest, form, low, other⟩ := all p.val ascii
    refine ⟨ofChar c, rest.map ofChar, ?_, fun _ => low, fun high => absurd ascii (by omega), ?_⟩
    · rw [escapePoint, if_pos ascii, toChar, form, List.map_cons]
    · intro quoted
      exact other (ofChar_injective quoted)
  · refine ⟨p, [], ?_, fun low => absurd low ascii, fun _ => rfl, ?_⟩
    · rw [escapePoint, if_neg ascii]
    · rintro rfl
      exact ascii (by decide)

theorem escapePoint_cancel {p q : CodePoint} {x y : Text}
    (equal : escapePoint p ++ x = escapePoint q ++ y) : p = q := by
  obtain ⟨a, as, formP, lowP, highP, -⟩ := escapePoint_head p
  obtain ⟨b, bs, formQ, lowQ, highQ, -⟩ := escapePoint_head q
  have heads : a = b := by
    rw [formP, formQ, List.cons_append, List.cons_append] at equal
    exact (List.cons.inj equal).1
  by_cases asciiP : p.val < 0x80 <;> by_cases asciiQ : q.val < 0x80
  · have read := congrArg (fun t => CanonicalJson.readChar (t.map toChar)) equal
    simp only [List.map_append, escapePoint_ascii asciiP, escapePoint_ascii asciiQ,
      CanonicalJson.readChar_escapeChar, Option.some.injEq, Prod.mk.injEq] at read
    exact toChar_injOn asciiP asciiQ read.1
  · have low := lowP asciiP
    rw [heads, highQ (by omega)] at low
    exact absurd low asciiQ
  · have low := lowQ asciiQ
    rw [← heads, highP (by omega)] at low
    exact absurd low asciiP
  · rw [← highP (by omega), heads, highQ (by omega)]

theorem escapes_cancel {a b x y : Text}
    (equal : a.flatMap escapePoint ++ ofChar '"' :: x = b.flatMap escapePoint ++ ofChar '"' :: y) :
    a = b ∧ x = y := by
  induction a generalizing b with
  | nil =>
    cases b with
    | nil => exact ⟨rfl, by simpa using equal⟩
    | cons q b =>
      obtain ⟨c, rest, form, -, -, other⟩ := escapePoint_head q
      rw [List.flatMap_nil, List.nil_append, List.flatMap_cons, form, List.cons_append,
        List.cons_append, List.cons.injEq] at equal
      exact absurd equal.1.symm other
  | cons p a ih =>
    cases b with
    | nil =>
      obtain ⟨c, rest, form, -, -, other⟩ := escapePoint_head p
      rw [List.flatMap_nil, List.nil_append, List.flatMap_cons, form, List.cons_append,
        List.cons_append, List.cons.injEq] at equal
      exact absurd equal.1 other
    | cons q b =>
      rw [List.flatMap_cons, List.flatMap_cons, List.append_assoc, List.append_assoc] at equal
      have first := escapePoint_cancel equal
      rw [first, List.append_cancel_left_eq] at equal
      obtain ⟨later, rests⟩ := ih equal
      exact ⟨by rw [first, later], rests⟩

theorem quote_cancel {a b x y : Text} (equal : quote a ++ x = quote b ++ y) : a = b ∧ x = y := by
  rw [quote, quote, List.cons_append, List.cons_append, List.cons.injEq, List.append_assoc,
    List.append_assoc] at equal
  exact escapes_cancel equal.2

/-! Lists of texts with commas between them and a closing bracket behind. -/

theorem join_cons (part : Text) (rest : List Text) :
    join (part :: rest) = part ++ rest.flatMap (ofChar ',' :: ·) := by
  induction rest generalizing part with
  | nil => simp [join, List.intercalate]
  | cons next rest ih =>
    have later := ih next
    rw [join] at later
    rw [join, List.intercalate_cons_cons, later]
    simp

structure Closes (close : CodePoint) (texts : List Text) : Prop where
  delimiter : isDelimiter close = true
  comma : close ≠ ofChar ','
  starts : ∀ t ∈ texts, ∃ p rest, t = p :: rest ∧ p ≠ close

theorem tail_ends {close : CodePoint} (delimiter : isDelimiter close = true) (rest : List Text)
    (x : Text) : Ends (rest.flatMap (ofChar ',' :: ·) ++ close :: x) := by
  cases rest with
  | nil => exact delimiter
  | cons part rest =>
    rw [List.flatMap_cons, List.cons_append, List.cons_append, Ends]
    decide

theorem tail_cancel {close : CodePoint} (delimiter : isDelimiter close = true)
    (comma : close ≠ ofChar ',') {a b : List Text} (readable : ∀ s ∈ a, ∀ t ∈ b, Cancel s t)
    {x y : Text} (equal : a.flatMap (ofChar ',' :: ·) ++ close :: x =
      b.flatMap (ofChar ',' :: ·) ++ close :: y) : a = b := by
  induction a generalizing b with
  | nil =>
    cases b with
    | nil => rfl
    | cons t b =>
      rw [List.flatMap_nil, List.nil_append, List.flatMap_cons, List.cons_append, List.cons_append,
        List.cons.injEq] at equal
      exact absurd equal.1 comma
  | cons s a ih =>
    cases b with
    | nil =>
      rw [List.flatMap_nil, List.nil_append, List.flatMap_cons, List.cons_append, List.cons_append,
        List.cons.injEq] at equal
      exact absurd equal.1.symm comma
    | cons t b =>
      rw [List.flatMap_cons, List.flatMap_cons, List.cons_append, List.cons_append, List.cons_append,
        List.cons_append, List.append_assoc, List.append_assoc, List.cons.injEq] at equal
      have first := readable s List.mem_cons_self t List.mem_cons_self _ _
        (tail_ends delimiter a x) (tail_ends delimiter b y) equal.2
      have later := equal.2
      rw [first, List.append_cancel_left_eq] at later
      rw [first, ih (fun s' hs t' ht => readable s' (List.mem_cons_of_mem s hs) t'
        (List.mem_cons_of_mem t ht)) later]

theorem join_cancel {close : CodePoint} {a b : List Text} (closesA : Closes close a)
    (closesB : Closes close b) (readable : ∀ s ∈ a, ∀ t ∈ b, Cancel s t) {x y : Text}
    (equal : join a ++ close :: x = join b ++ close :: y) : a = b := by
  have empty : join ([] : List Text) = [] := rfl
  cases a with
  | nil =>
    cases b with
    | nil => rfl
    | cons t b =>
      obtain ⟨p, rest, form, other⟩ := closesB.starts t List.mem_cons_self
      rw [empty, List.nil_append, join_cons, form, List.cons_append, List.cons_append,
        List.cons.injEq] at equal
      exact absurd equal.1.symm other
  | cons s a =>
    cases b with
    | nil =>
      obtain ⟨p, rest, form, other⟩ := closesA.starts s List.mem_cons_self
      rw [empty, List.nil_append, join_cons, form, List.cons_append, List.cons_append,
        List.cons.injEq] at equal
      exact absurd equal.1 other
    | cons t b =>
      rw [join_cons, join_cons, List.append_assoc, List.append_assoc] at equal
      have first := readable s List.mem_cons_self t List.mem_cons_self _ _
        (tail_ends closesA.delimiter a x) (tail_ends closesA.delimiter b y) equal
      rw [first, List.append_cancel_left_eq] at equal
      rw [first, tail_cancel closesA.delimiter closesA.comma (fun s' hs t' ht =>
        readable s' (List.mem_cons_of_mem s hs) t' (List.mem_cons_of_mem t ht)) equal]

/-! Numbers, booleans and null. -/

def atomString : Raw → Option String
  | .null => some "null"
  | .bool true => some "true"
  | .bool false => some "false"
  | .int n => some (toString n)
  | .float repr _ => some repr
  | _ => none

def atomic (s : String) : Bool :=
  !s.toList.isEmpty && s.toList.all fun c => !(c ∈ [',', ']', '\x7d', '"', '[', '\x7b'])

def numeral (s : String) : Bool := s.toList.all fun c => c.isDigit || c = '-'

theorem numeral_toString (n : Int) : numeral (toString n) = true := by
  have digits : ∀ k : ℕ, k.repr.toList.all (fun c => c.isDigit || c = '-') = true := by
    intro k
    rw [List.all_eq_true]
    intro c mem
    rw [Nat.toList_repr] at mem
    rw [Nat.isDigit_of_mem_toDigits (by decide) (by decide) mem, Bool.true_or]
  rw [numeral, Int.toString_eq_repr, Int.repr_eq_if]
  split
  · exact digits _
  · rw [String.toList_append, List.all_append, digits]
    rfl

theorem toString_ne_nil (n : Int) : (toString n).toList ≠ [] := by
  rw [Int.toString_eq_repr, Int.repr_eq_if]
  split
  · rw [Nat.toList_repr]
    exact Nat.toDigits_ne_nil
  · rw [String.toList_append]
    exact List.cons_ne_nil _ _

theorem atomic_of_chars {s : String} (some' : s.toList ≠ []) {P : Char → Bool}
    (all : s.toList.all P = true)
    (apart : ∀ c ∈ [',', ']', '\x7d', '"', '[', '\x7b'], P c = false) : atomic s = true := by
  rw [atomic, Bool.and_eq_true, Bool.not_eq_true', List.isEmpty_eq_false_iff]
  refine ⟨some', ?_⟩
  rw [List.all_eq_true] at all ⊢
  intro c mem
  rw [Bool.not_eq_true', decide_eq_false_iff_not]
  intro listed
  have not := apart c listed
  rw [all c mem] at not
  cases not

theorem atomic_float {s : String} (form : floatText s = true) : atomic s = true := by
  rw [floatText, Bool.or_eq_true, Bool.and_eq_true, decide_eq_true_eq] at form
  rcases form with named | ⟨chars, mark⟩
  · simp only [List.mem_cons, List.not_mem_nil, or_false] at named
    rcases named with rfl | rfl | rfl <;> decide
  · refine atomic_of_chars ?_ chars (forall_mem_of_all (by decide))
    intro empty
    rw [empty] at mark
    cases mark

theorem numeral_float {s : String} (form : floatText s = true) : numeral s = false := by
  rw [floatText, Bool.or_eq_true, Bool.and_eq_true, decide_eq_true_eq] at form
  rcases form with named | ⟨-, mark⟩
  · simp only [List.mem_cons, List.not_mem_nil, or_false] at named
    rcases named with rfl | rfl | rfl <;> decide
  · rw [List.any_eq_true] at mark
    obtain ⟨c, mem, is⟩ := mark
    rw [numeral, List.all_eq_false]
    refine ⟨c, mem, ?_⟩
    rw [Bool.or_eq_true, decide_eq_true_eq, decide_eq_true_eq] at is
    rcases is with rfl | rfl <;> decide

theorem atomic_atomString {v : Raw} {s : String} (known : wellFormed v = true)
    (atom : atomString v = some s) : atomic s = true := by
  cases v with
  | null => cases atom; decide
  | bool b => cases b <;> cases atom <;> decide
  | int n =>
    cases atom
    exact atomic_of_chars (toString_ne_nil n) (numeral_toString n) (forall_mem_of_all (by decide))
  | float repr integral =>
    cases atom
    exact atomic_float known
  | _ => cases atom

theorem dumps_atom {v : Raw} {s : String} (atom : atomString v = some s) : dumps v = text s := by
  cases v with
  | bool b => cases b <;> cases atom <;> rfl
  | null | int _ | float _ _ => cases atom; rfl
  | _ => cases atom

def readAtom (s : String) : Raw :=
  if s = "null" then .null
  else if s = "true" then .bool true
  else if s = "false" then .bool false
  else if numeral s then .int (s.toInt?.getD 0)
  else .float s none

theorem readAtom_of_numeral {s : String} (number : numeral s = true) :
    readAtom s = .int (s.toInt?.getD 0) := by
  have apart : ∀ name ∈ ["null", "true", "false"], s ≠ name := by
    rintro name listed rfl
    simp only [List.mem_cons, List.not_mem_nil, or_false] at listed
    rcases listed with rfl | rfl | rfl <;> revert number <;> decide
  rw [readAtom, if_neg (apart _ (by decide)), if_neg (apart _ (by decide)),
    if_neg (apart _ (by decide)), if_pos number]

theorem readAtom_of_float {s : String} (form : floatText s = true) : readAtom s = .float s none := by
  have apart : ∀ name ∈ ["null", "true", "false"], s ≠ name := by
    rintro name listed rfl
    simp only [List.mem_cons, List.not_mem_nil, or_false] at listed
    rcases listed with rfl | rfl | rfl <;> revert form <;> decide
  rw [readAtom, if_neg (apart _ (by decide)), if_neg (apart _ (by decide)),
    if_neg (apart _ (by decide)), numeral_float form, if_neg (by decide)]

theorem readAtom_atomString {v : Raw} {s : String} (known : wellFormed v = true)
    (atom : atomString v = some s) :
    readAtom s = v ∨ ∃ integral, v = .float s integral ∧ readAtom s = .float s none := by
  cases v with
  | null =>
    cases atom
    exact .inl rfl
  | bool b =>
    left
    cases b <;> cases atom <;> rfl
  | int n =>
    cases atom
    left
    rw [readAtom_of_numeral (numeral_toString n), Int.toString_eq_repr, Int.toInt?_repr]
    rfl
  | float repr integral =>
    cases atom
    exact .inr ⟨integral, rfl, readAtom_of_float known⟩
  | _ => cases atom

theorem same_atom {v w : Raw} {s : String} (knownV : wellFormed v = true)
    (knownW : wellFormed w = true) (atomV : atomString v = some s) (atomW : atomString w = some s) :
    same v w = true := by
  have self : ∀ {u : Raw}, atomString u = some s → same u u = true := by
    intro u atom
    cases u with
    | null => rfl
    | bool _ | int _ | float _ _ => rw [same, decide_eq_true_eq]
    | _ => cases atom
  rcases readAtom_atomString knownV atomV with readV | ⟨i, rfl, readV⟩ <;>
    rcases readAtom_atomString knownW atomW with readW | ⟨j, rfl, readW⟩
  · rw [← readV, readW]
    exact self atomW
  · rw [← readV, readW, same, decide_eq_true_eq]
  · rw [← readW, readV, same, decide_eq_true_eq]
  · rw [same, decide_eq_true_eq]

theorem cancel_of_heads {s t : Text} {p q : CodePoint} {a b : Text} (formS : s = p :: a)
    (formT : t = q :: b) (apart : p ≠ q) : Cancel s t := by
  intro x y _ _ equal
  rw [formS, formT, List.cons_append, List.cons_append, List.cons.injEq] at equal
  exact absurd equal.1 apart

theorem atomic_plain {s : String} (atom : atomic s = true) :
    (text s).all fun p => !isDelimiter p := by
  rw [atomic, Bool.and_eq_true, List.all_eq_true] at atom
  rw [text, List.all_map, List.all_eq_true]
  intro c mem
  have listed := atom.2 c mem
  rw [Bool.not_eq_true', decide_eq_false_iff_not] at listed
  simp only [Function.comp_apply, isDelimiter, Bool.not_or, Bool.and_eq_true, Bool.not_eq_true',
    decide_eq_false_iff_not, ofChar_injective.eq_iff]
  simp only [List.mem_cons, not_or] at listed
  exact ⟨⟨listed.1, listed.2.1⟩, listed.2.2.1⟩

theorem dumps_head {v : Raw} (known : wellFormed v = true) : ∃ p rest, dumps v = p :: rest ∧
    (p = ofChar '"' ↔ ∃ t, v = .str t) ∧ (p = ofChar '[' ↔ ∃ items, v = .arr items) ∧
    (p = ofChar '\x7b' ↔ ∃ members, v = .obj members) ∧ isDelimiter p = false := by
  cases atom : atomString v with
  | some s =>
    have chars := atomic_atomString known atom
    have plain := atomic_plain chars
    rw [dumps_atom atom]
    rw [atomic, Bool.and_eq_true, Bool.not_eq_true', List.isEmpty_eq_false_iff,
      List.all_eq_true] at chars
    cases form : s.toList with
    | nil => exact absurd form chars.1
    | cons c rest =>
      rw [text, form, List.map_cons, List.all_cons, Bool.and_eq_true, Bool.not_eq_true'] at plain
      have listed := chars.2 c (by rw [form]; exact List.mem_cons_self)
      rw [Bool.not_eq_true', decide_eq_false_iff_not] at listed
      simp only [List.mem_cons, not_or] at listed
      refine ⟨ofChar c, rest.map ofChar, by rw [text, form, List.map_cons], ?_, ?_, ?_, plain.1⟩
      · refine iff_of_false (fun equal => listed.2.2.2.1 (ofChar_injective equal)) ?_
        rintro ⟨t, rfl⟩
        cases atom
      · refine iff_of_false (fun equal => listed.2.2.2.2.1 (ofChar_injective equal)) ?_
        rintro ⟨items, rfl⟩
        cases atom
      · refine iff_of_false (fun equal => listed.2.2.2.2.2.1 (ofChar_injective equal)) ?_
        rintro ⟨members, rfl⟩
        cases atom
  | none =>
    cases v with
    | str t => exact ⟨ofChar '"', _, rfl, by simp, by simp; decide, by simp; decide, by decide⟩
    | arr items => exact ⟨ofChar '[', _, by rw [dumps], by simp; decide, by simp, by simp; decide, by decide⟩
    | obj members =>
      exact ⟨ofChar '\x7b', _, by rw [dumps], by simp; decide, by simp; decide, by simp, by decide⟩
    | bool b => cases b <;> cases atom
    | _ => cases atom

theorem mem_dumpsItems {items : List Raw} {t : Text} :
    t ∈ dumpsItems items ↔ ∃ v ∈ items, t = dumps v := by
  induction items with
  | nil => simp [dumpsItems]
  | cons item rest ih => simp [dumpsItems, ih]

theorem mem_dumpsMembers {members : List (Text × Raw)} {m : Text × Text} :
    m ∈ dumpsMembers members ↔ ∃ value, (m.1, value) ∈ members ∧ m.2 = dumps value := by
  induction members with
  | nil => simp [dumpsMembers]
  | cons head rest ih =>
    obtain ⟨name, text⟩ := m
    obtain ⟨key, value⟩ := head
    simp only [dumpsMembers, List.mem_cons, ih, Prod.mk.injEq]
    constructor
    · rintro (⟨rfl, rfl⟩ | ⟨value', mem, equal⟩)
      · exact ⟨value, .inl ⟨rfl, rfl⟩, rfl⟩
      · exact ⟨value', .inr mem, equal⟩
    · rintro ⟨value', ⟨rfl, rfl⟩ | mem, equal⟩
      · exact .inl ⟨rfl, equal⟩
      · exact .inr ⟨value', mem, equal⟩

theorem wellFormedItems_iff {items : List Raw} :
    wellFormedItems items = true ↔ ∀ v ∈ items, wellFormed v = true := by
  induction items with
  | nil => simp [wellFormedItems]
  | cons item rest ih => simp [wellFormedItems, ih]

theorem wellFormedMembers_iff {members : List (Text × Raw)} :
    wellFormedMembers members = true ↔ ∀ name v, (name, v) ∈ members → wellFormed v = true := by
  induction members with
  | nil => simp [wellFormedMembers]
  | cons head rest ih =>
    simp only [wellFormedMembers, Bool.and_eq_true, ih, List.mem_cons]
    constructor
    · rintro ⟨first, later⟩ name v (rfl | mem)
      · exact first
      · exact later name v mem
    · intro all
      exact ⟨all head.1 head.2 (.inl rfl), fun name v mem => all name v (.inr mem)⟩

theorem memberText_cancel {m m' : Text × Text} (values : Cancel m.2 m'.2) :
    Cancel (memberText m) (memberText m') := by
  intro x y endX endY equal
  rw [memberText, memberText, List.append_assoc, List.append_assoc] at equal
  obtain ⟨names, rests⟩ := quote_cancel equal
  have texts := values x y endX endY (List.cons.inj rests).2
  rw [memberText, memberText, names, texts]

theorem memberText_injective : Function.Injective memberText := by
  intro m m' equal
  obtain ⟨names, rests⟩ := quote_cancel equal
  exact Prod.ext names (List.cons.inj rests).2

theorem closes_items {items : List Raw} (known : wellFormedItems items = true) :
    Closes (ofChar ']') (dumpsItems items) := by
  refine ⟨by decide, by decide, fun t mem => ?_⟩
  obtain ⟨v, hv, rfl⟩ := mem_dumpsItems.mp mem
  obtain ⟨p, rest, form, -, -, -, plain⟩ := dumps_head (wellFormedItems_iff.mp known v hv)
  refine ⟨p, rest, form, ?_⟩
  rintro rfl
  cases plain

theorem closes_members (members : List (Text × Text)) :
    Closes (ofChar '\x7d') (members.map memberText) := by
  refine ⟨by decide, by decide, fun t mem => ?_⟩
  obtain ⟨m, -, rfl⟩ := List.mem_map.mp mem
  exact ⟨ofChar '"', _, rfl, by decide⟩

theorem items_cancel {a b : List Raw} (knownA : wellFormedItems a = true)
    (knownB : wellFormedItems b = true)
    (readable : ∀ v ∈ a, ∀ w, wellFormed w = true → Cancel (dumps v) (dumps w)) {x y : Text}
    (equal : dumps (.arr a) ++ x = dumps (.arr b) ++ y) : dumpsItems a = dumpsItems b := by
  rw [dumps, dumps, List.cons_append, List.cons_append, List.cons.injEq, List.append_assoc,
    List.append_assoc] at equal
  refine join_cancel (closes_items knownA) (closes_items knownB) ?_ equal.2
  intro s hs t ht
  obtain ⟨v, hv, rfl⟩ := mem_dumpsItems.mp hs
  obtain ⟨w, hw, rfl⟩ := mem_dumpsItems.mp ht
  exact readable v hv w (wellFormedItems_iff.mp knownB w hw)

theorem members_cancel {a b : List (Text × Raw)} (knownB : wellFormedMembers b = true)
    (readable : ∀ name v, (name, v) ∈ a → ∀ w, wellFormed w = true → Cancel (dumps v) (dumps w))
    {x y : Text} (equal : dumps (.obj a) ++ x = dumps (.obj b) ++ y) :
    sortMembers (dumpsMembers a) = sortMembers (dumpsMembers b) := by
  rw [dumps, dumps, List.cons_append, List.cons_append, List.cons.injEq, List.append_assoc,
    List.append_assoc] at equal
  refine List.map_injective_iff.mpr memberText_injective
    (join_cancel (closes_members _) (closes_members _) ?_ equal.2)
  intro s hs t ht
  obtain ⟨m, hm, rfl⟩ := List.mem_map.mp hs
  obtain ⟨m', hm', rfl⟩ := List.mem_map.mp ht
  rw [sortMembers, List.mem_insertionSort, mem_dumpsMembers] at hm hm'
  obtain ⟨v, hv, textV⟩ := hm
  obtain ⟨w, hw, textW⟩ := hm'
  apply memberText_cancel
  rw [textV, textW]
  exact readable m.1 v hv w (wellFormedMembers_iff.mp knownB m'.1 w hw)

theorem atom_cancel {v w : Raw} {s : String} (knownV : wellFormed v = true)
    (atomV : atomString v = some s) (knownW : wellFormed w = true) : Cancel (dumps v) (dumps w) := by
  obtain ⟨p, a, formV, quoteV, arrayV, objectV, -⟩ := dumps_head knownV
  obtain ⟨q, b, formW, quoteW, arrayW, objectW, -⟩ := dumps_head knownW
  have apart : ∀ c : CodePoint, ((p = c) → False) → q = c → p ≠ q := by
    rintro c not rfl
    exact not
  cases atomW : atomString w with
  | some t =>
    rw [dumps_atom atomV, dumps_atom atomW]
    exact token_cancel (atomic_plain (atomic_atomString knownV atomV))
      (atomic_plain (atomic_atomString knownW atomW))
  | none =>
    apply cancel_of_heads formV formW
    cases w with
    | str t =>
      refine apart _ (fun here => ?_) (quoteW.mpr ⟨t, rfl⟩)
      obtain ⟨_, rfl⟩ := quoteV.mp here
      cases atomV
    | arr items =>
      refine apart _ (fun here => ?_) (arrayW.mpr ⟨items, rfl⟩)
      obtain ⟨_, rfl⟩ := arrayV.mp here
      cases atomV
    | obj members =>
      refine apart _ (fun here => ?_) (objectW.mpr ⟨members, rfl⟩)
      obtain ⟨_, rfl⟩ := objectV.mp here
      cases atomV
    | bool b => cases b <;> cases atomW
    | _ => cases atomW

mutual
theorem dumps_cancel : (v : Raw) → wellFormed v = true → ∀ w, wellFormed w = true →
    Cancel (dumps v) (dumps w)
  | .null, known, _, knownW => atom_cancel known rfl knownW
  | .bool true, known, _, knownW => atom_cancel known rfl knownW
  | .bool false, known, _, knownW => atom_cancel known rfl knownW
  | .int _, known, _, knownW => atom_cancel known rfl knownW
  | .float _ _, known, _, knownW => atom_cancel known rfl knownW
  | .str t, _, w, knownW => by
    obtain ⟨q, b, form, quoted, -⟩ := dumps_head knownW
    by_cases here : q = ofChar '"'
    · obtain ⟨t', rfl⟩ := quoted.mp here
      intro x y _ _ equal
      rw [dumps, dumps] at equal ⊢
      rw [(quote_cancel equal).1]
    · exact cancel_of_heads rfl form (Ne.symm here)
  | .arr items, known, w, knownW => by
    obtain ⟨q, b, form, -, array, -⟩ := dumps_head knownW
    by_cases here : q = ofChar '['
    · obtain ⟨items', rfl⟩ := array.mp here
      intro x y _ _ equal
      have texts := items_cancel known knownW (items_readable items known) equal
      rw [dumps, dumps, texts]
    · exact cancel_of_heads (by rw [dumps]) form (Ne.symm here)
  | .obj members, known, w, knownW => by
    obtain ⟨q, b, form, -, -, object, -⟩ := dumps_head knownW
    by_cases here : q = ofChar '\x7b'
    · obtain ⟨members', rfl⟩ := object.mp here
      intro x y _ _ equal
      rw [wellFormed, Bool.and_eq_true] at known knownW
      have texts := members_cancel knownW.2 (members_readable members known.2) equal
      rw [dumps, dumps, texts]
    · exact cancel_of_heads (by rw [dumps]) form (Ne.symm here)
theorem items_readable : (items : List Raw) → wellFormedItems items = true →
    ∀ v ∈ items, ∀ w, wellFormed w = true → Cancel (dumps v) (dumps w)
  | [], _, _, mem => nomatch mem
  | item :: rest, known, v, mem => by
    rw [wellFormedItems, Bool.and_eq_true] at known
    rcases List.mem_cons.mp mem with here | later
    · rw [here]
      exact dumps_cancel item known.1
    · exact items_readable rest known.2 v later
theorem members_readable : (members : List (Text × Raw)) → wellFormedMembers members = true →
    ∀ name v, (name, v) ∈ members → ∀ w, wellFormed w = true → Cancel (dumps v) (dumps w)
  | [], _, _, _, mem => nomatch mem
  | (_, value) :: rest, known, name, v, mem => by
    rw [wellFormedMembers, Bool.and_eq_true] at known
    rcases List.mem_cons.mp mem with here | later
    · cases here
      exact dumps_cancel value known.1
    · exact members_readable rest known.2 name v later
end

/-! Equal texts are the texts of equal values. -/

theorem keys_dumpsMembers (members : List (Text × Raw)) :
    (dumpsMembers members).map Prod.fst = members.map Prod.fst := by
  induction members with
  | nil => rfl
  | cons m rest ih => rw [dumpsMembers, List.map_cons, List.map_cons, ih]

theorem sameMembers_iff {a b : List (Text × Raw)} : sameMembers a b = true ↔
    ∀ name v, (name, v) ∈ a → ∃ w, member name b = some w ∧ same v w = true := by
  induction a with
  | nil => simp [sameMembers]
  | cons head rest ih =>
    obtain ⟨key, value⟩ := head
    have first : (match member key b with
        | some w => same value w
        | none => false) = true ↔ ∃ w, member key b = some w ∧ same value w = true := by
      cases member key b <;> simp
    rw [sameMembers, Bool.and_eq_true, first, ih]
    constructor
    · rintro ⟨here, later⟩ name v mem
      rcases List.mem_cons.mp mem with equal | mem
      · cases equal
        exact here
      · exact later name v mem
    · intro all
      exact ⟨all key value List.mem_cons_self,
        fun name v mem => all name v (List.mem_cons_of_mem _ mem)⟩

theorem members_of_texts {a b : List (Text × Raw)}
    (texts : sortMembers (dumpsMembers a) = sortMembers (dumpsMembers b)) :
    a.length = b.length ∧ ∀ name v, (name, v) ∈ a → ∃ w, (name, w) ∈ b ∧ dumps v = dumps w := by
  constructor
  · have lengths := congrArg List.length texts
    rw [sortMembers, sortMembers, List.length_insertionSort, List.length_insertionSort] at lengths
    rw [← List.length_map Prod.fst, ← keys_dumpsMembers, List.length_map, lengths,
      ← List.length_map Prod.fst, keys_dumpsMembers, List.length_map]
  · intro name v mem
    have listed : (name, dumps v) ∈ sortMembers (dumpsMembers b) := by
      rw [← texts, sortMembers, List.mem_insertionSort, mem_dumpsMembers]
      exact ⟨v, mem, rfl⟩
    rw [sortMembers, List.mem_insertionSort, mem_dumpsMembers] at listed
    exact listed

structure OneKind (v w : Raw) : Prop where
  text : (∃ t, v = .str t) ↔ ∃ t, w = .str t
  array : (∃ items, v = .arr items) ↔ ∃ items, w = .arr items
  object : (∃ members, v = .obj members) ↔ ∃ members, w = .obj members

theorem oneKind_of_dumps {v w : Raw} (knownV : wellFormed v = true) (knownW : wellFormed w = true)
    (equal : dumps v = dumps w) : OneKind v w := by
  obtain ⟨p, a, formV, quoteV, arrayV, objectV, -⟩ := dumps_head knownV
  obtain ⟨q, b, formW, quoteW, arrayW, objectW, -⟩ := dumps_head knownW
  rw [formV, formW, List.cons.injEq] at equal
  obtain ⟨rfl, -⟩ := equal
  exact ⟨quoteV.symm.trans quoteW, arrayV.symm.trans arrayW, objectV.symm.trans objectW⟩

theorem same_of_atom {v w : Raw} {s : String} (knownV : wellFormed v = true)
    (atomV : atomString v = some s) (knownW : wellFormed w = true) (equal : dumps v = dumps w) :
    same v w = true := by
  have kind := oneKind_of_dumps knownV knownW equal
  cases atomW : atomString w with
  | some t =>
    rw [dumps_atom atomV, dumps_atom atomW] at equal
    have texts : s = t :=
      String.toList_inj.mp (List.map_injective_iff.mpr ofChar_injective equal)
    rw [texts] at atomV
    exact same_atom knownV knownW atomV atomW
  | none =>
    cases w with
    | str t =>
      obtain ⟨_, rfl⟩ := kind.text.mpr ⟨t, rfl⟩
      cases atomV
    | arr items =>
      obtain ⟨_, rfl⟩ := kind.array.mpr ⟨items, rfl⟩
      cases atomV
    | obj members =>
      obtain ⟨_, rfl⟩ := kind.object.mpr ⟨members, rfl⟩
      cases atomV
    | bool b => cases b <;> cases atomW
    | _ => cases atomW

theorem append_nil_eq {s t : Text} (equal : s = t) : s ++ [] = t ++ [] := by rw [equal]

mutual
theorem same_of_dumps : (v : Raw) → wellFormed v = true → ∀ w, wellFormed w = true →
    dumps v = dumps w → same v w = true
  | .null, known, _, knownW, equal => same_of_atom known rfl knownW equal
  | .bool true, known, _, knownW, equal => same_of_atom known rfl knownW equal
  | .bool false, known, _, knownW, equal => same_of_atom known rfl knownW equal
  | .int _, known, _, knownW, equal => same_of_atom known rfl knownW equal
  | .float _ _, known, _, knownW, equal => same_of_atom known rfl knownW equal
  | .str t, known, w, knownW, equal => by
    obtain ⟨t', rfl⟩ := (oneKind_of_dumps known knownW equal).text.mp ⟨t, rfl⟩
    rw [dumps, dumps] at equal
    rw [same, (quote_cancel (append_nil_eq equal)).1, decide_eq_true_eq]
  | .arr items, known, w, knownW, equal => by
    obtain ⟨items', rfl⟩ := (oneKind_of_dumps known knownW equal).array.mp ⟨items, rfl⟩
    have texts := items_cancel known knownW (items_readable items known) (append_nil_eq equal)
    rw [wellFormed] at known knownW
    rw [same]
    exact sameItems_of_dumps items known items' knownW texts
  | .obj members, known, w, knownW, equal => by
    obtain ⟨members', rfl⟩ := (oneKind_of_dumps known knownW equal).object.mp ⟨members, rfl⟩
    rw [wellFormed, Bool.and_eq_true, decide_eq_true_eq] at known knownW
    have texts := members_cancel knownW.2 (members_readable members known.2) (append_nil_eq equal)
    obtain ⟨lengths, values⟩ := members_of_texts texts
    rw [same, Bool.and_eq_true, decide_eq_true_eq, sameMembers_iff]
    refine ⟨lengths, fun name v mem => ?_⟩
    obtain ⟨w, mem', equal⟩ := values name v mem
    exact ⟨w, member_of_mem knownW.1 mem',
      sameValues_of_dumps members known.2 name v mem w (wellFormedMembers_iff.mp knownW.2 name w mem')
        equal⟩
theorem sameItems_of_dumps : (a : List Raw) → wellFormedItems a = true → ∀ b,
    wellFormedItems b = true → dumpsItems a = dumpsItems b → sameItems a b = true
  | [], _, [], _, _ => by rw [sameItems]
  | [], _, _ :: _, _, equal => by cases equal
  | _ :: _, _, [], _, equal => by cases equal
  | v :: a, knownA, w :: b, knownB, equal => by
    rw [wellFormedItems, Bool.and_eq_true] at knownA knownB
    rw [dumpsItems, dumpsItems, List.cons.injEq] at equal
    rw [sameItems, same_of_dumps v knownA.1 w knownB.1 equal.1,
      sameItems_of_dumps a knownA.2 b knownB.2 equal.2, Bool.and_true]
theorem sameValues_of_dumps : (members : List (Text × Raw)) → wellFormedMembers members = true →
    ∀ name v, (name, v) ∈ members → ∀ w, wellFormed w = true → dumps v = dumps w → same v w = true
  | [], _, _, _, mem => nomatch mem
  | (_, value) :: rest, known, name, v, mem => by
    rw [wellFormedMembers, Bool.and_eq_true] at known
    rcases List.mem_cons.mp mem with here | later
    · cases here
      exact same_of_dumps value known.1
    · exact sameValues_of_dumps rest known.2 name v later
end

theorem sortMembers_eq {a b : List (Text × Text)} (uniqueA : (a.map Prod.fst).Nodup)
    (uniqueB : (b.map Prod.fst).Nodup) (lengths : a.length = b.length) (subset : a ⊆ b) :
    sortMembers a = sortMembers b := by
  have perm : a.Perm b :=
    (List.subperm_of_subset (uniqueA.of_map Prod.fst) subset).perm_of_length_le (le_of_eq lengths.symm)
  refine List.Perm.eq_of_pairwise ?_ (List.pairwise_insertionSort _ a)
    (List.pairwise_insertionSort _ b) ?_
  · intro m m' hm hm' le ge
    rw [sortMembers, List.mem_insertionSort] at hm hm'
    exact List.inj_on_of_nodup_map uniqueB (perm.mem_iff.mp hm) hm' (le_antisymm le ge)
  · exact (List.perm_insertionSort _ a).trans (perm.trans (List.perm_insertionSort _ b).symm)

mutual
theorem dumps_of_same : (v : Raw) → wellFormed v = true → ∀ w, wellFormed w = true →
    same v w = true → dumps v = dumps w
  | .null, _, w, _, equal => by
    cases w <;> first | rfl | cases equal
  | .bool _, _, w, _, equal => by
    cases w with
    | bool b =>
      rw [same, decide_eq_true_eq] at equal
      rw [equal]
    | _ => cases equal
  | .int _, _, w, _, equal => by
    cases w with
    | int b =>
      rw [same, decide_eq_true_eq] at equal
      rw [equal]
    | _ => cases equal
  | .float _ _, _, w, _, equal => by
    cases w with
    | float b _ =>
      rw [same, decide_eq_true_eq] at equal
      rw [dumps, dumps, equal]
    | _ => cases equal
  | .str _, _, w, _, equal => by
    cases w with
    | str b =>
      rw [same, decide_eq_true_eq] at equal
      rw [equal]
    | _ => cases equal
  | .arr a, known, w, knownW, equal => by
    cases w with
    | arr b =>
      rw [wellFormed] at known knownW
      rw [same] at equal
      rw [dumps, dumps, dumpsItems_of_same a known b knownW equal]
    | _ => cases equal
  | .obj a, known, w, knownW, equal => by
    cases w with
    | obj b =>
      rw [wellFormed, Bool.and_eq_true, decide_eq_true_eq] at known knownW
      rw [same, Bool.and_eq_true, decide_eq_true_eq] at equal
      have subset : dumpsMembers a ⊆ dumpsMembers b := by
        intro m mem
        obtain ⟨v, hv, text⟩ := mem_dumpsMembers.mp mem
        obtain ⟨w, found, alike⟩ := sameMembers_iff.mp equal.2 m.1 v hv
        have listed := mem_of_member found
        refine mem_dumpsMembers.mpr ⟨w, listed, ?_⟩
        rw [text]
        exact dumpsValues_of_same a known.2 m.1 v hv w
          (wellFormedMembers_iff.mp knownW.2 m.1 w listed) alike
      have lengths : (dumpsMembers a).length = (dumpsMembers b).length := by
        rw [← List.length_map Prod.fst, keys_dumpsMembers, List.length_map, equal.1,
          ← List.length_map Prod.fst, ← keys_dumpsMembers, List.length_map]
      rw [dumps, dumps, sortMembers_eq (by rw [keys_dumpsMembers]; exact known.1)
        (by rw [keys_dumpsMembers]; exact knownW.1) lengths subset]
    | _ => cases equal
theorem dumpsItems_of_same : (a : List Raw) → wellFormedItems a = true → ∀ b,
    wellFormedItems b = true → sameItems a b = true → dumpsItems a = dumpsItems b
  | [], _, [], _, _ => rfl
  | [], _, _ :: _, _, equal => by cases equal
  | _ :: _, _, [], _, equal => by cases equal
  | v :: a, knownA, w :: b, knownB, equal => by
    rw [wellFormedItems, Bool.and_eq_true] at knownA knownB
    rw [sameItems, Bool.and_eq_true] at equal
    rw [dumpsItems, dumpsItems, dumps_of_same v knownA.1 w knownB.1 equal.1,
      dumpsItems_of_same a knownA.2 b knownB.2 equal.2]
theorem dumpsValues_of_same : (members : List (Text × Raw)) → wellFormedMembers members = true →
    ∀ name v, (name, v) ∈ members → ∀ w, wellFormed w = true → same v w = true → dumps v = dumps w
  | [], _, _, _, mem => nomatch mem
  | (_, value) :: rest, known, name, v, mem => by
    rw [wellFormedMembers, Bool.and_eq_true] at known
    rcases List.mem_cons.mp mem with here | later
    · cases here
      exact dumps_of_same value known.1
    · exact dumpsValues_of_same rest known.2 name v later
end

theorem encodeUtf8_injective {s t : Text} (properS : scalar s = true) (properT : scalar t = true)
    (equal : encodeUtf8 s = encodeUtf8 t) : s = t := by
  rw [encodeUtf8, encodeUtf8, if_pos properS, if_pos properT, Option.some.injEq,
    String.toUTF8_eq_toByteArray, String.toUTF8_eq_toByteArray, String.toByteArray_inj,
    ← String.toList_inj, String.toList_ofList, String.toList_ofList] at equal
  rw [← map_ofChar_toChar properS, equal, map_ofChar_toChar properT]

structure Value where
  raw : Raw
  wellFormed : wellFormed raw = true
  scalar : isScalar raw = true

theorem canonicalJsonBytes_eq_iff (v w : Value) :
    canonicalJsonBytes v.raw = canonicalJsonBytes w.raw ↔ same v.raw w.raw = true := by
  constructor
  · intro equal
    refine same_of_dumps v.raw v.wellFormed w.raw w.wellFormed (encodeUtf8_injective ?_ ?_ equal)
    · rw [scalar_dumps, v.scalar]
    · rw [scalar_dumps, w.scalar]
  · intro alike
    rw [canonicalJsonBytes, canonicalJsonBytes,
      dumps_of_same v.raw v.wellFormed w.raw w.wellFormed alike]

/-! What the integrity check rests on. -/

section
open ContractEnvelope RowLocks

def RejectedByIntegrity (outcome : Except Failure ValidatedEvent) : Prop :=
  (∃ errors, outcome = .error (.contract (.envelopeValidation errors))) ∨
  (∃ bytes, outcome = .error (.contract (.payloadTooLarge bytes))) ∨
  ∃ expected actual, outcome = .error (.contract (.integrityMismatch expected actual))

theorem wellFormed_member {v inner : Raw} {name : String} (known : wellFormed v = true)
    (found : v.get? name = some inner) : wellFormed inner = true := by
  cases v with
  | obj members =>
    rw [wellFormed, Bool.and_eq_true] at known
    exact wellFormedMembers_iff.mp known.2 _ _ (mem_of_member found)
  | _ => cases found

theorem value_of_intact {digest : ByteArray → Text} {event payload : Raw} {bytes : ByteArray}
    (intact : Intact digest event payload bytes) (known : wellFormed event = true) :
    ∃ v : Value, v.raw = payload := by
  refine ⟨⟨payload, wellFormed_member known intact.found, ?_⟩, rfl⟩
  by_contra surrogate
  have raised := (canonicalJsonBytes_eq_none_iff payload).mpr (Bool.eq_false_iff.mpr surrogate)
  rw [intact.encoded] at raised
  cases raised

theorem Value.bytes (v : Value) : ∃ bytes, canonicalJsonBytes v.raw = some bytes := by
  cases encoded : canonicalJsonBytes v.raw with
  | some bytes => exact ⟨bytes, rfl⟩
  | none =>
    have surrogate := (canonicalJsonBytes_eq_none_iff v.raw).mp encoded
    rw [v.scalar] at surrogate
    cases surrogate

theorem checkIntegrity_replaced {digest : ByteArray → Text} (injective : Function.Injective digest)
    {event payload : Raw} {bytes : ByteArray} (intact : Intact digest event payload bytes)
    (known : wellFormed event = true) (p : Value) (different : same payload p.raw = false) :
    (∃ n, checkIntegrity digest (event.set "payload" p.raw) = .error (.contract (.payloadTooLarge n))) ∨
    ∃ expected actual, checkIntegrity digest (event.set "payload" p.raw) =
      .error (.contract (.integrityMismatch expected actual)) := by
  obtain ⟨v, rfl⟩ := value_of_intact intact known
  obtain ⟨replaced, encoded⟩ := p.bytes
  obtain ⟨integrity, atIntegrity, atHash⟩ := intact.declared
  have apart : digest replaced ≠ digest bytes := by
    intro equal
    have bytesEq := injective equal
    have alike : canonicalJsonBytes v.raw = canonicalJsonBytes p.raw := by
      rw [intact.encoded, encoded, bytesEq]
    rw [canonicalJsonBytes_eq_iff, different] at alike
    cases alike
  have kept : (event.set "payload" p.raw).get? "integrity" = some integrity := by
    rw [get?_set _ _ (by decide), atIntegrity]
  rw [checkIntegrity_eq (get?_set_self intact.found p.raw) kept atHash, encoded]
  by_cases size : replaced.size ≤ maxPayloadBytes
  · right
    simp only [if_pos size, if_neg apart]
    exact ⟨_, _, rfl⟩
  · left
    simp only [if_neg size]
    exact ⟨_, rfl⟩

theorem validateEvent_replaced {registry : EventRegistry} {digest : ByteArray → Text}
    (injective : Function.Injective digest) {majors : Option (List Int)} {event : Raw}
    {verdict : ValidatedEvent} (known : wellFormed event = true)
    (valid : validateEvent registry digest majors event = .ok verdict) (p : Value)
    (different : same verdict.payload p.raw = false) :
    RejectedByIntegrity (validateEvent registry digest majors (event.set "payload" p.raw)) := by
  obtain ⟨bytes, intact⟩ := (validateEvent_spec valid).intact
  have late := checkIntegrity_replaced injective intact known p different
  rw [validateEvent]
  cases early : checkEnvelope registry (event.set "payload" p.raw) with
  | error failure =>
    obtain ⟨-, rfl⟩ := require_eq_error.mp early
    exact .inl ⟨_, rfl⟩
  | ok u =>
    obtain ⟨n, raised⟩ | ⟨expected, actual, raised⟩ := late
    · rw [raised]
      exact .inr (.inl ⟨n, rfl⟩)
    · rw [raised]
      exact .inr (.inr ⟨expected, actual, rfl⟩)

/-- The canonical bytes tell JSON values apart up to the order of keys. So no
accepted event stays accepted when its payload is replaced by another value, and
what `build_event` returns for a payload within the cap passes both checks. -/
theorem payload_bound_by_integrity (registry : EventRegistry) (digest : ByteArray → Text)
    (injective : Function.Injective digest) :
    (∀ v w : Value, canonicalJsonBytes v.raw = canonicalJsonBytes w.raw ↔ same v.raw w.raw = true) ∧
    (∀ majors event verdict, wellFormed event = true →
      validateEvent registry digest majors event = .ok verdict →
      ∀ p : Value, same verdict.payload p.raw = false →
        RejectedByIntegrity (validateEvent registry digest majors (event.set "payload" p.raw))) ∧
    ∀ drawnId now f bytes, canonicalJsonBytes f.payload = some bytes → bytes.size ≤ maxPayloadBytes →
      ∃ event, buildEvent digest drawnId now f = .ok event ∧
        checkIntegrity digest event = .ok f.payload := by
  refine ⟨canonicalJsonBytes_eq_iff, ?_, ?_⟩
  · intro majors event verdict known valid p different
    exact validateEvent_replaced injective known valid p different
  · intro drawnId now f bytes encoded size
    obtain ⟨event, built, intact⟩ := buildEvent_intact encoded size
    exact ⟨event, built, checkIntegrity_eq_ok.mpr ⟨bytes, intact⟩⟩

def tamperProperties : List (String × (Raw → Bool)) :=
  [ ("tamper_type", oneOf ["SERVICE_STOP_ATTEMPT", "PROCESS_KILL_ATTEMPT", "CONFIG_MODIFIED",
      "UNINSTALL_ATTEMPT", "LOG_CLEARED", "QUEUE_TAMPERED"]),
    ("detail", sized 1 2048), ("observed_at", timestamp) ]

def reporting (properties : List (String × (Raw → Bool))) : Validator := fun v =>
  if closedObject properties v then [] else [([], text "is not valid under the schema")]

def sampleRegistry : EventRegistry where
  envelopeValidator := reporting eventProperties
  envelopeValidator_eq_nil_iff v := by
    unfold reporting
    split <;> simp_all
  validators := [((text "spider.tamper", 1), reporting tamperProperties)]
  majors_printable := by
    intro entry listed
    rw [List.mem_singleton.mp listed]
    exact Nat.one_lt_pow (by decide) (by decide)

def samplePayload (detail : String) : Raw :=
  .obj [(text "tamper_type", .str (text "LOG_CLEARED")), (text "detail", .str (text detail)),
    (text "observed_at", .str (text "2026-01-02T03:04:05.678Z"))]

def sampleDigest (bytes : ByteArray) : Text :=
  if some bytes = canonicalJsonBytes (samplePayload "é") then
    text "a8c7c45ed30372b3f0f831540482d1abedba8ef75d4a361935acf5f3a1fa31ba"
  else if some bytes = canonicalJsonBytes (samplePayload "e") then
    text "b135c3ce81603ef85f685686d9ec139b513329b64359c762b6d8505b61e6e293"
  else ofChar 'x' :: bytes.data.toList.map fun byte => Fin.ofNat _ byte.toNat

theorem sampleDigest_injective : Function.Injective sampleDigest := by
  have bytewise : Function.Injective fun byte : UInt8 => (Fin.ofNat 0x110000 byte.toNat : CodePoint) := by
    intro a b equal
    have values := congrArg Fin.val equal
    simp only [Fin.val_ofNat] at values
    have boundA := a.toNat_lt
    have boundB := b.toNat_lt
    exact UInt8.toNat_inj.mp (by omega)
  have others : ∀ a b : ByteArray,
      a.data.toList.map (fun byte => (Fin.ofNat _ byte.toNat : CodePoint)) =
        b.data.toList.map (fun byte => Fin.ofNat _ byte.toNat) → a = b := by
    intro a b equal
    exact ByteArray.ext (Array.toList_inj.mp (List.map_injective_iff.mpr bytewise equal))
  have first : ∀ {c : Char} {s : String} {t : Text}, s.toList.head? ≠ some c → text s ≠ ofChar c :: t := by
    intro c s t other equal
    apply other
    cases form : s.toList with
    | nil =>
      rw [text, form] at equal
      cases equal
    | cons d rest =>
      rw [text, form, List.map_cons, List.cons.injEq] at equal
      rw [ofChar_injective equal.1, List.head?_cons]
  intro a b equal
  unfold sampleDigest at equal
  split at equal <;> rename_i hereA
  · split at equal <;> rename_i hereB
    · exact Option.some.inj (hereA.trans hereB.symm)
    split at equal
    · exact absurd equal (by decide)
    · exact absurd equal (first (by decide))
  split at equal <;> rename_i nextA
  · split at equal
    · exact absurd equal (by decide)
    split at equal <;> rename_i nextB
    · exact Option.some.inj (nextA.trans nextB.symm)
    · exact absurd equal (first (by decide))
  · split at equal
    · exact absurd equal.symm (first (by decide))
    split at equal
    · exact absurd equal.symm (first (by decide))
    · exact others a b (List.cons.inj equal).2

def sampleFields : EventFields where
  eventType := text "spider.tamper"
  schemaVersion := text "1.0"
  payload := samplePayload "é"
  sourceId := text "spider-1"
  sequence := 7
  actorType := text "SPIDER_AGENT"
  classification := text "INTERNAL"
  caseId := none
  sessionId := none
  eventId := some (text "01ARZ3NDEKTSV4RRFFQ69G5FAV")
  eventTime := none

def sampleEvent : Raw :=
  eventOf (sampleDigest ((canonicalJsonBytes (samplePayload "é")).getD .empty)) []
    (text "2026-01-02T03:04:06.000Z") sampleFields

def alteredPayload : Value where
  raw := samplePayload "e"
  wellFormed := by decide +kernel
  scalar := by decide +kernel

/-- The event is accepted, and rejected once an accent of its payload is gone. -/
theorem accent_bound_by_integrity :
    (validateEvent sampleRegistry sampleDigest none sampleEvent).isOk = true ∧
    RejectedByIntegrity (validateEvent sampleRegistry sampleDigest none
      (sampleEvent.set "payload" alteredPayload.raw)) := by
  have accepted : (validateEvent sampleRegistry sampleDigest none sampleEvent).isOk = true := by
    decide +kernel
  refine ⟨accepted, ?_⟩
  cases valid : validateEvent sampleRegistry sampleDigest none sampleEvent with
  | error failure =>
    rw [valid] at accepted
    cases accepted
  | ok verdict =>
    obtain ⟨bytes, intact⟩ := (validateEvent_spec valid).intact
    have payload : samplePayload "é" = verdict.payload :=
      Option.some.inj ((eventOf_payload _ _ _ sampleFields).symm.trans intact.found)
    have different : same verdict.payload alteredPayload.raw = false := by
      rw [← payload]
      decide +kernel
    exact (payload_bound_by_integrity sampleRegistry sampleDigest sampleDigest_injective).2.1 none
      sampleEvent verdict (by decide +kernel) valid alteredPayload different

end

end Mirage.CanonicalInjective
