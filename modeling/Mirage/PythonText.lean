import Mathlib.Data.List.Sort
import Mathlib.Data.String.Basic

/-! Python texts: lists of code points, lone surrogates among them. A text without
surrogates is a Lean `String`, and only such a text can be written as UTF-8. -/

namespace Mirage.PythonText

abbrev CodePoint := Fin 0x110000

abbrev Text := List CodePoint

instance codePoint_lawful : LawfulBEq CodePoint := inferInstance

instance text_lawful : LawfulBEq Text := inferInstance

instance codePoint_neZero : @NeZero ℕ Zero.ofOfNat0 0x110000 := ⟨by decide⟩

def ofChar (c : Char) : CodePoint :=
  ⟨c.toNat, by rcases c.valid with low | high <;> simp only [Char.toNat, UInt32.toNat] at * <;> omega⟩

def toChar (p : CodePoint) : Char := Char.ofNat p.val

def text (s : String) : Text := s.toList.map ofChar

def isSurrogate (p : CodePoint) : Bool := 0xD800 ≤ p.val && p.val < 0xE000

def scalar (t : Text) : Bool := t.all fun p => !isSurrogate p

/-- `t.encode("utf-8")`; nothing where it raises `UnicodeEncodeError`. -/
def encodeUtf8 (t : Text) : Option ByteArray :=
  if scalar t then some (String.ofList (t.map toChar)).toUTF8 else none

def between (low high : Char) (p : CodePoint) : Bool := low.toNat ≤ p.val && p.val ≤ high.toNat

def isDigit : CodePoint → Bool := between '0' '9'

def anchored (body : Text → Bool) (t : Text) : Bool :=
  body t || t.getLast? = some (ofChar '\n') && body t.dropLast

def maxStrDigits : ℕ := 4300

def digitsValue (digits : Text) : ℕ := digits.foldl (fun n p => 10 * n + (p.val - 48)) 0

/-- `int(digits)` of ASCII digits; nothing where it raises `ValueError`. -/
def parseInt (digits : Text) : Option ℕ :=
  if digits.length ≤ maxStrDigits then some (digitsValue digits) else none

theorem forall_mem_of_all {α : Type} {P : α → Prop} [DecidablePred P] {xs : List α}
    (all : (xs.all fun x => decide (P x)) = true) : ∀ x ∈ xs, P x := fun x mem =>
  of_decide_eq_true (List.all_eq_true.mp all x mem)

theorem ofChar_val (c : Char) : (ofChar c).val = c.toNat := rfl

@[simp] theorem toChar_ofChar (c : Char) : toChar (ofChar c) = c := Char.ofNat_toNat c

theorem ofChar_injective : Function.Injective ofChar := by
  intro c d same
  rw [← toChar_ofChar c, same, toChar_ofChar]

theorem text_injective : Function.Injective text := fun _ _ same =>
  String.toList_inj.mp (List.map_injective_iff.mpr ofChar_injective same)

theorem isSurrogate_ofChar (c : Char) : isSurrogate (ofChar c) = false := by
  have range : c.toNat < 0xD800 ∨ 0xDFFF < c.toNat ∧ c.toNat < 0x110000 := c.valid
  rw [isSurrogate, ofChar_val, Bool.eq_false_iff, ne_eq, Bool.and_eq_true, decide_eq_true_eq,
    decide_eq_true_eq]
  omega

theorem ofChar_toChar {p : CodePoint} (proper : isSurrogate p = false) : ofChar (toChar p) = p := by
  have valid : p.val.isValidChar := by
    simp only [isSurrogate, Bool.and_eq_false_iff, decide_eq_false_iff_not] at proper
    have bound := p.isLt
    simp only [Nat.isValidChar]
    omega
  apply Fin.ext
  rw [ofChar_val, toChar, Char.ofNat, dif_pos valid]
  rfl

@[simp] theorem scalar_map_ofChar (chars : List Char) : scalar (chars.map ofChar) = true := by
  simp [scalar, isSurrogate_ofChar]

theorem map_ofChar_toChar {t : Text} (proper : scalar t = true) : (t.map toChar).map ofChar = t := by
  induction t with
  | nil => rfl
  | cons p t ih =>
    simp only [scalar, List.all_cons, Bool.and_eq_true, Bool.not_eq_true'] at proper
    rw [List.map_cons, List.map_cons, ofChar_toChar proper.1, ih proper.2]

@[simp] theorem scalar_append (a b : Text) : scalar (a ++ b) = (scalar a && scalar b) :=
  List.all_append

theorem encodeUtf8_eq_none_iff (t : Text) : encodeUtf8 t = none ↔ scalar t = false := by
  unfold encodeUtf8
  split <;> simp_all

def hexDigits : ℕ → ℕ → Text
  | 0, _ => []
  | width + 1, n => hexDigits width (n / 16) ++ text (String.ofList [Nat.digitChar (n % 16)])

def reprQuote (t : Text) : CodePoint :=
  if ofChar '\'' ∈ t ∧ ofChar '"' ∉ t then ofChar '"' else ofChar '\''

/-- One code point inside a `repr`; `printable` is `str.isprintable` above ASCII. -/
def reprPoint (printable : CodePoint → Bool) (mark p : CodePoint) : Text :=
  if p = mark ∨ p = ofChar '\\' then [ofChar '\\', p]
  else if p = ofChar '\t' then text "\\t"
  else if p = ofChar '\n' then text "\\n"
  else if p = ofChar '\r' then text "\\r"
  else if p.val < 32 ∨ p.val = 127 then text "\\x" ++ hexDigits 2 p.val
  else if p.val < 127 then [p]
  else if printable p then [p]
  else if p.val < 0x100 then text "\\x" ++ hexDigits 2 p.val
  else if p.val < 0x10000 then text "\\u" ++ hexDigits 4 p.val
  else text "\\U" ++ hexDigits 8 p.val

def reprText (printable : CodePoint → Bool) (t : Text) : Text :=
  reprQuote t :: (t.flatMap (reprPoint printable (reprQuote t)) ++ [reprQuote t])

def reprList (printable : CodePoint → Bool) (ts : List Text) : Text :=
  text "[" ++ (text ", ").intercalate (ts.map (reprText printable)) ++ text "]"

example : reprList (fun _ => true) [text "it's", text "a\n"] = text "[\"it's\", 'a\\n']" := by decide

end Mirage.PythonText
