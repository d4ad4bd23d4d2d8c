import Mirage.RawJson
import Mirage.PythonValues
import Mirage.KeyedSort

/-! Python's operations on the values that `json.loads` returns, their texts being Python
texts: truth, `==`, `<`, `sorted`, `int`, `str` and iteration. -/

namespace Mirage

inductive ExceptionClass where
  | badZipFile
  | osError
  | jsonDecodeError
  | keyError
  | typeError
  | valueError
  | invalidSignature
  | other
  deriving DecidableEq

/-- An exception: its class, `type(exc).__name__` and `str(exc)`. -/
structure Raised where
  kind : ExceptionClass
  name : PythonText.Text
  message : PythonText.Text

namespace Raised
open PythonText

/-! Exceptions whose message no handler reads. -/

def keyError : Raised := ⟨.keyError, text "KeyError", []⟩

def typeError : Raised := ⟨.typeError, text "TypeError", []⟩

def valueError : Raised := ⟨.valueError, text "ValueError", []⟩

def overflowError : Raised := ⟨.other, text "OverflowError", []⟩

def attributeError : Raised := ⟨.other, text "AttributeError", []⟩

def unicodeEncodeError : Raised := ⟨.valueError, text "UnicodeEncodeError", []⟩

def unicodeDecodeError : Raised := ⟨.valueError, text "UnicodeDecodeError", []⟩

def recursionError : Raised := ⟨.other, text "RecursionError", []⟩

end Raised

namespace Raw
open PythonText Json

def number : Raw → Option Json.Num
  | bool b => some (.finite (if b then 1 else 0))
  | int n => some (.finite n)
  | float "Infinity" none => some .posInf
  | float "-Infinity" none => some .negInf
  | float repr integral => some (floatNum repr integral)
  | _ => none

/-- `==` of two numbers inside a container, where a NaN is found to be itself. -/
def sameNumber : Json.Num → Json.Num → Bool
  | .nan, .nan => true
  | a, b => a.eq b

def isTrue : Raw → Bool
  | null => false
  | str t => !t.isEmpty
  | arr items => !items.isEmpty
  | obj members => !members.isEmpty
  | value => (number value).any fun n => !n.eq (.finite 0)

mutual
def equals : Raw → Raw → Bool
  | null, null => true
  | str a, str b => a = b
  | arr xs, arr ys => equalsItems xs ys
  | obj xs, obj ys => xs.length = ys.length && equalsMembers xs ys
  | a, b =>
    match number a, number b with
    | some m, some n => sameNumber m n
    | _, _ => false
def equalsItems : List Raw → List Raw → Bool
  | [], [] => true
  | x :: xs, y :: ys => equals x y && equalsItems xs ys
  | _, _ => false
def equalsMembers : List (Text × Raw) → List (Text × Raw) → Bool
  | [], _ => true
  | (name, value) :: rest, ys =>
    (match member name ys with
      | some other => equals value other
      | none => false) && equalsMembers rest ys
end

mutual
def less : Raw → Raw → Option Bool
  | str a, str b => some (a < b)
  | arr xs, arr ys => lessItems xs ys
  | a, b =>
    match number a, number b with
    | some m, some n => some (m.lt n)
    | _, _ => none
def lessItems : List Raw → List Raw → Option Bool
  | [], [] | _ :: _, [] => some false
  | [], _ :: _ => some true
  | x :: xs, y :: ys => if equals x y then lessItems xs ys else less x y
end

def sortedBy {κ α : Type} (less : κ → κ → Option Bool) (rows : List (κ × α)) :
    Except Raised (List α) :=
  (KeyedSort.sorted less rows).elim (.error .typeError) .ok

def truncate (q : ℚ) : Int := q.num.tdiv q.den

def toInt (ofText : Text → Option Int) : Raw → Except Raised Int
  | str t => (ofText t).elim (.error .valueError) .ok
  | value =>
    match number value with
    | some (.finite q) => .ok (truncate q)
    | some .nan => .error .valueError
    | some _ => .error .overflowError
    | none => .error .typeError

def iterated : Raw → Except Raised (List Raw)
  | arr items => .ok items
  | str t => .ok (t.map fun p => str [p])
  | obj members => .ok (members.map fun m => str m.1)
  | _ => .error .typeError

section
variable (printable : CodePoint → Bool)

def reprFloat : String → Text
  | "NaN" => text "nan"
  | "Infinity" => text "inf"
  | "-Infinity" => text "-inf"
  | repr => text repr

mutual
def reprOf : Raw → Text
  | null => text "None"
  | bool b => text (if b then "True" else "False")
  | int n => text (toString n)
  | float repr _ => reprFloat repr
  | str t => reprText printable t
  | arr items => text "[" ++ (text ", ").intercalate (reprItems items) ++ text "]"
  | obj members => text "\x7b" ++ (text ", ").intercalate (reprMembers members) ++ text "\x7d"
def reprItems : List Raw → List Text
  | [] => []
  | item :: rest => reprOf item :: reprItems rest
def reprMembers : List (Text × Raw) → List Text
  | [] => []
  | (name, value) :: rest => (reprText printable name ++ text ": " ++ reprOf value) :: reprMembers rest
end

/-- `str(value)`, which is also how an f-string writes the value. -/
def strOf : Raw → Text
  | str t => t
  | value => reprOf printable value

end

theorem less_str (a b : Text) : less (.str a) (.str b) = some (decide (a < b)) := rfl

theorem equals_str (a b : Text) : equals (.str a) (.str b) = decide (a = b) := rfl

theorem less_int (a b : Int) : less (.int a) (.int b) = some (decide (a < b)) := by
  have order : Json.Num.lt (.finite a) (.finite b) = decide (a < b) := by
    rw [Json.Num.lt, Json.Num.le, Json.Num.eq, Bool.eq_iff_iff]
    simp [lt_iff_le_and_ne, Rat.intCast_le_intCast]
  rw [← order]
  rfl

theorem equals_int (a b : Int) : equals (.int a) (.int b) = decide (a = b) := by
  have order : sameNumber (.finite a) (.finite b) = decide (a = b) :=
    decide_eq_decide.mpr Rat.intCast_inj
  rw [← order]
  rfl

end Raw
end Mirage
