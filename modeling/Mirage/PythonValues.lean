import Mirage.JsonValue
import Mathlib.Data.Rat.Defs
import Mathlib.Algebra.Order.Field.Rat

/-! Python's operations on the values that `json.loads` returns: truth, `==`, the order of
`<=`, iteration, and sets. -/

namespace Mirage.Json

inductive Num where
  | nan
  | negInf
  | finite (value : ℚ)
  | posInf

namespace Num

def eq : Num → Num → Bool
  | negInf, negInf | posInf, posInf => true
  | finite a, finite b => a = b
  | _, _ => false

def le : Num → Num → Bool
  | nan, _ | _, nan => false
  | negInf, _ | _, posInf => true
  | finite a, finite b => a ≤ b
  | _, _ => false

def lt (a b : Num) : Bool := a.le b && !a.eq b

end Num

def decimalDigits (chars : List Char) : Option ℕ :=
  if !chars.isEmpty && chars.all Char.isDigit then
    some (chars.foldl (fun n c => 10 * n + (c.toNat - '0'.toNat)) 0)
  else none

def mantissa (chars : List Char) : Option ℚ :=
  match chars.splitOn '.' with
  | [whole] => (decimalDigits whole).map fun n => (n : ℚ)
  | [whole, fraction] => do
    let n ← decimalDigits whole
    let m ← decimalDigits fraction
    return n + m / 10 ^ fraction.length
  | _ => none

def power : List Char → Option ℚ
  | '-' :: digits => (decimalDigits digits).map fun n => 1 / 10 ^ n
  | '+' :: digits => (decimalDigits digits).map fun n => 10 ^ n
  | digits => (decimalDigits digits).map fun n => 10 ^ n

def unsigned (chars : List Char) : Option ℚ :=
  match chars.splitOn 'e' with
  | [digits] => mantissa digits
  | [digits, exponent] => do return (← mantissa digits) * (← power exponent)
  | _ => none

def decimal : List Char → Option ℚ
  | '-' :: chars => (unsigned chars).map fun q => -q
  | chars => unsigned chars

/-- The number that a float is: the integer it equals, and else the value of
its `repr`, which orders floats as their values do. -/
def floatNum (repr : String) : Option Int → Num
  | some n => .finite n
  | none =>
    match repr with
    | "inf" => .posInf
    | "-inf" => .negInf
    | _ => ((decimal repr.toList).map Num.finite).getD .nan

def number : Json → Option Num
  | bool b => some (.finite (if b then 1 else 0))
  | int n => some (.finite n)
  | float repr integral => some (floatNum repr integral)
  | _ => none

def isTrue : Json → Bool
  | null => false
  | str s => s ≠ ""
  | arr items => !items.isEmpty
  | obj members => !members.isEmpty
  | value => (number value).any fun n => !n.eq (.finite 0)

mutual
def pyEq : Json → Json → Bool
  | null, null => true
  | str a, str b => a = b
  | arr xs, arr ys => pyEqItems xs ys
  | obj xs, obj ys => xs.length = ys.length && pyEqMembers xs ys
  | a, b =>
    match number a, number b with
    | some m, some n => m.eq n
    | _, _ => false
def pyEqItems : List Json → List Json → Bool
  | [], [] => true
  | x :: xs, y :: ys => pyEq x y && pyEqItems xs ys
  | _, _ => false
def pyEqMembers : List (String × Json) → List (String × Json) → Bool
  | [], _ => true
  | (name, value) :: rest, ys =>
    (match member name ys with
      | some other => pyEq value other
      | none => false) && pyEqMembers rest ys
end

mutual
def pyLe : Json → Json → Option Bool
  | str a, str b => some (a ≤ b)
  | arr xs, arr ys => pyLeItems xs ys
  | a, b =>
    match number a, number b with
    | some m, some n => some (m.le n)
    | _, _ => none
def pyLeItems : List Json → List Json → Option Bool
  | [], _ => some true
  | _ :: _, [] => some false
  | x :: xs, y :: ys => if pyEq x y then pyLeItems xs ys else pyLe x y
end

def iterated : Json → Option (List Json)
  | arr items => some items
  | str s => some (s.toList.map fun c => str (String.ofList [c]))
  | obj members => some (members.map fun m => str m.1)
  | _ => none

def hashable : Json → Bool
  | arr _ | obj _ => false
  | _ => true

def inSet (value : Json) (items : List Json) : Bool := items.any (pyEq value)

def asSet (value : Json) : Option (List Json) :=
  (iterated value).bind fun items => if items.all hashable then some items else none

def sameSet (xs ys : List Json) : Bool := xs.all (inSet · ys) && ys.all (inSet · xs)

/-- `sorted` of a set raises where two of its items have no order. -/
def sortable (items : List Json) : Bool :=
  items.all (fun a => items.all fun b => pyEq a b || (pyLe a b).isSome)

example : pyEq (.obj [("a", .int 1), ("b", .arr [.bool true])])
    (.obj [("b", .arr [.int 1]), ("a", .float "1.0" (some 1))]) = true := by decide

end Mirage.Json
