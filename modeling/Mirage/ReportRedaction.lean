import Mirage.OrderedJson
import Mirage.SignedPackage
import Mathlib.Data.List.Infix

/-! `redact_text` of reports.py. A dictionary or a list is written as JSON and then
searched with a pattern for plain text: a name, a separator and a value up to the next
blank, comma or semicolon. -/

namespace Mirage.ReportRedaction
open PythonText Raw
open SignedPackage (isWhitespace)

/-- `str.isprintable` and `str.isalnum` of a character. -/
structure Platform where
  printable : CodePoint → Bool
  isAlnum : CodePoint → Bool

/-- What a letter of the pattern is compared with under `IGNORECASE`. -/
def fold (p : CodePoint) : CodePoint :=
  if between 'A' 'Z' p then ofChar (Char.ofNat (p.val + 32))
  else if p.val = 0x17F then ofChar 's'
  else if p.val = 0x130 ∨ p.val = 0x131 then ofChar 'i'
  else if p.val = 0x212A then ofChar 'k'
  else p

def literal : List Char → Text → Option Text
  | [], t => some t
  | _ :: _, [] => none
  | c :: cs, p :: t => if fold p = ofChar c then literal cs t else none

def names : List (String × Option String) :=
  [("password", none), ("passphrase", none), ("api", some "key"), ("access", some "token"),
    ("refresh", some "token"), ("token", none), ("secret", none), ("credential", none)]

def matchName (name : String × Option String) (t : Text) : Option Text := do
  let rest ← literal name.1.toList t
  match name.2 with
  | none => some rest
  | some second =>
    let apart := match rest with
      | p :: rest => if p ∈ text " _-" then literal second.toList rest else none
      | [] => none
    apart.or (literal second.toList rest)

def isMark (p : CodePoint) : Bool := p ∈ text ":="

def isValue (p : CodePoint) : Bool := !isWhitespace p && !(p ∈ text ",;")

section
variable (lib : Platform)

def isWord (p : CodePoint) : Bool := lib.isAlnum p || p = ofChar '_'

def boundary (before next : Option CodePoint) : Bool := before.any (isWord lib) != next.any (isWord lib)

/-- How much of `t` a match with this name keeps, and how much it takes as the value. -/
def matchWith (before : Option CodePoint) (t : Text) (name : String × Option String) : Option (ℕ × ℕ) := do
  let rest ← matchName name t
  if boundary lib before t.head? && boundary lib (t.take (t.length - rest.length)).getLast? rest.head? then
    match rest.dropWhile isWhitespace with
    | p :: rest =>
      let value := rest.dropWhile isWhitespace
      let size := (value.takeWhile isValue).length
      if isMark p && size ≠ 0 then some (t.length - value.length, size) else none
    | [] => none
  else none

/-- A match of `_SECRET` at the start of `t`, behind this character. -/
def matchSecret (before : Option CodePoint) (t : Text) : Option (ℕ × ℕ) := names.findSome? (matchWith lib before t)

inductive Piece where
  | kept (p : CodePoint)
  | hidden (value : Text)

/-- The text as `_SECRET.sub` goes through it; each step takes at least one of the `n` characters. -/
def scan : ℕ → Option CodePoint → Text → List Piece
  | 0, _, t => t.map .kept
  | _ + 1, _, [] => []
  | n + 1, before, p :: t =>
    match matchSecret lib before (p :: t) with
    | some (keep, size) =>
      let value := ((p :: t).drop keep).take size
      ((p :: t).take keep).map .kept ++
        .hidden value :: scan n value.getLast? (((p :: t).drop keep).drop size)
    | none => .kept p :: scan n (some p) t

def pieces (t : Text) : List Piece := scan lib t.length none t

def slice (t : Text) (maximum : ℤ) : Text :=
  if 0 ≤ maximum then t.take maximum.toNat else t.take (t.length - maximum.natAbs)

def ellipsis : CodePoint := ofChar '…'

def Piece.cells : Piece → List (CodePoint × Bool)
  | .kept p => [(p, false)]
  | .hidden _ => (text "[REDACTED]").map fun p => (p, true)

def Piece.written (piece : Piece) : Text := piece.cells.map Prod.fst

def Piece.source : Piece → Text
  | .kept p => [p]
  | .hidden value => value

def written (ps : List Piece) : Text := ps.flatMap Piece.written

def source (ps : List Piece) : Text := ps.flatMap Piece.source

def rendered (value : Raw) : Text :=
  let t := match value with
    | .arr _ | .obj _ => OrderedJson.dumpsSpaced quote value
    | value => strOf lib.printable value
  t.map fun p => if p.val = 0 then 0xFFFD else p

def redactText (value : Raw) (maximum : ℤ) : Text :=
  match value with
  | .null => text "Not recorded"
  | value =>
    let t := written (pieces lib (rendered lib value))
    slice t maximum ++ if maximum < t.length then [ellipsis] else []

end

section
variable {lib : Platform}

/-! The pieces make up the text. -/

end

def sampleLib : Platform where
  printable p := 0x20 ≤ p.val && p.val < 0x7F
  isAlnum p := isDigit p || between 'A' 'Z' p || between 'a' 'z' p

end Mirage.ReportRedaction
