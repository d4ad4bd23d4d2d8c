import Mirage.RawValues
import Mirage.CanonicalInjective
import Mathlib.Data.List.TakeWhile

/-! `json.loads` of Python 3.12 on bytes and on texts. The scanner works on what remains
of the document, so that the position of an error is the length of the document less that
of the remainder. -/

namespace Mirage.JsonLoads
open PythonText Raw
open CanonicalInjective (isDelimiter Ends escapePoint_head join_cons)

/-- What the decoder takes from the interpreter: the JSON `repr` of the float
that a text denotes together with the integer it equals, and the decoding of
bytes that are not UTF-8, start with a mark or have a null among the first. -/
structure Interpreter where
  float : Text → String × Option Int
  decodeOther : ByteArray → Except Raised Text

inductive Stop where
  | invalid (message : String) (remaining : ℕ)
  | raised (exc : Raised)

def isSpace (p : CodePoint) : Bool := p ∈ text " \t\n\r"

def skip (t : Text) : Text := t.dropWhile isSpace

def hexDigit? (p : CodePoint) : Option ℕ :=
  if isDigit p then some (p.val - 48)
  else if between 'a' 'f' p then some (p.val - 87)
  else if between 'A' 'F' p then some (p.val - 55)
  else none

def hex4 (a b c d : CodePoint) : Option ℕ := do
  return 4096 * (← hexDigit? a) + 256 * (← hexDigit? b) + 16 * (← hexDigit? c) + (← hexDigit? d)

def unescape (p : CodePoint) : Option CodePoint :=
  if p = ofChar '"' ∨ p = ofChar '\\' ∨ p = ofChar '/' then some p
  else if p = ofChar 'b' then some 8
  else if p = ofChar 'f' then some 12
  else if p = ofChar 'n' then some 10
  else if p = ofChar 'r' then some 13
  else if p = ofChar 't' then some 9
  else none

def isHigh (n : ℕ) : Bool := 0xD800 ≤ n && n < 0xDC00

def isLow (n : ℕ) : Bool := 0xDC00 ≤ n && n < 0xE000

def joinSurrogates (high low : ℕ) : ℕ := 0x10000 + 1024 * (high - 0xD800) + (low - 0xDC00)

def point (n : ℕ) : CodePoint := Fin.ofNat 0x110000 n

/-- A code point and what remains after it. -/
abbrev Unescaped := Except Stop (CodePoint × Text)

def lowSurrogate (high : ℕ) (t : Text) : Unescaped :=
  match t with
  | slash :: u :: a :: b :: c :: d :: next :: rest =>
    if slash = ofChar '\\' ∧ u = ofChar 'u' then
      match hex4 a b c d with
      | none => .error (.invalid "Invalid \\uXXXX escape" (rest.length + 6))
      | some low =>
        if isLow low then .ok (point (joinSurrogates high low), next :: rest)
        else .ok (point high, t)
    else .ok (point high, t)
  | _ => .ok (point high, t)

def unicodeEscape (t : Text) : Unescaped :=
  match t with
  | a :: b :: c :: d :: next :: rest =>
    match hex4 a b c d with
    | none => .error (.invalid "Invalid \\uXXXX escape" (t.length + 1))
    | some n => if isHigh n then lowSurrogate n (next :: rest) else .ok (point n, next :: rest)
  | _ => .error (.invalid "Invalid \\uXXXX escape" (t.length + 1))

/-- The escape after a backslash; `start` is what remains at the opening quote. -/
def escape (start : ℕ) : Text → Unescaped
  | [] => .error (.invalid "Unterminated string starting at" start)
  | p :: rest =>
    if p = ofChar 'u' then unicodeEscape rest
    else
      match unescape p with
      | some q => .ok (q, rest)
      | none => .error (.invalid "Invalid \\escape" (rest.length + 2))

def scanString (start : ℕ) : ℕ → Text → Except Stop (Text × Text)
  | 0, _ | _, [] => .error (.invalid "Unterminated string starting at" start)
  | fuel + 1, p :: rest =>
    if p = ofChar '"' then .ok ([], rest)
    else if p.val < 0x20 then .error (.invalid "Invalid control character at" (rest.length + 1))
    else do
      let (q, rest) ← if p = ofChar '\\' then escape start rest else .ok (p, rest)
      let (t, rest) ← scanString start fuel rest
      return (q :: t, rest)

def wholePart : Text → Option (Text × Text)
  | [] => none
  | p :: rest =>
    if p = ofChar '0' then some ([p], rest)
    else if isDigit p then some (p :: rest.takeWhile isDigit, rest.dropWhile isDigit)
    else none

def signedPart : Text → Option (Text × Text)
  | [] => none
  | p :: rest =>
    if p = ofChar '-' then (wholePart rest).map fun r => (p :: r.1, r.2) else wholePart (p :: rest)

def fractionPart : Text → Text × Text
  | [] => ([], [])
  | p :: rest =>
    if p = ofChar '.' ∧ (rest.takeWhile isDigit) ≠ [] then
      (p :: rest.takeWhile isDigit, rest.dropWhile isDigit)
    else ([], p :: rest)

def signPart : Text → Text × Text
  | [] => ([], [])
  | p :: rest => if p = ofChar '+' ∨ p = ofChar '-' then ([p], rest) else ([], p :: rest)

def exponentPart : Text → Text × Text
  | [] => ([], [])
  | p :: rest =>
    let (sign, digits) := signPart rest
    if (p = ofChar 'e' ∨ p = ofChar 'E') ∧ digits.takeWhile isDigit ≠ [] then
      (p :: (sign ++ digits.takeWhile isDigit), digits.dropWhile isDigit)
    else ([], p :: rest)

def numberParts (t : Text) : Option (Text × Text × Text) :=
  (signedPart t).map fun (whole, t) =>
    let (fraction, t) := fractionPart t
    let (exponent, t) := exponentPart t
    (whole, fraction ++ exponent, t)

def intOf : Text → Except Stop Raw
  | [] => .error (.raised .valueError)
  | p :: rest =>
    if p = ofChar '-' then (parseInt rest).elim (.error (.raised .valueError)) fun n => .ok (.int (-n))
    else (parseInt (p :: rest)).elim (.error (.raised .valueError)) fun n => .ok (.int n)

def constants : List (String × Raw) :=
  [("null", .null), ("true", .bool true), ("false", .bool false), ("NaN", .float "NaN" none),
    ("Infinity", .float "Infinity" none), ("-Infinity", .float "-Infinity" none)]

def constant? (t : Text) : Option (Raw × Text) :=
  (constants.find? fun c => (text c.1).isPrefixOf t).map fun c => (c.2, t.drop c.1.length)

section
variable (py : Interpreter)

def scanNumber (t : Text) : Except Stop (Raw × Text) :=
  match numberParts t with
  | none => .error (.invalid "Expecting value" t.length)
  | some (whole, [], rest) => (intOf whole).map fun v => (v, rest)
  | some (whole, tail, rest) =>
    let (repr, integral) := py.float (whole ++ tail)
    .ok (.float repr integral, rest)

def scanAtom (t : Text) : Except Stop (Raw × Text) :=
  match constant? t with
  | some found => .ok found
  | none => scanNumber py t

def expect (mark : Char) (message : String) : Text → Except Stop Text
  | [] => .error (.invalid message 0)
  | p :: rest => if p = ofChar mark then .ok rest else .error (.invalid message (rest.length + 1))

def scanName (t : Text) : Except Stop (Text × Text) := do
  let rest ← expect '"' "Expecting property name enclosed in double quotes" t
  let (name, rest) ← scanString (rest.length + 1) rest.length rest
  let rest ← expect ':' "Expecting ':' delimiter" (skip rest)
  return (name, skip rest)

/-- Whether a closing mark or a comma comes next, and what remains after it and
the spaces behind a comma. -/
def scanEnd (close : Char) : Text → Except Stop (Bool × Text)
  | [] => .error (.invalid "Expecting ',' delimiter" 0)
  | p :: rest =>
    if p = ofChar close then .ok (true, rest)
    else if p = ofChar ',' then .ok (false, skip rest)
    else .error (.invalid "Expecting ',' delimiter" (rest.length + 1))

def opens (mark : Char) : Text → Option Text
  | [] => none
  | p :: rest => if p = ofChar mark then some rest else none

mutual
/-- `scan_once`; the steps bound how often the three functions call each other. -/
def scanOnce : ℕ → Text → Except Stop (Raw × Text)
  | 0, _ => .error (.raised .recursionError)
  | fuel + 1, t =>
    match opens '"' t, opens '\x7b' t, opens '[' t with
    | some rest, _, _ => (scanString t.length rest.length rest).map fun r => (.str r.1, r.2)
    | _, some rest, _ =>
      match opens '\x7d' (skip rest) with
      | some rest => .ok (.obj [], rest)
      | none => scanMembers fuel [] (skip rest)
    | _, _, some rest =>
      match opens ']' (skip rest) with
      | some rest => .ok (.arr [], rest)
      | none => scanItems fuel [] (skip rest)
    | _, _, _ => scanAtom py t
def scanMembers : ℕ → List (Text × Raw) → Text → Except Stop (Raw × Text)
  | 0, _, _ => .error (.raised .recursionError)
  | fuel + 1, members, t => do
    let (name, rest) ← scanName t
    let (value, rest) ← scanOnce fuel rest
    let (closed, rest) ← scanEnd '\x7d' (skip rest)
    if closed then return (.obj (setMember name value members), rest)
    else scanMembers fuel (setMember name value members) rest
def scanItems : ℕ → List Raw → Text → Except Stop (Raw × Text)
  | 0, _, _ => .error (.raised .recursionError)
  | fuel + 1, items, t => do
    let (value, rest) ← scanOnce fuel t
    let (closed, rest) ← scanEnd ']' (skip rest)
    if closed then return (.arr (items ++ [value]), rest)
    else scanItems fuel (items ++ [value]) rest
end

def errorText (doc : Text) (message : String) (pos : ℕ) : Text :=
  let before := doc.take pos
  let line := before.count (ofChar '\n') + 1
  let column := (before.reverse.takeWhile fun p => p ≠ ofChar '\n').length + 1
  text message ++ text ": line " ++ text (toString line) ++ text " column " ++
    text (toString column) ++ text " (char " ++ text (toString pos) ++ text ")"

def jsonDecodeError (doc : Text) (message : String) (pos : ℕ) : Raised :=
  ⟨.jsonDecodeError, text "JSONDecodeError", errorText doc message pos⟩

def Stop.exc (doc : Text) : Stop → Raised
  | .invalid message remaining => jsonDecodeError doc message (doc.length - remaining)
  | .raised exc => exc

def finish (doc : Text) : Raw × Text → Except Raised Raw
  | (value, rest) =>
    match skip rest with
    | [] => .ok value
    | _ :: rest => .error ((Stop.invalid "Extra data" (rest.length + 1)).exc doc)

def decode (doc : Text) : Except Raised Raw :=
  match scanOnce py (2 * doc.length + 2) (skip doc) with
  | .error stop => .error (stop.exc doc)
  | .ok found => finish doc found

def loadsText (doc : Text) : Except Raised Raw :=
  if doc.head? = some 0xFEFF then
    .error (jsonDecodeError doc "Unexpected UTF-8 BOM (decode using utf-8-sig)" 0)
  else decode py doc

def detectsUtf8 (bytes : ByteArray) : Bool :=
  match bytes.data.toList with
  | 0xEF :: 0xBB :: 0xBF :: _ | 0xFE :: 0xFF :: _ | 0xFF :: 0xFE :: _ => false
  | [a, b] => a ≠ 0 && b ≠ 0
  | a :: b :: _ :: _ :: _ => a ≠ 0 && b ≠ 0
  | _ => true

/-- `bytes.decode(json.detect_encoding(bytes), 'surrogatepass')`. -/
def decodeBytes (bytes : ByteArray) : Except Raised Text :=
  if detectsUtf8 bytes then
    match String.fromUTF8? bytes with
    | some s => .ok (text s)
    | none => py.decodeOther bytes
  else py.decodeOther bytes

def loads (bytes : ByteArray) : Except Raised Raw := do
  decode py (← decodeBytes py bytes)

end

theorem escape_quoted {p q : CodePoint} (start : ℕ) (rest : Text) (known : unescape p = some q)
    (other : p ≠ ofChar 'u') : escape start (p :: rest) = .ok (q, rest) := by
  rw [escape, if_neg other, known]

theorem hex4_control : ∀ n < 32,
    hex4 (ofChar '0') (ofChar '0') (ofChar (Json.hexDigit (n / 16)))
      (ofChar (Json.hexDigit (n % 16))) = some n := by decide

theorem escape_control (start : ℕ) {n : ℕ} (control : n < 32) (next : CodePoint) (rest : Text) :
    escape start (ofChar 'u' :: ofChar '0' :: ofChar '0' :: ofChar (Json.hexDigit (n / 16)) ::
      ofChar (Json.hexDigit (n % 16)) :: next :: rest) = .ok (point n, next :: rest) := by
  have low : isHigh n = false := by
    rw [isHigh, Bool.and_eq_false_iff, decide_eq_false_iff_not]
    omega
  rw [escape, if_pos rfl, unicodeEscape, hex4_control n control]
  simp [low]

inductive Escaped (p : CodePoint) : Text → Prop where
  | plain (quoted : p ≠ ofChar '"') (slash : p ≠ ofChar '\\') (printed : ¬p.val < 32) : Escaped p [p]
  | short (q : CodePoint) (known : unescape q = some p) (other : q ≠ ofChar 'u') :
    Escaped p [ofChar '\\', q]
  | control (low : p.val < 32) : Escaped p [ofChar '\\', ofChar 'u', ofChar '0', ofChar '0',
      ofChar (Json.hexDigit (p.val / 16)), ofChar (Json.hexDigit (p.val % 16))]

theorem escaped_ascii (c : Char) : Escaped (ofChar c) ((Json.escapeChar c).map ofChar) := by
  have named : ∀ d : Char, c ≠ d → ofChar c ≠ ofChar d := fun d apart same =>
    apart (ofChar_injective same)
  unfold Json.escapeChar
  split
  next same => subst same; exact .short _ (by decide) (by decide)
  next quoted =>
  split
  next same => subst same; exact .short _ (by decide) (by decide)
  next slash =>
  split
  next same => subst same; exact .short _ (by decide) (by decide)
  next =>
  split
  next same => subst same; exact .short _ (by decide) (by decide)
  next =>
  split
  next same => subst same; exact .short _ (by decide) (by decide)
  next =>
  split
  next code =>
    have point : ofChar c = 8 := Fin.ext code
    rw [point]
    exact .short _ (by decide) (by decide)
  next =>
  split
  next code =>
    have point : ofChar c = 12 := Fin.ext code
    rw [point]
    exact .short _ (by decide) (by decide)
  next =>
  split
  next low => exact .control low
  next printed => exact .plain (named '"' quoted) (named '\\' slash) printed

theorem escaped (p : CodePoint) : Escaped p (escapePoint p) := by
  unfold escapePoint
  split
  next ascii =>
    have proper : isSurrogate p = false := by
      rw [isSurrogate, Bool.and_eq_false_iff, decide_eq_false_iff_not]
      omega
    have known := escaped_ascii (toChar p)
    rw [ofChar_toChar proper] at known
    exact known
  next high =>
    have apart : ∀ c : Char, c.toNat < 0x80 → p ≠ ofChar c := by
      intro c ascii same
      rw [same, ofChar_val] at high
      exact high ascii
    exact .plain (apart '"' (by decide)) (apart '\\' (by decide)) (by omega)

theorem scanString_point (start fuel : ℕ) (p next : CodePoint) (rest : Text) :
    scanString start (fuel + 1) (escapePoint p ++ next :: rest) = (do
      let (t, rest) ← scanString start fuel (next :: rest)
      return (p :: t, rest)) := by
  have slash : ofChar '\\' ≠ ofChar '"' := by decide
  have printed : ¬(ofChar '\\').val < 0x20 := by decide
  have known := escaped p
  generalize escapePoint p = written at known ⊢
  cases known with
  | plain quoted escaped low =>
    rw [List.singleton_append, scanString, if_neg quoted, if_neg low, if_neg escaped]
    rfl
  | short q known other =>
    rw [List.cons_append, scanString, if_neg slash, if_neg printed, if_pos rfl,
      List.singleton_append, escape_quoted start _ known other]
    rfl
  | control low =>
    have same : point p.val = p := Fin.ext (Nat.mod_eq_of_lt p.isLt)
    have read := escape_control start low next rest
    rw [same] at read
    rw [List.cons_append, scanString, if_neg slash, if_neg printed, if_pos rfl]
    simp only [List.cons_append, List.nil_append]
    rw [read]
    rfl

def ReadsPoint (enc : CodePoint → Text) (p : CodePoint) : Prop :=
  enc p ≠ [] ∧ ∀ start fuel next rest, scanString start (fuel + 1) (enc p ++ next :: rest) = (do
    let (t, rest) ← scanString start fuel (next :: rest)
    return (p :: t, rest))

theorem readsPoint_escape (p : CodePoint) : ReadsPoint escapePoint p := by
  refine ⟨?_, fun start fuel next rest => scanString_point start fuel p next rest⟩
  obtain ⟨q, rest, form, -⟩ := escapePoint_head p
  rw [form]
  exact List.cons_ne_nil q rest

section
variable {enc : CodePoint → Text}

theorem scanString_points (start : ℕ) (t rest : Text) (reads : ∀ p ∈ t, ReadsPoint enc p) : ∀ fuel > t.length,
    scanString start fuel (t.flatMap enc ++ ofChar '"' :: rest) = .ok (t, rest) := by
  induction t with
  | nil =>
    intro fuel enough
    obtain ⟨fuel, rfl⟩ : ∃ n, fuel = n + 1 := ⟨fuel - 1, by omega⟩
    rw [List.flatMap_nil, List.nil_append, scanString, if_pos rfl]
  | cons p t ih =>
    intro fuel enough
    rw [List.length_cons] at enough
    obtain ⟨fuel, rfl⟩ : ∃ n, fuel = n + 1 := ⟨fuel - 1, by omega⟩
    obtain ⟨next, after, form⟩ : ∃ next after,
        t.flatMap enc ++ ofChar '"' :: rest = next :: after := by
      cases t.flatMap enc with
      | nil => exact ⟨_, _, rfl⟩
      | cons next after => exact ⟨_, _, rfl⟩
    have first := (reads p List.mem_cons_self).2 start fuel next after
    have later := ih (fun q mem => reads q (List.mem_cons_of_mem p mem)) fuel (by omega)
    rw [List.flatMap_cons, List.append_assoc, form, first, ← form, later]
    rfl

theorem length_le_points (t : Text) (reads : ∀ p ∈ t, ReadsPoint enc p) : t.length ≤ (t.flatMap enc).length := by
  induction t with
  | nil => exact Nat.zero_le _
  | cons p t ih =>
    have first := List.length_pos_iff.mpr (reads p List.mem_cons_self).1
    have later := ih fun q mem => reads q (List.mem_cons_of_mem p mem)
    rw [List.flatMap_cons, List.length_append, List.length_cons]
    omega

end

def ReadsText (written t : Text) : Prop :=
  ∀ rest, ∃ body, written ++ rest = ofChar '"' :: body ∧
    ∀ start, scanString start body.length body = .ok (t, rest)

theorem readsText_points {enc : CodePoint → Text} {t : Text} (reads : ∀ p ∈ t, ReadsPoint enc p) :
    ReadsText (ofChar '"' :: (t.flatMap enc ++ [ofChar '"'])) t := by
  intro rest
  refine ⟨t.flatMap enc ++ ofChar '"' :: rest, ?_,
    fun start => scanString_points start t rest reads _ ?_⟩
  · rw [List.cons_append, List.append_assoc, List.singleton_append]
  · rw [List.length_append, List.length_cons]
    have long := length_le_points t reads
    omega

theorem readsText_quote (t : Text) : ReadsText (quote t) t :=
  readsText_points fun p _ => readsPoint_escape p

/-! Numbers are read up to the delimiter behind them. -/

theorem delimiter_other {p : CodePoint} (delimiter : isDelimiter p = true) :
    isDigit p = false ∧ ∀ c ∈ ['0', '-', '+', '.', 'e', 'E'], p ≠ ofChar c := by
  rw [isDelimiter, Bool.or_eq_true, Bool.or_eq_true, decide_eq_true_eq, decide_eq_true_eq,
    decide_eq_true_eq] at delimiter
  rcases delimiter with (rfl | rfl) | rfl
  all_goals exact ⟨by decide, forall_mem_of_all (by decide)⟩

theorem digits_append (t : Text) {rest : Text} (ends : Ends rest) :
    (t ++ rest).takeWhile isDigit = t.takeWhile isDigit ∧
      (t ++ rest).dropWhile isDigit = t.dropWhile isDigit ++ rest := by
  have stops : rest.takeWhile isDigit = [] ∧ rest.dropWhile isDigit = rest := by
    cases rest with
    | nil => exact ⟨rfl, rfl⟩
    | cons p rest =>
      have other := (delimiter_other ends).1
      rw [List.takeWhile_cons, List.dropWhile_cons, other]
      exact ⟨rfl, rfl⟩
  induction t with
  | nil => exact stops
  | cons p t ih =>
    rw [List.cons_append, List.takeWhile_cons, List.takeWhile_cons, List.dropWhile_cons,
      List.dropWhile_cons, ih.1, ih.2]
    split <;> exact ⟨rfl, rfl⟩

theorem wholePart_append (t : Text) {rest : Text} (ends : Ends rest) :
    wholePart (t ++ rest) = (wholePart t).map fun r => (r.1, r.2 ++ rest) := by
  cases t with
  | nil =>
    cases rest with
    | nil => rfl
    | cons p rest =>
      have other := delimiter_other ends
      rw [List.nil_append, wholePart, wholePart, if_neg (other.2 '0' (by decide)), other.1]
      rfl
  | cons p t =>
    rw [List.cons_append, wholePart, wholePart, (digits_append t ends).1, (digits_append t ends).2]
    split
    · rfl
    · split <;> rfl

theorem signedPart_append (t : Text) {rest : Text} (ends : Ends rest) :
    signedPart (t ++ rest) = (signedPart t).map fun r => (r.1, r.2 ++ rest) := by
  cases t with
  | nil =>
    cases rest with
    | nil => rfl
    | cons p rest =>
      have other := (delimiter_other ends).2 '-' (by decide)
      rw [List.nil_append, signedPart, signedPart, if_neg other]
      exact wholePart_append [] ends
  | cons p t =>
    rw [List.cons_append, signedPart, signedPart, wholePart_append t ends]
    split
    · rw [Option.map_map, Option.map_map]
      rfl
    · exact wholePart_append (p :: t) ends

theorem fractionPart_append (t : Text) {rest : Text} (ends : Ends rest) :
    fractionPart (t ++ rest) = ((fractionPart t).1, (fractionPart t).2 ++ rest) := by
  cases t with
  | nil =>
    cases rest with
    | nil => rfl
    | cons p rest =>
      have other := (delimiter_other ends).2 '.' (by decide)
      rw [List.nil_append, fractionPart, fractionPart, if_neg fun point => other point.1]
      rfl
  | cons p t =>
    rw [List.cons_append, fractionPart, fractionPart, (digits_append t ends).1,
      (digits_append t ends).2]
    split <;> rfl

theorem signPart_append (t : Text) {rest : Text} (ends : Ends rest) :
    signPart (t ++ rest) = ((signPart t).1, (signPart t).2 ++ rest) := by
  cases t with
  | nil =>
    cases rest with
    | nil => rfl
    | cons p rest =>
      have other := (delimiter_other ends).2
      rw [List.nil_append, signPart, signPart, if_neg (not_or.mpr ⟨other '+' (by decide), other '-' (by decide)⟩)]
      rfl
  | cons p t =>
    rw [List.cons_append, signPart, signPart]
    split <;> rfl

theorem exponentPart_append (t : Text) {rest : Text} (ends : Ends rest) :
    exponentPart (t ++ rest) = ((exponentPart t).1, (exponentPart t).2 ++ rest) := by
  cases t with
  | nil =>
    cases rest with
    | nil => rfl
    | cons p rest =>
      have other := (delimiter_other ends).2
      have none : ¬(p = ofChar 'e' ∨ p = ofChar 'E') :=
        not_or.mpr ⟨other 'e' (by decide), other 'E' (by decide)⟩
      rw [List.nil_append, exponentPart, exponentPart]
      simp only [none, false_and, if_false, List.nil_append]
  | cons p t =>
    rw [List.cons_append, exponentPart, exponentPart, signPart_append t ends]
    simp only [digits_append _ ends]
    split <;> rfl

theorem numberParts_append (t : Text) {rest : Text} (ends : Ends rest) :
    numberParts (t ++ rest) = (numberParts t).map fun r => (r.1, r.2.1, r.2.2 ++ rest) := by
  rw [numberParts, numberParts, signedPart_append t ends, Option.map_map, Option.map_map]
  congr 1
  funext r
  simp only [Function.comp_apply, fractionPart_append _ ends, exponentPart_append _ ends]

/-! What an integer is written as. -/

theorem digits_text (k : ℕ) : ∀ p ∈ text k.repr, isDigit p = true := by
  intro p mem
  rw [text, Nat.toList_repr, List.mem_map] at mem
  obtain ⟨c, mem, rfl⟩ := mem
  have digit := Nat.isDigit_of_mem_toDigits (by decide) (by decide) mem
  rw [Char.isDigit, Bool.and_eq_true, decide_eq_true_eq, decide_eq_true_eq] at digit
  rw [isDigit, between, Bool.and_eq_true, decide_eq_true_eq, decide_eq_true_eq]
  exact digit

theorem text_append (a b : String) : text (a ++ b) = text a ++ text b := by
  rw [text, String.toList_append, List.map_append, text, text]

theorem head_text (k : ℕ) (positive : 0 < k) :
    ∃ p rest, text k.repr = p :: rest ∧ p ≠ ofChar '0' := by
  induction k using Nat.strong_induction_on with
  | _ k ih =>
    by_cases small : k < 10
    · have digit : ∀ n < 10, 0 < n → ofChar (Nat.digitChar n) ≠ ofChar '0' := by decide
      refine ⟨ofChar (Nat.digitChar k), [], ?_, digit k small positive⟩
      rw [text, Nat.toList_repr, Nat.toDigits_of_lt_base small, List.map_singleton]
    · obtain ⟨p, rest, form, other⟩ := ih (k / 10) (by omega) (by omega)
      rw [Nat.repr_of_ge (by omega), text_append, form]
      exact ⟨p, _, rfl, other⟩

theorem wholePart_digits (k : ℕ) : wholePart (text k.repr) = some (text k.repr, []) := by
  rcases Nat.eq_zero_or_pos k with rfl | positive
  · decide
  · obtain ⟨p, rest, form, other⟩ := head_text k positive
    have digits := digits_text k
    rw [form] at digits ⊢
    have behind : ∀ q ∈ rest, isDigit q = true := fun q mem => digits q (List.mem_cons_of_mem p mem)
    rw [wholePart, if_neg other, if_pos (digits p List.mem_cons_self),
      List.takeWhile_eq_self_iff.mpr behind, List.dropWhile_eq_nil_iff.mpr behind]

theorem digitsValue_text (k : ℕ) : digitsValue (text k.repr) = k := by
  rw [digitsValue, text, Nat.toList_repr, List.foldl_map]
  exact Nat.ofDigitChars_ten_toDigits

theorem text_int (n : Int) : text (toString n) =
    if n < 0 then ofChar '-' :: text n.natAbs.repr else text n.natAbs.repr := by
  rw [Int.toString_eq_repr, Int.repr_eq_if]
  by_cases negative : n < 0
  · have size : (-n).toNat = n.natAbs := by omega
    rw [if_neg (by omega), if_pos negative, text_append, size]
    rfl
  · have size : n.toNat = n.natAbs := by omega
    rw [if_pos (by omega), if_neg negative, size]

theorem no_sign {k : ℕ} : ∃ p rest, text k.repr = p :: rest ∧ p ≠ ofChar '-' := by
  cases form : text k.repr with
  | nil =>
    have long := wholePart_digits k
    rw [form] at long
    cases long
  | cons p rest =>
    refine ⟨p, rest, rfl, ?_⟩
    rintro rfl
    have digit := digits_text k (ofChar '-') (form ▸ List.mem_cons_self)
    revert digit
    decide

theorem signedPart_int (n : Int) :
    signedPart (text (toString n)) = some (text (toString n), []) := by
  rw [text_int]
  split
  · rw [signedPart, if_pos rfl, wholePart_digits]
    rfl
  · obtain ⟨p, rest, form, other⟩ := no_sign (k := n.natAbs)
    have whole := wholePart_digits n.natAbs
    rw [form] at whole ⊢
    rw [signedPart, if_neg other, whole]

theorem numberParts_int (n : Int) :
    numberParts (text (toString n)) = some (text (toString n), [], []) := by
  rw [numberParts, signedPart_int]
  rfl

theorem intOf_text {n : Int} (short : n.natAbs.repr.length ≤ maxStrDigits) :
    intOf (text (toString n)) = .ok (.int n) := by
  have read : parseInt (text n.natAbs.repr) = some n.natAbs := by
    rw [parseInt, text, List.length_map, String.length_toList, if_pos short, ← text,
      digitsValue_text]
  rw [text_int]
  split
  next negative =>
    rw [intOf, if_pos rfl, read]
    simp only [Option.elim_some, Except.ok.injEq, Raw.int.injEq]
    omega
  next =>
    obtain ⟨p, rest, form, other⟩ := no_sign (k := n.natAbs)
    rw [form] at read ⊢
    rw [intOf, if_neg other, read]
    simp only [Option.elim_some, Except.ok.injEq, Raw.int.injEq]
    omega

/-! The parts of a number make up its text. -/

theorem wholePart_join {t w r : Text} (parts : wholePart t = some (w, r)) : w ++ r = t := by
  cases t with
  | nil => cases parts
  | cons p t =>
    rw [wholePart] at parts
    split at parts
    · cases parts
      rfl
    · split at parts
      · cases parts
        rw [List.cons_append, List.takeWhile_append_dropWhile]
      · cases parts

theorem signedPart_join {t w r : Text} (parts : signedPart t = some (w, r)) : w ++ r = t := by
  cases t with
  | nil => cases parts
  | cons p t =>
    rw [signedPart] at parts
    split at parts
    · rw [Option.map_eq_some_iff] at parts
      obtain ⟨found, whole, same⟩ := parts
      cases same
      rw [List.cons_append, wholePart_join whole]
    · exact wholePart_join parts

theorem fractionPart_join (t : Text) : (fractionPart t).1 ++ (fractionPart t).2 = t := by
  cases t with
  | nil => rfl
  | cons p t =>
    rw [fractionPart]
    split
    · rw [List.cons_append, List.takeWhile_append_dropWhile]
    · rfl

theorem signPart_join (t : Text) : (signPart t).1 ++ (signPart t).2 = t := by
  cases t with
  | nil => rfl
  | cons p t =>
    rw [signPart]
    split <;> rfl

theorem exponentPart_join (t : Text) : (exponentPart t).1 ++ (exponentPart t).2 = t := by
  cases t with
  | nil => rfl
  | cons p t =>
    rw [exponentPart]
    split
    next sign digits form =>
    have joined := signPart_join t
    rw [form] at joined
    split
    · rw [List.cons_append, List.append_assoc, List.takeWhile_append_dropWhile, joined]
    · rfl

theorem numberParts_join {t whole tail rest : Text}
    (parts : numberParts t = some (whole, tail, rest)) : whole ++ tail ++ rest = t := by
  rw [numberParts, Option.map_eq_some_iff] at parts
  obtain ⟨⟨w, r⟩, signed, same⟩ := parts
  simp only [Prod.mk.injEq] at same
  rw [← same.1, ← same.2.1, ← same.2.2]
  rw [List.append_assoc, List.append_assoc, exponentPart_join, fractionPart_join,
    signedPart_join signed]

/-! The values that can be written as JSON and read back. -/

section
variable (py : Interpreter)

def readableFloat (repr : String) (integral : Option Int) : Bool :=
  match numberParts (text repr) with
  | some (_, tail, []) => tail ≠ [] && py.float (text repr) = (repr, integral)
  | _ => repr ∈ ["NaN", "Infinity", "-Infinity"] && integral = none

mutual
/-- Integers are not too long to be read, floats are what their `repr` denotes,
and dictionaries have distinct keys. -/
def readable : Raw → Bool
  | .int n => n.natAbs.repr.length ≤ maxStrDigits
  | .float repr integral => readableFloat py repr integral
  | .arr items => readableItems items
  | .obj members => (members.map Prod.fst).Nodup && readableMembers members
  | _ => true
def readableItems : List Raw → Bool
  | [] => true
  | item :: rest => readable item && readableItems rest
def readableMembers : List (Text × Raw) → Bool
  | [] => true
  | (_, value) :: rest => readable value && readableMembers rest
end

end

def sortKeys (members : List (Text × Raw)) : List (Text × Raw) :=
  members.insertionSort fun a b => a.1 ≤ b.1

mutual
def ordered : Raw → Raw
  | .arr items => .arr (orderedItems items)
  | .obj members => .obj (sortKeys (orderedMembers members))
  | value => value
def orderedItems : List Raw → List Raw
  | [] => []
  | item :: rest => ordered item :: orderedItems rest
def orderedMembers : List (Text × Raw) → List (Text × Raw)
  | [] => []
  | (name, value) :: rest => (name, ordered value) :: orderedMembers rest
end

inductive NumberHead : Text → Prop where
  | digit {p : CodePoint} (rest : Text) (known : isDigit p = true) : NumberHead (p :: rest)
  | minus {p : CodePoint} (rest : Text) (known : isDigit p = true) : NumberHead (ofChar '-' :: p :: rest)

theorem wholePart_head {t : Text} {r : Text × Text} (parts : wholePart t = some r) :
    ∃ p rest, t = p :: rest ∧ isDigit p = true := by
  cases t with
  | nil => cases parts
  | cons p rest =>
    refine ⟨p, rest, rfl, ?_⟩
    rw [wholePart] at parts
    split at parts
    next zero => rw [zero]; rfl
    next =>
      split at parts
      next digit => exact digit
      next => cases parts

theorem numberParts_head {t : Text} {r : Text × Text × Text} (parts : numberParts t = some r) :
    NumberHead t := by
  rw [numberParts, Option.map_eq_some_iff] at parts
  obtain ⟨signed, parts, _⟩ := parts
  cases t with
  | nil => cases parts
  | cons p rest =>
    rw [signedPart] at parts
    split at parts
    next minus =>
      rw [Option.map_eq_some_iff] at parts
      obtain ⟨whole, parts, _⟩ := parts
      obtain ⟨q, rest, rfl, digit⟩ := wholePart_head parts
      rw [minus]
      exact .minus rest digit
    next =>
      obtain ⟨q, rest', form, digit⟩ := wholePart_head parts
      rw [form]
      exact .digit rest' digit

theorem digit_ne {p : CodePoint} (digit : isDigit p = true) {c : Char}
    (other : isDigit (ofChar c) = false) : p ≠ ofChar c := by
  rintro rfl
  rw [digit] at other
  cases other

theorem constant_head {c : String × Raw} (mem : c ∈ constants) : ∃ p q s, text c.1 = p :: q :: s ∧
    isDigit p = false ∧ (p = ofChar '-' → isDigit q = false) := by
  simp only [constants, List.mem_cons, List.not_mem_nil, or_false] at mem
  rcases mem with rfl | rfl | rfl | rfl | rfl | rfl
  all_goals exact ⟨_, _, _, rfl, by decide, by decide⟩

theorem constant?_eq_none {t : Text} (head : NumberHead t) : constant? t = none := by
  rw [constant?, Option.map_eq_none_iff, List.find?_eq_none]
  intro c mem
  obtain ⟨p, q, s, form, first, second⟩ := constant_head mem
  rw [form, Bool.not_eq_true]
  cases head with
  | @digit d rest known =>
    have apart : p ≠ d := fun same => by rw [← same, first] at known; cases known
    rw [List.isPrefixOf_cons_cons, beq_eq_false_iff_ne.mpr apart, Bool.false_and]
  | @minus d rest known =>
    rw [List.isPrefixOf_cons_cons, List.isPrefixOf_cons_cons]
    by_cases minus : p = ofChar '-'
    · have apart : q ≠ d := fun same => by rw [← same, second minus] at known; cases known
      rw [beq_eq_false_iff_ne.mpr apart, Bool.false_and, Bool.and_false]
    · rw [beq_eq_false_iff_ne.mpr minus, Bool.false_and]

section
variable {py : Interpreter}

def ReadsAs (py : Interpreter) (s : Text) (v : Raw) : Prop :=
  (∃ p rest, s = p :: rest ∧ isSpace p = false ∧ p ≠ ofChar ']') ∧
    ∀ fuel rest, Ends rest → 2 * s.length < fuel → scanOnce py fuel (s ++ rest) = .ok (v, rest)

def Reads (py : Interpreter) (v : Raw) : Prop :=
  (∃ p rest, dumps v = p :: rest ∧ isSpace p = false ∧ p ≠ ofChar ']') ∧
    ∀ fuel rest, Ends rest → 2 * (dumps v).length < fuel →
      scanOnce py fuel (dumps v ++ rest) = .ok (ordered v, rest)

theorem scanAtom_constant {name : String} {v : Raw} (mem : (name, v) ∈ constants) (rest : Text) :
    scanAtom py (text name ++ rest) = .ok (v, rest) := by
  have found : constant? (text name ++ rest) = some (v, rest) := by
    simp only [constants, List.mem_cons, Prod.mk.injEq, List.not_mem_nil, or_false] at mem
    rcases mem with ⟨rfl, rfl⟩ | ⟨rfl, rfl⟩ | ⟨rfl, rfl⟩ | ⟨rfl, rfl⟩ | ⟨rfl, rfl⟩ | ⟨rfl, rfl⟩
    all_goals rfl
  rw [scanAtom, found]

theorem scanAtom_int {n : Int} (short : n.natAbs.repr.length ≤ maxStrDigits) {rest : Text}
    (ends : Ends rest) : scanAtom py (text (toString n) ++ rest) = .ok (.int n, rest) := by
  have parts : numberParts (text (toString n) ++ rest) = some (text (toString n), [], rest) := by
    rw [numberParts_append _ ends, numberParts_int]
    rfl
  rw [scanAtom, constant?_eq_none (numberParts_head parts), scanNumber, parts]
  simp only [intOf_text short]
  rfl

theorem scanAtom_float {repr : String} {integral : Option Int} {whole tail rest : Text}
    (parts : numberParts (text repr) = some (whole, tail, [])) (some' : tail ≠ [])
    (known : py.float (text repr) = (repr, integral)) (ends : Ends rest) :
    scanAtom py (text repr ++ rest) = .ok (.float repr integral, rest) := by
  have parts' : numberParts (text repr ++ rest) = some (whole, tail, rest) := by
    rw [numberParts_append _ ends, parts]
    rfl
  have joined := numberParts_join parts
  rw [List.append_nil] at joined
  rw [scanAtom, constant?_eq_none (numberParts_head parts'), scanNumber, parts']
  cases tail with
  | nil => exact absurd rfl some'
  | cons p tail => simp only [joined, known]

theorem scanOnce_atom (fuel : ℕ) {p : CodePoint} {t : Text}
    (other : ∀ c ∈ ['"', '\x7b', '['], p ≠ ofChar c) :
    scanOnce py (fuel + 1) (p :: t) = scanAtom py (p :: t) := by
  rw [scanOnce, opens, opens, opens, if_neg (other _ (by decide)), if_neg (other _ (by decide)),
    if_neg (other _ (by decide))]

theorem reads_atom {v : Raw} (plain : ordered v = v) {p : CodePoint} {s : Text}
    (form : dumps v = p :: s) (space : isSpace p = false)
    (other : ∀ c ∈ ['"', '\x7b', '[', ']'], p ≠ ofChar c)
    (scan : ∀ rest, Ends rest → scanAtom py (dumps v ++ rest) = .ok (v, rest)) : Reads py v := by
  refine ⟨⟨p, s, form, space, other ']' (by decide)⟩, fun fuel rest ends enough => ?_⟩
  obtain ⟨fuel, rfl⟩ : ∃ n, fuel = n + 1 := ⟨fuel - 1, by omega⟩
  have scan := scan rest ends
  rw [form, List.cons_append] at scan ⊢
  have plainHead : ∀ c ∈ ['"', '\x7b', '['], p ≠ ofChar c := fun c mem =>
    other c (List.mem_append_left [']'] mem)
  rw [scanOnce_atom fuel plainHead, scan, plain]

theorem reads_constant (name : String) {v : Raw} (mem : (name, v) ∈ constants)
    (form : dumps v = text name) (plain : ordered v = v) : Reads py v := by
  have heads : (constants.all fun c => (text c.1).head?.any fun p => !isSpace p &&
      ['"', '\x7b', '[', ']'].all fun c => decide (p ≠ ofChar c)) = true := by decide
  have head := List.all_eq_true.mp heads _ mem
  cases written : text name with
  | nil => rw [written] at head; cases head
  | cons p s =>
    rw [written, List.head?_cons, Option.any_some, Bool.and_eq_true, Bool.not_eq_true'] at head
    refine reads_atom plain (form.trans written) head.1 (forall_mem_of_all head.2) fun rest _ => ?_
    rw [form]
    exact scanAtom_constant mem rest

theorem digit_plain {p : CodePoint} (digit : isDigit p = true) :
    isSpace p = false ∧ ∀ c ∈ ['"', '\x7b', '[', ']'], p ≠ ofChar c := by
  constructor
  · rw [isSpace, decide_eq_false_iff_not, text, List.mem_map]
    rintro ⟨c, mem, rfl⟩
    have other : ∀ c ∈ " \t\n\r".toList, isDigit (ofChar c) = false :=
      forall_mem_of_all (by decide)
    rw [other c mem] at digit
    cases digit
  · have other : ∀ c ∈ ['"', '\x7b', '[', ']'], isDigit (ofChar c) = false :=
      forall_mem_of_all (by decide)
    exact fun c mem => digit_ne digit (other c mem)

theorem reads_number {v : Raw} (plain : ordered v = v) (head : NumberHead (dumps v))
    (scan : ∀ rest, Ends rest → scanAtom py (dumps v ++ rest) = .ok (v, rest)) : Reads py v := by
  generalize form : dumps v = t at head
  cases head with
  | digit rest known =>
    exact reads_atom plain form (digit_plain known).1 (digit_plain known).2 scan
  | minus rest known => exact reads_atom plain form (by decide) (forall_mem_of_all (by decide)) scan

theorem reads_int {n : Int} (short : n.natAbs.repr.length ≤ maxStrDigits) : Reads py (.int n) :=
  reads_number rfl (numberParts_head (numberParts_int n)) fun _ ends => scanAtom_int short ends

theorem reads_float {repr : String} {integral : Option Int}
    (known : readableFloat py repr integral = true) : Reads py (.float repr integral) := by
  rw [readableFloat] at known
  split at known
  next whole tail parts =>
    rw [Bool.and_eq_true, decide_eq_true_eq, decide_eq_true_eq] at known
    exact reads_number rfl (numberParts_head parts) fun _ ends =>
      scanAtom_float parts known.1 known.2 ends
  next =>
    rw [Bool.and_eq_true, decide_eq_true_eq, decide_eq_true_eq] at known
    obtain ⟨mem, rfl⟩ := known
    simp only [List.mem_cons, List.not_mem_nil, or_false] at mem
    rcases mem with rfl | rfl | rfl
    all_goals exact reads_constant _ (by simp [constants]) rfl rfl

theorem readsAs_str {written t : Text} (reads : ReadsText written t) : ReadsAs py written (.str t) := by
  constructor
  · obtain ⟨body, form, -⟩ := reads []
    rw [List.append_nil] at form
    exact ⟨ofChar '"', body, form, by decide, by decide⟩
  · intro fuel rest _ enough
    obtain ⟨fuel, rfl⟩ : ∃ n, fuel = n + 1 := ⟨fuel - 1, by omega⟩
    obtain ⟨body, form, scan⟩ := reads rest
    rw [form, scanOnce, opens, if_pos rfl]
    simp only [scan]
    rfl

theorem reads_str (t : Text) : Reads py (.str t) := readsAs_str (readsText_quote t)

theorem skip_cons {p : CodePoint} (space : isSpace p = false) (t : Text) :
    skip (p :: t) = p :: t := by
  rw [skip, List.dropWhile_cons, space]
  rfl

theorem ReadsAs.skip_eq {s : Text} {v : Raw} (reads : ReadsAs py s v) (t : Text) :
    skip (s ++ t) = s ++ t := by
  obtain ⟨p, s, form, space, -⟩ := reads.1
  rw [form, List.cons_append, skip_cons space]

theorem dumpsItems_eq (items : List Raw) : dumpsItems items = items.map dumps := by
  induction items with
  | nil => rfl
  | cons item rest ih => rw [dumpsItems, ih, List.map_cons]

theorem orderedItems_eq (items : List Raw) : orderedItems items = items.map ordered := by
  induction items with
  | nil => rfl
  | cons item rest ih => rw [orderedItems, ih, List.map_cons]

theorem join_more (part next : Text) (rest : List Text) :
    join (part :: next :: rest) = part ++ ofChar ',' :: join (next :: rest) := by
  rw [join, List.intercalate_cons_cons, join, List.append_assoc, List.singleton_append]

theorem scanEnd_close (close : Char) (rest : Text) :
    scanEnd close (ofChar close :: rest) = .ok (true, rest) := by
  rw [scanEnd, if_pos rfl]

theorem scanEnd_comma {close : Char} (other : ofChar ',' ≠ ofChar close) (rest : Text) :
    scanEnd close (ofChar ',' :: rest) = .ok (false, skip rest) := by
  rw [scanEnd, if_neg other, if_pos rfl]

section
variable {f : Raw → Text} {g : Raw → Raw}

theorem skip_items {item : Raw} (reads : ReadsAs py (f item) (g item)) (items : List Raw) (t : Text) :
    skip (join ((item :: items).map f) ++ t) = join ((item :: items).map f) ++ t := by
  rw [List.map_cons, join_cons, List.append_assoc]
  exact reads.skip_eq _

theorem scanItems_reads (items : List Raw) : ∀ item fuel before rest,
    (∀ v ∈ item :: items, ReadsAs py (f v) (g v)) →
    2 * (join ((item :: items).map f)).length + 1 < fuel →
    scanItems py fuel before (join ((item :: items).map f) ++ ofChar ']' :: rest) =
      .ok (.arr (before ++ (item :: items).map g), rest) := by
  induction items with
  | nil =>
    intro item fuel before rest reads enough
    obtain ⟨fuel, rfl⟩ : ∃ n, fuel = n + 1 := ⟨fuel - 1, by omega⟩
    have single : join ([item].map f) = f item := List.append_nil _
    rw [single] at enough ⊢
    have ends : Ends (ofChar ']' :: rest) := (by decide : isDelimiter (ofChar ']') = true)
    have value := (reads item List.mem_cons_self).2 fuel _ ends (by omega)
    simp only [scanItems, value, bind, Except.bind, skip_cons (by decide : isSpace (ofChar ']') = false),
      scanEnd_close, if_true]
    rfl
  | cons next items ih =>
    intro item fuel before rest reads enough
    obtain ⟨fuel, rfl⟩ : ∃ n, fuel = n + 1 := ⟨fuel - 1, by omega⟩
    have more : join ((item :: next :: items).map f) =
        f item ++ ofChar ',' :: join ((next :: items).map f) := join_more _ _ _
    have later : ∀ v ∈ next :: items, ReadsAs py (f v) (g v) := fun v mem =>
      reads v (List.mem_cons_of_mem item mem)
    rw [more, List.length_append, List.length_cons] at enough
    rw [more, List.append_assoc, List.cons_append]
    have ends : Ends (ofChar ',' :: (join ((next :: items).map f) ++ ofChar ']' :: rest)) :=
      (by decide : isDelimiter (ofChar ',') = true)
    have value := (reads item List.mem_cons_self).2 fuel _ ends (by omega)
    have behind := ih next fuel (before ++ [g item]) rest later (by omega)
    have comma : ofChar ',' ≠ ofChar ']' := by decide
    simp only [scanItems, value, bind, Except.bind, skip_cons (by decide : isSpace (ofChar ',') = false),
      scanEnd_comma comma, skip_items (later next List.mem_cons_self), behind, Bool.false_eq_true,
      if_false]
    rw [List.append_assoc, List.map_cons (l := next :: items), List.singleton_append]

end

def memberOf (m : Text × Raw) : Text := memberText (m.1, dumps m.2)

def orderedMember (m : Text × Raw) : Text × Raw := (m.1, ordered m.2)

theorem dumpsMembers_eq (members : List (Text × Raw)) :
    dumpsMembers members = members.map fun m => (m.1, dumps m.2) := by
  induction members with
  | nil => rfl
  | cons m rest ih => rw [dumpsMembers, ih, List.map_cons]

theorem orderedMembers_eq (members : List (Text × Raw)) :
    orderedMembers members = members.map orderedMember := by
  induction members with
  | nil => rfl
  | cons m rest ih => rw [orderedMembers, ih, List.map_cons, orderedMember]

theorem setMember_absent {name : Text} {members : List (Text × Raw)} (value : Raw)
    (absent : name ∉ members.map Prod.fst) :
    setMember name value members = members ++ [(name, value)] := by
  induction members with
  | nil => rfl
  | cons m rest ih =>
    rw [List.map_cons, List.mem_cons, not_or] at absent
    rw [setMember, if_neg (Ne.symm absent.1), ih absent.2, List.cons_append]

section
variable {name : Text → Text} {f : Raw → Text} {g : Raw → Raw}

def entry (name : Text → Text) (f : Raw → Text) (m : Text × Raw) : Text := name m.1 ++ ofChar ':' :: f m.2

def entryValue (g : Raw → Raw) (m : Text × Raw) : Text × Raw := (m.1, g m.2)

def ReadsEntry (py : Interpreter) (name : Text → Text) (f : Raw → Text) (g : Raw → Raw) (m : Text × Raw) : Prop :=
  ReadsText (name m.1) m.1 ∧ ReadsAs py (f m.2) (g m.2)

theorem skip_members {m : Text × Raw} (reads : ReadsEntry py name f g m) (members : List (Text × Raw)) (t : Text) :
    skip (join ((m :: members).map (entry name f)) ++ t) = join ((m :: members).map (entry name f)) ++ t := by
  rw [List.map_cons, join_cons, entry, List.append_assoc, List.append_assoc]
  obtain ⟨body, form, -⟩ := reads.1 (ofChar ':' :: f m.2 ++ (members.map (entry name f)).flatMap (ofChar ',' :: ·) ++ t)
  rw [← List.append_assoc (ofChar ':' :: f m.2), form]
  exact skip_cons (by decide) _

theorem scanName_entry {m : Text × Raw} (reads : ReadsEntry py name f g m) (t : Text) :
    scanName (entry name f m ++ t) = .ok (m.1, f m.2 ++ t) := by
  obtain ⟨body, form, scan⟩ := reads.1 (ofChar ':' :: (f m.2 ++ t))
  have written : entry name f m ++ t = ofChar '"' :: body := by
    rw [← form, entry, List.append_assoc, List.cons_append]
  rw [written]
  simp only [scanName, expect, if_true, scan, bind, Except.bind,
    skip_cons (by decide : isSpace (ofChar ':') = false), reads.2.skip_eq]
  rfl

theorem entry_length (m : Text × Raw) : (f m.2).length < (entry name f m).length := by
  rw [entry, List.length_append, List.length_cons]
  omega

theorem scanMembers_reads (members : List (Text × Raw)) : ∀ m fuel before rest,
    (∀ n ∈ m :: members, ReadsEntry py name f g n) →
    (before.map Prod.fst ++ (m :: members).map Prod.fst).Nodup →
    2 * (join ((m :: members).map (entry name f))).length + 1 < fuel →
    scanMembers py fuel before (join ((m :: members).map (entry name f)) ++ ofChar '\x7d' :: rest) =
      .ok (.obj (before ++ (m :: members).map (entryValue g)), rest) := by
  induction members with
  | nil =>
    intro m fuel before rest reads unique enough
    obtain ⟨fuel, rfl⟩ : ∃ n, fuel = n + 1 := ⟨fuel - 1, by omega⟩
    have single : join ([m].map (entry name f)) = entry name f m := List.append_nil _
    have absent : m.1 ∉ before.map Prod.fst := fun mem =>
      List.disjoint_of_nodup_append unique mem List.mem_cons_self
    rw [single] at enough ⊢
    have long : (f m.2).length < (entry name f m).length := entry_length m
    have ends : Ends (ofChar '\x7d' :: rest) := (by decide : isDelimiter (ofChar '\x7d') = true)
    have value := (reads m List.mem_cons_self).2.2 fuel _ ends (by omega)
    simp only [scanMembers, scanName_entry (reads m List.mem_cons_self), value, bind, Except.bind,
      skip_cons (by decide : isSpace (ofChar '\x7d') = false), scanEnd_close, if_true,
      setMember_absent _ absent]
    rfl
  | cons next members ih =>
    intro m fuel before rest reads unique enough
    obtain ⟨fuel, rfl⟩ : ∃ n, fuel = n + 1 := ⟨fuel - 1, by omega⟩
    have more : join ((m :: next :: members).map (entry name f)) =
        entry name f m ++ ofChar ',' :: join ((next :: members).map (entry name f)) := join_more _ _ _
    have absent : m.1 ∉ before.map Prod.fst := fun mem =>
      List.disjoint_of_nodup_append unique mem List.mem_cons_self
    have later : ∀ n ∈ next :: members, ReadsEntry py name f g n := fun n mem =>
      reads n (List.mem_cons_of_mem m mem)
    have unique' : ((before ++ [entryValue g m]).map Prod.fst ++
        (next :: members).map Prod.fst).Nodup := by
      rw [List.map_append, List.append_assoc]
      exact unique
    rw [more, List.length_append, List.length_cons] at enough
    rw [more, List.append_assoc, List.cons_append]
    have long : (f m.2).length < (entry name f m).length := entry_length m
    have ends : Ends (ofChar ',' :: (join ((next :: members).map (entry name f)) ++ ofChar '\x7d' :: rest)) :=
      (by decide : isDelimiter (ofChar ',') = true)
    have value := (reads m List.mem_cons_self).2.2 fuel _ ends (by omega)
    have behind := ih next fuel (before ++ [entryValue g m]) rest later unique' (by omega)
    have comma : ofChar ',' ≠ ofChar '\x7d' := by decide
    rw [entryValue] at behind
    simp only [scanMembers, scanName_entry (reads m List.mem_cons_self), value, bind, Except.bind,
      skip_cons (by decide : isSpace (ofChar ',') = false), scanEnd_comma comma,
      skip_members (later next List.mem_cons_self), setMember_absent _ absent, behind, Bool.false_eq_true, if_false]
    rw [List.append_assoc, List.map_cons (l := next :: members), List.singleton_append, entryValue]

theorem opens_other {p : CodePoint} {c : Char} (other : p ≠ ofChar c) (t : Text) :
    opens c (p :: t) = none := by
  rw [opens, if_neg other]

theorem opens_mark (c : Char) (t : Text) : opens c (ofChar c :: t) = some t := by
  rw [opens, if_pos rfl]

theorem readsAs_arr {items : List Raw} (reads : ∀ v ∈ items, ReadsAs py (f v) (g v)) :
    ReadsAs py (ofChar '[' :: (join (items.map f) ++ [ofChar ']'])) (.arr (items.map g)) := by
  refine ⟨⟨ofChar '[', _, rfl, by decide, by decide⟩, fun fuel rest _ enough => ?_⟩
  obtain ⟨fuel, rfl⟩ : ∃ n, fuel = n + 1 := ⟨fuel - 1, by omega⟩
  rw [List.length_cons, List.length_append] at enough
  rw [List.cons_append, List.append_assoc, List.singleton_append, scanOnce, opens_other (by decide),
    opens_other (by decide), opens_mark]
  cases items with
  | nil =>
    have closed : opens ']' (skip (join [] ++ ofChar ']' :: rest)) = some rest := by
      change opens ']' (skip (ofChar ']' :: rest)) = some rest
      rw [skip_cons (by decide), opens_mark]
    simp only [List.map_nil, closed]
  | cons item items =>
    obtain ⟨p, s, form, -, other⟩ := (reads item List.mem_cons_self).1
    have closed : opens ']' (join ((item :: items).map f) ++ ofChar ']' :: rest) = none := by
      rw [List.map_cons, join_cons, form, List.append_assoc, List.cons_append]
      exact opens_other other _
    simp only [skip_items (reads item List.mem_cons_self), closed]
    rw [scanItems_reads items item fuel [] rest reads (by simp only [List.length_singleton] at enough; omega)]
    rfl

theorem readsAs_obj {members : List (Text × Raw)} (unique : (members.map Prod.fst).Nodup)
    (reads : ∀ m ∈ members, ReadsEntry py name f g m) :
    ReadsAs py (ofChar '\x7b' :: (join (members.map (entry name f)) ++ [ofChar '\x7d']))
      (.obj (members.map (entryValue g))) := by
  refine ⟨⟨ofChar '\x7b', _, rfl, by decide, by decide⟩, fun fuel rest _ enough => ?_⟩
  obtain ⟨fuel, rfl⟩ : ∃ n, fuel = n + 1 := ⟨fuel - 1, by omega⟩
  rw [List.length_cons, List.length_append] at enough
  rw [List.cons_append, List.append_assoc, List.singleton_append, scanOnce, opens_other (by decide), opens_mark]
  cases members with
  | nil =>
    have closed : opens '\x7d' (skip (join [] ++ ofChar '\x7d' :: rest)) = some rest := by
      change opens '\x7d' (skip (ofChar '\x7d' :: rest)) = some rest
      rw [skip_cons (by decide), opens_mark]
    simp only [List.map_nil, closed]
  | cons m members =>
    have closed : opens '\x7d' (join ((m :: members).map (entry name f)) ++ ofChar '\x7d' :: rest) =
        none := by
      obtain ⟨body, form, -⟩ := (reads m List.mem_cons_self).1
        (ofChar ':' :: f m.2 ++ ((members.map (entry name f)).flatMap (ofChar ',' :: ·) ++ ofChar '\x7d' :: rest))
      rw [List.map_cons, join_cons, entry, List.append_assoc, List.append_assoc, form]
      exact opens_other (by decide) _
    simp only [skip_members (reads m List.mem_cons_self), closed]
    rw [scanMembers_reads members m fuel [] rest reads unique
      (by simp only [List.length_singleton] at enough; omega)]
    rfl

end

theorem reads_arr {items : List Raw} (reads : ∀ v ∈ items, Reads py v) : Reads py (.arr items) := by
  have known := readsAs_arr reads
  rw [← dumpsItems_eq, ← orderedItems_eq] at known
  exact known

theorem sortKeys_perm (members : List (Text × Raw)) : (sortKeys members).Perm members :=
  List.perm_insertionSort _ members

theorem insertionSort_values {β : Type} (f : Raw → β) (members : List (Text × Raw)) :
    ((members.map fun m => (m.1, f m.2)).insertionSort fun a b => a.1 ≤ b.1) =
      (sortKeys members).map fun m => (m.1, f m.2) :=
  (List.map_insertionSort (fun a b : Text × Raw => a.1 ≤ b.1) (fun a b : Text × β => a.1 ≤ b.1)
    (fun m => (m.1, f m.2)) members fun _ _ _ _ => Iff.rfl).symm

theorem dumps_obj (members : List (Text × Raw)) : dumps (.obj members) =
    ofChar '\x7b' :: (join ((sortKeys members).map memberOf) ++ [ofChar '\x7d']) := by
  rw [dumps, dumpsMembers_eq, sortMembers, insertionSort_values, List.map_map]
  rfl

theorem ordered_obj (members : List (Text × Raw)) :
    ordered (.obj members) = .obj ((sortKeys members).map orderedMember) := by
  rw [ordered, orderedMembers_eq]
  congr 1
  exact insertionSort_values ordered members

theorem reads_obj {members : List (Text × Raw)} (unique : (members.map Prod.fst).Nodup)
    (reads : ∀ m ∈ members, Reads py m.2) : Reads py (.obj members) := by
  have perm := sortKeys_perm members
  have unique' : ((sortKeys members).map Prod.fst).Nodup :=
    (perm.map Prod.fst).nodup_iff.mpr unique
  have entries : ∀ m ∈ sortKeys members, ReadsEntry py quote dumps ordered m := fun m mem =>
    ⟨readsText_quote m.1, reads m (perm.mem_iff.mp mem)⟩
  have known := readsAs_obj unique' entries
  rw [Reads, dumps_obj, ordered_obj]
  exact known

mutual
theorem reads_value : (v : Raw) → readable py v = true → Reads py v
  | .null, _ => reads_constant "null" (by simp [constants]) rfl rfl
  | .bool true, _ => reads_constant "true" (by simp [constants]) rfl rfl
  | .bool false, _ => reads_constant "false" (by simp [constants]) rfl rfl
  | .int _, known => reads_int (of_decide_eq_true known)
  | .float _ _, known => reads_float known
  | .str t, _ => reads_str t
  | .arr items, known => reads_arr (reads_items items known)
  | .obj members, known => by
    rw [readable, Bool.and_eq_true, decide_eq_true_eq] at known
    exact reads_obj known.1 (reads_members members known.2)
theorem reads_items : (items : List Raw) → readableItems py items = true →
    ∀ v ∈ items, Reads py v
  | [], _ => fun _ mem => absurd mem List.not_mem_nil
  | item :: rest, known => by
    rw [readableItems, Bool.and_eq_true] at known
    exact List.forall_mem_cons.mpr ⟨reads_value item known.1, reads_items rest known.2⟩
theorem reads_members : (members : List (Text × Raw)) → readableMembers py members = true →
    ∀ m ∈ members, Reads py m.2
  | [], _ => fun _ mem => absurd mem List.not_mem_nil
  | (_, value) :: rest, known => by
    rw [readableMembers, Bool.and_eq_true] at known
    exact List.forall_mem_cons.mpr ⟨reads_value value known.1, reads_members rest known.2⟩
end

theorem decode_dumps {v : Raw} (known : readable py v = true) :
    decode py (dumps v) = .ok (ordered v) := by
  have reads := reads_value v known
  have plain := ReadsAs.skip_eq reads []
  have scanned := reads.2 (2 * (dumps v).length + 2) [] trivial (by omega)
  rw [List.append_nil] at plain scanned
  rw [decode, plain, scanned]
  rfl

theorem fromUTF8?_toUTF8 (s : String) : String.fromUTF8? s.toUTF8 = some s := by
  have valid : s.toUTF8.IsValidUTF8 := s.isValidUTF8
  rw [String.fromUTF8?, dif_pos valid]
  rfl

theorem toUTF8_bytes (chars : List Char) :
    (String.ofList chars).toUTF8.data.toList = chars.flatMap String.utf8EncodeChar := by
  change (chars.flatMap String.utf8EncodeChar).toByteArray.data.toList = _
  exact List.toList_data_toByteArray

theorem dumps_obj_head (members : List (Text × Raw)) :
    ∃ c ∈ ['"', '\x7d'], ∃ rest, dumps (.obj members) = ofChar '\x7b' :: ofChar c :: rest := by
  rw [dumps_obj]
  cases sortKeys members with
  | nil => exact ⟨'\x7d', by decide, [], rfl⟩
  | cons m rest =>
    rw [List.map_cons, join_cons]
    exact ⟨'"', by decide, _, rfl⟩

section
variable {t : Text} {bytes : ByteArray} (head : ∃ c ∈ ['"', '\x7d'], ∃ rest, t = ofChar '\x7b' :: ofChar c :: rest)
  (written : encodeUtf8 t = some bytes)

include head written

theorem bytes_head : ∃ byte rest, bytes.data.toList = 0x7b :: byte :: rest ∧ byte ≠ 0 := by
  rw [encodeUtf8] at written
  split at written
  next =>
    obtain ⟨c, mem, rest, form⟩ := head
    have ascii : ∀ c ∈ ['"', '\x7d'], ∃ byte, String.utf8EncodeChar c = [byte] ∧ byte ≠ 0 := by
      intro c mem
      simp only [List.mem_cons, List.not_mem_nil, or_false] at mem
      rcases mem with rfl | rfl
      all_goals exact ⟨_, rfl, by decide⟩
    obtain ⟨byte, encoded, proper⟩ := ascii c mem
    have brace : String.utf8EncodeChar '\x7b' = [0x7b] := rfl
    refine ⟨byte, (rest.map toChar).flatMap String.utf8EncodeChar, ?_, proper⟩
    rw [← Option.some.inj written, toUTF8_bytes, form, List.map_cons, List.map_cons,
      toChar_ofChar, toChar_ofChar, List.flatMap_cons, List.flatMap_cons, brace, encoded]
    rfl
  next => cases written

theorem detectsUtf8_obj : detectsUtf8 bytes = true := by
  obtain ⟨byte, rest, list, proper⟩ := bytes_head head written
  rw [detectsUtf8, list]
  have both : (decide ((0x7b : UInt8) ≠ 0) && decide (byte ≠ 0)) = true := by
    rw [Bool.and_eq_true, decide_eq_true_eq, decide_eq_true_eq]
    exact ⟨by decide, proper⟩
  rcases rest with _ | ⟨x, _ | ⟨y, rest⟩⟩
  · exact both
  · rfl
  · exact both

theorem decodeBytes_obj : decodeBytes py bytes = .ok t := by
  have detected := detectsUtf8_obj head written
  rw [encodeUtf8] at written
  split at written
  next proper =>
    have same : text (String.ofList (t.map toChar)) = t := by
      rw [text, String.toList_ofList, map_ofChar_toChar proper]
    rw [decodeBytes, if_pos detected, ← Option.some.inj written, fromUTF8?_toUTF8]
    simp only [same]
  next => cases written

end

theorem canonical_bytes_head {members : List (Text × Raw)} {bytes : ByteArray}
    (written : canonicalJsonBytes (.obj members) = some bytes) :
    ∃ byte rest, bytes.data.toList = 0x7b :: byte :: rest ∧ byte ≠ 0 :=
  bytes_head (dumps_obj_head members) written

theorem ne_of_head {members : List (Text × Raw)} {bytes other : ByteArray}
    (written : canonicalJsonBytes (.obj members) = some bytes)
    (head : other.data.toList.head? ≠ some 0x7b) : other ≠ bytes := by
  rintro rfl
  obtain ⟨byte, rest, list, _⟩ := canonical_bytes_head written
  rw [list] at head
  exact head rfl

theorem canonicalJsonBytes_getD {v : Raw} (proper : isScalar v = true) :
    canonicalJsonBytes v = some ((canonicalJsonBytes v).getD .empty) := by
  cases written : canonicalJsonBytes v with
  | none =>
    rw [(canonicalJsonBytes_eq_none_iff v).mp written] at proper
    cases proper
  | some bytes => rfl

theorem loads_canonical {members : List (Text × Raw)} {bytes : ByteArray}
    (known : readable py (.obj members) = true)
    (written : canonicalJsonBytes (.obj members) = some bytes) :
    loads py bytes = .ok (ordered (.obj members)) := by
  rw [loads, decodeBytes_obj (dumps_obj_head members) written]
  exact decode_dumps known

end

end Mirage.JsonLoads
