import Mirage.AsciiJson

/-! The stream of `dashboard_stream` on the wire, and the loop of `useRealtime` that reads
it. -/

namespace Mirage.SseFraming
open PythonText Raw JsonLoads AsciiJson CanonicalInjective

mutual
def dumpsPlain : Raw → Text
  | .str t => asciiQuote t
  | .arr items => ofChar '[' :: (join (plainItems items) ++ [ofChar ']'])
  | .obj members => ofChar '\x7b' :: (join (plainMembers members) ++ [ofChar '\x7d'])
  | value => dumps value
def plainItems : List Raw → List Text
  | [] => []
  | item :: rest => dumpsPlain item :: plainItems rest
def plainMembers : List (Text × Raw) → List Text
  | [] => []
  | (name, value) :: rest => (asciiQuote name ++ ofChar ':' :: dumpsPlain value) :: plainMembers rest
end

inductive UpdateType where
  | timelineAppended
  | caseUpdated
  | notificationCreated
  | fullRefreshRequired

def UpdateType.name : UpdateType → String
  | .timelineAppended => "TIMELINE_APPENDED"
  | .caseUpdated => "CASE_UPDATED"
  | .notificationCreated => "NOTIFICATION_CREATED"
  | .fullRefreshRequired => "FULL_REFRESH_REQUIRED"

structure Update where
  sequenceId : ℕ
  updateId : Text
  updateType : UpdateType
  caseId : Option Text
  projectionVersion : ℤ
  eventTime : Text
  payload : Raw
  correlationId : Text

def Update.data (u : Update) : Raw :=
  .obj [(text "update_id", .str u.updateId), (text "update_type", .str (text u.updateType.name)),
    (text "case_id", u.caseId.elim .null .str), (text "projection_version", .int u.projectionVersion),
    (text "event_time", .str u.eventTime), (text "payload", u.payload),
    (text "correlation_id", .str u.correlationId)]

inductive Item where
  | update (u : Update)
  | heartbeat

def sseBody (sequenceId : ℕ) (eventType : Text) (payload : Raw) : Text :=
  text "id: " ++ text sequenceId.repr ++ ofChar '\n' :: (text "event: " ++ eventType ++ ofChar '\n' ::
    (text "data: " ++ dumpsPlain payload))

def Item.body : Item → Text
  | .update u => sseBody u.sequenceId (text u.updateType.name) u.data
  | .heartbeat => text ": heartbeat"

def streamText (items : List Item) : Text := items.flatMap fun item => item.body ++ [ofChar '\n', ofChar '\n']

inductive Number where
  | int (n : ℤ)
  | fraction (repr : String)
  | infinite (negative : Bool)
  deriving DecidableEq

inductive Js where
  | null
  | bool (value : Bool)
  | number (value : Number)
  | str (value : Text)
  | arr (items : List Js)
  | obj (members : List (Text × Js))

def nearest (n : ℤ) : Number :=
  if n.natAbs < 2 ^ 53 then .int n
  else
    let unit := 2 ^ (n.natAbs.log2 - 52)
    let down := n.natAbs / unit
    let rest := n.natAbs % unit
    let significand := if unit < 2 * rest ∨ 2 * rest = unit ∧ down % 2 = 1 then down + 1 else down
    if 2 ^ 1024 ≤ significand * unit then .infinite (n < 0)
    else .int (n.sign * (significand * unit : ℕ))

section
variable (ofInt : ℤ → Number)

mutual
def convert : Raw → Js
  | .null => .null
  | .bool b => .bool b
  | .int n => .number (ofInt n)
  | .float repr integral => .number (integral.elim (.fraction repr) .int)
  | .str t => .str t
  | .arr items => .arr (convertItems items)
  | .obj members => .obj (convertMembers members)
def convertItems : List Raw → List Js
  | [] => []
  | item :: rest => convert item :: convertItems rest
def convertMembers : List (Text × Raw) → List (Text × Js)
  | [] => []
  | (name, value) :: rest => (name, convert value) :: convertMembers rest
end

end

mutual
def finite : Raw → Bool
  | .float repr integral => integral.isSome || repr ∉ ["NaN", "Infinity", "-Infinity"]
  | .arr items => finiteItems items
  | .obj members => finiteMembers members
  | _ => true
def finiteItems : List Raw → Bool
  | [] => true
  | item :: rest => finite item && finiteItems rest
def finiteMembers : List (Text × Raw) → Bool
  | [] => true
  | (_, value) :: rest => finite value && finiteMembers rest
end

section
variable (py : Interpreter)

/-- `JSON.parse`; nothing where it throws. Its grammar is that of `json.loads` without the three constants. -/
def jsonParse (t : Text) : Option Js :=
  match decode py t with
  | .ok value => if finite value then some (convert nearest value) else none
  | .error _ => none

def isTrimmed (p : CodePoint) : Bool :=
  between '\t' '\r' p || p.val ∈ [0x20, 0xA0, 0x1680, 0x2028, 0x2029, 0x202F, 0x205F, 0x3000, 0xFEFF] ||
    0x2000 ≤ p.val && p.val ≤ 0x200A

def trimStart (t : Text) : Text := t.dropWhile isTrimmed

def trim (t : Text) : Text := ((trimStart t).reverse.dropWhile isTrimmed).reverse

def parseInt (t : Text) : Option Number :=
  let t := trimStart t
  let negative := t.head? = some (ofChar '-')
  let digits := (if negative ∨ t.head? = some (ofChar '+') then t.tail else t).takeWhile isDigit
  if digits = [] then none
  else some (nearest (if negative then -(digitsValue digits : ℤ) else digitsValue digits))

def consFirst (p : CodePoint) : List Text → List Text
  | [] => [[p]]
  | first :: rest => (p :: first) :: rest

def splitLines : Text → List Text
  | [] => [[]]
  | p :: t => if p = ofChar '\n' then [] :: splitLines t else consFirst p (splitLines t)

def splitBlocks : Text → List Text
  | [] => [[]]
  | [p] => [[p]]
  | p :: q :: t =>
    if p = ofChar '\n' ∧ q = ofChar '\n' then [] :: splitBlocks t else consFirst p (splitBlocks (q :: t))

def idOf (lines : List Text) : Option Number :=
  lines.foldl (fun id line => if text "id:" <+: line then parseInt (trim (line.drop 3)) else id) none

def dataOf (lines : List Text) : List Text :=
  lines.filterMap fun line => if text "data:" <+: line then some (trimStart (line.drop 5)) else none

def isFinite : Number → Bool
  | .infinite _ => false
  | _ => true

def parseSseBlock (block : Text) : Except Unit (Option (Number × Js)) :=
  if trim block = [] ∨ (trimStart block).head? = some (ofChar ':') then .ok none
  else
    let lines := splitLines block
    match idOf lines with
    | none => .ok none
    | some id =>
      if !isFinite id || dataOf lines = [] then .ok none
      else
        match jsonParse py ([ofChar '\n'].intercalate (dataOf lines)) with
        | none => .error ()
        | some value => .ok (some (id, value))

def handle : List Text → List (Number × Js) × Bool
  | [] => ([], false)
  | block :: blocks =>
    match parseSseBlock py block with
    | .error _ => ([], true)
    | .ok none => handle blocks
    | .ok (some update) => (update :: (handle blocks).1, (handle blocks).2)

def readLoop (buffer : Text) : List Text → List (Number × Js) × Bool
  | [] => ([], false)
  | chunk :: chunks =>
    let blocks := splitBlocks (buffer ++ chunk)
    let (updates, thrown) := handle py blocks.dropLast
    if thrown then (updates, true)
    else
      let (more, thrown) := readLoop (blocks.getLastD []) chunks
      (updates ++ more, thrown)

end

/-- A streaming decoder of bytes, as `TextDecoderStream` is one. -/
structure TextDecoder where
  State : Type
  start : State
  decode : State → List UInt8 → Text × State

def decodeChunks (d : TextDecoder) (s : d.State) : List (List UInt8) → List Text
  | [] => []
  | chunk :: chunks => (d.decode s chunk).1 :: decodeChunks d (d.decode s chunk).2 chunks

def asciiText (bytes : List UInt8) : Text := bytes.map fun b => point b.toNat

def TextDecoder.DecodesAscii (d : TextDecoder) : Prop :=
  ∀ chunks : List (List UInt8), (∀ chunk ∈ chunks, ∀ b ∈ chunk, b < 0x80) →
    decodeChunks d d.start chunks = chunks.map asciiText

def received (py : Interpreter) (d : TextDecoder) (chunks : List (List UInt8)) : List (Number × Js) × Bool :=
  readLoop py [] (decodeChunks d d.start chunks)

def Item.update? (ofInt : ℤ → Number) : Item → Option (Number × Js)
  | .update u => some (ofInt u.sequenceId, convert ofInt u.data)
  | .heartbeat => none

/-- The number of the sequence fits its column, and the data is what JSON can say: distinct keys, floats by
their `repr`, no surrogates, no NaN. -/
structure Update.Stored (py : Interpreter) (u : Update) : Prop where
  short : u.sequenceId < 2 ^ 63
  formed : wellFormed u.data = true
  known : readable py u.data = true
  proper : isScalar u.data = true
  numbers : finite u.data = true

mutual
def exact : Raw → Bool
  | .int n => n.natAbs ≤ 2 ^ 53
  | .arr items => exactItems items
  | .obj members => exactMembers members
  | _ => true
def exactItems : List Raw → Bool
  | [] => true
  | item :: rest => exact item && exactItems rest
def exactMembers : List (Text × Raw) → Bool
  | [] => true
  | (_, value) :: rest => exact value && exactMembers rest
end

/-! A value is read back from its text. -/

theorem plainItems_eq (items : List Raw) : plainItems items = items.map dumpsPlain := by
  induction items with
  | nil => rfl
  | cons item rest ih => rw [plainItems, ih, List.map_cons]

theorem plainMembers_eq (members : List (Text × Raw)) :
    plainMembers members = members.map (entry asciiQuote dumpsPlain) := by
  induction members with
  | nil => rfl
  | cons m rest ih =>
    rw [plainMembers, ih, List.map_cons]
    rfl

theorem entryValue_same : entryValue (fun v => v) = id := rfl

section
variable {py : Interpreter}

mutual
theorem readsAs_plain : (v : Raw) → readable py v = true → isScalar v = true → ReadsAs py (dumpsPlain v) v
  | .null, known, _ => reads_value .null known
  | .bool b, known, _ => reads_value (.bool b) known
  | .int n, known, _ => reads_value (.int n) known
  | .float repr integral, known, _ => reads_value (.float repr integral) known
  | .str _, _, proper => readsAs_str (readsText_ascii proper)
  | .arr items, known, proper => by
    have each := readsAs_arr (g := fun v => v) (readsAs_plainItems items known proper)
    rw [← plainItems_eq, List.map_id'] at each
    exact each
  | .obj members, known, proper => by
    rw [readable, Bool.and_eq_true, decide_eq_true_eq] at known
    have each := readsAs_obj known.1 (readsAs_plainMembers members known.2 proper)
    rw [← plainMembers_eq, entryValue_same, List.map_id] at each
    exact each
theorem readsAs_plainItems : (items : List Raw) → readableItems py items = true → scalarItems items = true →
    ∀ v ∈ items, ReadsAs py (dumpsPlain v) v
  | [], _, _ => fun _ mem => absurd mem List.not_mem_nil
  | item :: rest, known, proper => by
    rw [readableItems, Bool.and_eq_true] at known
    rw [scalarItems, Bool.and_eq_true] at proper
    exact List.forall_mem_cons.mpr ⟨readsAs_plain item known.1 proper.1, readsAs_plainItems rest known.2 proper.2⟩
theorem readsAs_plainMembers : (members : List (Text × Raw)) → readableMembers py members = true →
    scalarMembers members = true → ∀ m ∈ members, ReadsEntry py asciiQuote dumpsPlain (fun v => v) m
  | [], _, _ => fun _ mem => absurd mem List.not_mem_nil
  | (_, value) :: rest, known, proper => by
    rw [readableMembers, Bool.and_eq_true] at known
    rw [scalarMembers, Bool.and_eq_true, Bool.and_eq_true] at proper
    exact List.forall_mem_cons.mpr ⟨⟨readsText_ascii proper.1.1, readsAs_plain value known.1 proper.1.2⟩,
      readsAs_plainMembers rest known.2 proper.2⟩
end

theorem decode_plain {v : Raw} (known : readable py v = true) (proper : isScalar v = true) :
    decode py (dumpsPlain v) = .ok v := by
  have reads := readsAs_plain v known proper
  have plain := reads.skip_eq []
  have scanned := reads.2 (2 * (dumpsPlain v).length + 2) [] trivial (by omega)
  rw [List.append_nil] at plain scanned
  rw [decode, plain, scanned]
  rfl

theorem jsonParse_plain {v : Raw} (known : readable py v = true) (proper : isScalar v = true)
    (numbers : finite v = true) : jsonParse py (dumpsPlain v) = some (convert nearest v) := by
  rw [jsonParse, decode_plain known proper]
  simp only [numbers, if_true]

end

/-! The text of a value is one line of ASCII. -/

def Line (t : Text) : Prop := ∀ p ∈ t, low p = true ∧ p ≠ ofChar '\n'

theorem Line.append {s t : Text} (first : Line s) (later : Line t) : Line (s ++ t) := fun p mem =>
  (List.mem_append.mp mem).elim (first p) (later p)

theorem Line.cons {p : CodePoint} {t : Text} (mark : low p = true ∧ p ≠ ofChar '\n') (rest : Line t) :
    Line (p :: t) := List.forall_mem_cons.mpr ⟨mark, rest⟩

theorem Line.nil : Line [] := fun _ mem => absurd mem List.not_mem_nil

theorem line_text {s : String} (known : ∀ c ∈ s.toList, c.toNat < 0x7F ∧ c ≠ '\n') : Line (text s) := by
  intro p mem
  obtain ⟨c, listed, rfl⟩ := List.mem_map.mp mem
  obtain ⟨ascii, other⟩ := known c listed
  exact ⟨decide_eq_true ascii, fun same => other (ofChar_injective same)⟩

theorem line_escape {p : CodePoint} (known : low p = true) : Line (escapePoint p) := by
  have below := of_decide_eq_true known
  have all : ∀ n < 0x7F, (Json.escapeChar (Char.ofNat n)).all fun c => c ≠ '\n' := by decide +kernel
  intro q mem
  refine ⟨low_of_escape known q mem, ?_⟩
  rw [escapePoint, if_pos (by omega)] at mem
  obtain ⟨c, listed, rfl⟩ := List.mem_map.mp mem
  exact fun same => of_decide_eq_true (List.all_eq_true.mp (all p.val below) c listed) (ofChar_injective same)

theorem line_hex (n : ℕ) : low (hex n) = true ∧ hex n ≠ ofChar '\n' := by
  refine ⟨low_hex n, ?_⟩
  by_cases digit : n < 16
  · have all : ∀ n < 16, hex n ≠ ofChar '\n' := by decide
    exact all n digit
  · have beyond : Json.hexDigit n = '0' := by
      rw [Json.hexDigit, List.getD_eq_getElem?_getD, List.getElem?_eq_none (Nat.le_of_not_lt digit)]
      rfl
    rw [hex, beyond]
    decide

theorem line_unicode (u : CodePoint) : Line (unicode u) :=
  .cons (by decide) (.cons (by decide) (.cons (line_hex _) (.cons (line_hex _)
    (.cons (line_hex _) (.cons (line_hex _) .nil)))))

theorem line_asciiQuote (t : Text) : Line (asciiQuote t) := by
  refine .cons (by decide) (.append ?_ (.cons (by decide) .nil))
  intro q mem
  obtain ⟨p, -, here⟩ := List.mem_flatMap.mp mem
  rw [asciiPoint] at here
  split at here
  · exact line_escape ‹_› q here
  · obtain ⟨u, -, here⟩ := List.mem_flatMap.mp here
    exact line_unicode u q here

theorem line_join {parts : List Text} (each : ∀ part ∈ parts, Line part) : Line (join parts) := by
  induction parts with
  | nil => exact .nil
  | cons part rest ih =>
    have later := ih fun t mem => each t (List.mem_cons_of_mem part mem)
    cases rest with
    | nil => exact fun p mem => each part List.mem_cons_self p (by rwa [← List.append_nil part])
    | cons next rest =>
      rw [join_more]
      exact .append (each part List.mem_cons_self) (.cons (by decide) later)

theorem line_int (n : ℤ) : Line (text (toString n)) := by
  refine line_text fun c mem => ?_
  have numeral := List.all_eq_true.mp (numeral_toString n) c mem
  rw [Bool.or_eq_true, decide_eq_true_eq] at numeral
  rcases numeral with digit | rfl
  · rw [Char.isDigit, Bool.and_eq_true, decide_eq_true_eq, decide_eq_true_eq] at digit
    have bounds : 48 ≤ c.toNat ∧ c.toNat ≤ 57 := digit
    refine ⟨by omega, ?_⟩
    rintro rfl
    exact absurd bounds (by decide)
  · decide

theorem line_float {s : String} (form : floatText s = true) : Line (text s) := by
  rw [floatText, Bool.or_eq_true, Bool.and_eq_true, decide_eq_true_eq] at form
  rcases form with named | ⟨chars, -⟩
  · simp only [List.mem_cons, List.not_mem_nil, or_false] at named
    rcases named with rfl | rfl | rfl
    all_goals exact line_text (forall_mem_of_all (by decide))
  · have plain : ∀ c ∈ "0123456789.e+-".toList, c.toNat < 0x7F ∧ c ≠ '\n' := forall_mem_of_all (by decide)
    exact line_text fun c mem => plain c (of_decide_eq_true (List.all_eq_true.mp chars c mem))

mutual
theorem line_dumpsPlain : (v : Raw) → wellFormed v = true → Line (dumpsPlain v)
  | .null, _ => line_text (s := "null") (forall_mem_of_all (by decide))
  | .bool true, _ => line_text (s := "true") (forall_mem_of_all (by decide))
  | .bool false, _ => line_text (s := "false") (forall_mem_of_all (by decide))
  | .int n, _ => line_int n
  | .float _ _, known => line_float known
  | .str t, _ => line_asciiQuote t
  | .arr items, known => by
    rw [dumpsPlain, plainItems_eq]
    refine .cons (by decide) (.append (line_join fun part mem => ?_) (.cons (by decide) .nil))
    obtain ⟨v, listed, rfl⟩ := List.mem_map.mp mem
    exact line_plainItems items known v listed
  | .obj members, known => by
    rw [wellFormed, Bool.and_eq_true] at known
    rw [dumpsPlain, plainMembers_eq]
    refine .cons (by decide) (.append (line_join fun part mem => ?_) (.cons (by decide) .nil))
    obtain ⟨m, listed, rfl⟩ := List.mem_map.mp mem
    exact .append (line_asciiQuote m.1) (.cons (by decide) (line_plainMembers members known.2 m listed))
theorem line_plainItems : (items : List Raw) → wellFormedItems items = true → ∀ v ∈ items, Line (dumpsPlain v)
  | [], _ => fun _ mem => absurd mem List.not_mem_nil
  | item :: rest, known => by
    rw [wellFormedItems, Bool.and_eq_true] at known
    exact List.forall_mem_cons.mpr ⟨line_dumpsPlain item known.1, line_plainItems rest known.2⟩
theorem line_plainMembers : (members : List (Text × Raw)) → wellFormedMembers members = true →
    ∀ m ∈ members, Line (dumpsPlain m.2)
  | [], _ => fun _ mem => absurd mem List.not_mem_nil
  | (_, value) :: rest, known => by
    rw [wellFormedMembers, Bool.and_eq_true] at known
    exact List.forall_mem_cons.mpr ⟨line_dumpsPlain value known.1, line_plainMembers rest known.2⟩
end

/-! However the text is cut, the blocks are the same. -/

def newline : CodePoint := ofChar '\n'

theorem consFirst_cons (p : CodePoint) (first : Text) (rest : List Text) :
    consFirst p (first :: rest) = (p :: first) :: rest := rfl

theorem splitBlocks_break (t : Text) : splitBlocks (newline :: newline :: t) = [] :: splitBlocks t := by
  rw [splitBlocks, if_pos ⟨rfl, rfl⟩]

theorem splitBlocks_other {p q : CodePoint} (other : ¬ (p = newline ∧ q = newline)) (t : Text) :
    splitBlocks (p :: q :: t) = consFirst p (splitBlocks (q :: t)) := by
  rw [splitBlocks]
  exact if_neg other

theorem consFirst_ne_nil (p : CodePoint) (blocks : List Text) : consFirst p blocks ≠ [] := by
  cases blocks <;> exact List.cons_ne_nil _ _

theorem splitBlocks_ne_nil (t : Text) : splitBlocks t ≠ [] := by
  match t with
  | [] | [_] => exact List.cons_ne_nil _ _
  | p :: q :: t =>
    rw [splitBlocks]
    split
    · exact List.cons_ne_nil _ _
    · exact consFirst_ne_nil p _

theorem block_alone (t : Text) : ∀ w, splitBlocks t = [w] → w = t := by
  induction t using splitBlocks.induct with
  | case1 | case2 =>
    intro w single
    exact (List.singleton_injective single).symm
  | case3 p q t split ih =>
    intro w single
    rw [split.1, split.2] at single
    have more := (List.cons.inj ((splitBlocks_break t).symm.trans single)).2
    exact absurd more (splitBlocks_ne_nil t)
  | case4 p q t other ih =>
    intro w single
    rw [splitBlocks_other other] at single
    obtain ⟨first, rest, form⟩ := List.exists_cons_of_ne_nil (splitBlocks_ne_nil (q :: t))
    rw [form, consFirst_cons] at single
    obtain ⟨rfl, rfl⟩ := List.cons.inj single
    rw [ih first form]

theorem getLastD_cons {first : Text} {rest : List Text} (more : rest ≠ []) :
    (first :: rest).getLastD [] = rest.getLastD [] := by
  obtain ⟨next, rest, rfl⟩ := List.exists_cons_of_ne_nil more
  rfl

theorem splitBlocks_append (t s : Text) :
    splitBlocks (s ++ t) = (splitBlocks s).dropLast ++ splitBlocks ((splitBlocks s).getLastD [] ++ t) := by
  induction s using splitBlocks.induct with
  | case1 => rfl
  | case2 p => rfl
  | case3 p q s split ih =>
    obtain ⟨rfl, rfl⟩ := split
    have step := splitBlocks_break (s ++ t)
    rw [List.cons_append, List.cons_append]
    refine step.trans ?_
    change _ = (splitBlocks (newline :: newline :: s)).dropLast ++
      splitBlocks ((splitBlocks (newline :: newline :: s)).getLastD [] ++ t)
    rw [splitBlocks_break, List.dropLast_cons_of_ne_nil (splitBlocks_ne_nil s), getLastD_cons (splitBlocks_ne_nil s),
      List.cons_append, ← ih]
  | case4 p q s other ih =>
    have step := splitBlocks_other other (s ++ t)
    rw [splitBlocks_other other]
    obtain ⟨first, rest, form⟩ := List.exists_cons_of_ne_nil (splitBlocks_ne_nil (q :: s))
    rw [form] at ih ⊢
    rw [consFirst_cons]
    cases rest with
    | nil =>
      -- the first block is still open, and the text goes on in it
      rw [block_alone (q :: s) first form]
      rfl
    | cons next rest =>
      rw [List.cons_append, List.cons_append]
      refine step.trans ?_
      rw [← List.cons_append, ih]
      rfl

theorem splitBlocks_last (s : Text) :
    splitBlocks ((splitBlocks s).getLastD []) = [(splitBlocks s).getLastD []] := by
  have again := splitBlocks_append [] s
  rw [List.append_nil, List.append_nil] at again
  have whole := List.dropLast_append_getLast (splitBlocks_ne_nil s)
  rw [List.getLastD_eq_getLast?, List.getLast?_eq_getLast_of_ne_nil (splitBlocks_ne_nil s), Option.getD_some] at again ⊢
  exact (List.append_cancel_left (whole.trans again)).symm

section
variable {py : Interpreter}

theorem handle_append (first later : List Text) : handle py (first ++ later) =
    if (handle py first).2 then ((handle py first).1, true)
    else ((handle py first).1 ++ (handle py later).1, (handle py later).2) := by
  induction first with
  | nil => rfl
  | cons block first ih =>
    rw [List.cons_append, handle, handle]
    split
    · rfl
    · exact ih
    · rw [ih]
      split
      · rfl
      · rfl

theorem readLoop_eq (chunks : List Text) : ∀ buffer, splitBlocks buffer = [buffer] →
    readLoop py buffer chunks = handle py (splitBlocks (buffer ++ chunks.flatten)).dropLast := by
  induction chunks with
  | nil =>
    intro buffer unbroken
    rw [List.flatten_nil, List.append_nil, unbroken]
    rfl
  | cons chunk chunks ih =>
    intro buffer _
    rw [readLoop, ih _ (splitBlocks_last (buffer ++ chunk)), List.flatten_cons, ← List.append_assoc,
      splitBlocks_append chunks.flatten (buffer ++ chunk), List.dropLast_append_of_ne_nil (splitBlocks_ne_nil _),
      handle_append]

end

/-! The text of an item is one block. -/

def EndsAtBreak (s : Text) : Prop := ∀ t, splitBlocks (s ++ newline :: newline :: t) = s :: splitBlocks t

theorem endsAtBreak_nil : EndsAtBreak [] := splitBlocks_break

theorem EndsAtBreak.cons {p : CodePoint} {s : Text} (other : p ≠ newline) (rest : EndsAtBreak s) :
    EndsAtBreak (p :: s) := by
  intro t
  obtain ⟨q, r, form⟩ : ∃ q r, s ++ newline :: newline :: t = q :: r :=
    List.exists_cons_of_ne_nil (List.append_ne_nil_of_right_ne_nil s (List.cons_ne_nil _ _))
  have known := rest t
  rw [form] at known
  rw [List.cons_append, form, splitBlocks_other fun both => other both.1, known, consFirst_cons]

theorem EndsAtBreak.newline {p : CodePoint} {s : Text} (other : p ≠ newline) (rest : EndsAtBreak (p :: s)) :
    EndsAtBreak (SseFraming.newline :: p :: s) := by
  intro t
  have known := rest t
  rw [List.cons_append] at known
  rw [List.cons_append, List.cons_append, splitBlocks_other fun both => other both.2, known, consFirst_cons]

theorem EndsAtBreak.line {l s : Text} (plain : Line l) (rest : EndsAtBreak s) : EndsAtBreak (l ++ s) := by
  induction l with
  | nil => exact rest
  | cons p l ih =>
    exact .cons (plain p List.mem_cons_self).2 (ih fun q mem => plain q (List.mem_cons_of_mem p mem))

theorem splitLines_line {l : Text} (plain : Line l) (t : Text) :
    splitLines (l ++ newline :: t) = l :: splitLines t := by
  induction l with
  | nil =>
    rw [List.nil_append, splitLines]
    exact if_pos rfl
  | cons p l ih =>
    rw [List.cons_append, splitLines, if_neg (plain p List.mem_cons_self).2,
      ih fun q mem => plain q (List.mem_cons_of_mem p mem), consFirst_cons]

theorem splitLines_last {l : Text} (plain : Line l) : splitLines l = [l] := by
  induction l with
  | nil => rfl
  | cons p l ih =>
    rw [splitLines, if_neg (plain p List.mem_cons_self).2, ih fun q mem => plain q (List.mem_cons_of_mem p mem),
      consFirst_cons]

theorem line_digits (n : ℕ) : Line (text n.repr) := by
  intro p mem
  have digit := digits_text n p mem
  rw [isDigit, between, Bool.and_eq_true, decide_eq_true_eq, decide_eq_true_eq] at digit
  have bounds : 48 ≤ p.val ∧ p.val ≤ 57 := digit
  refine ⟨decide_eq_true (by omega), ?_⟩
  rintro rfl
  exact absurd bounds (by decide)

def idLine (u : Update) : Text := text "id: " ++ text u.sequenceId.repr

def eventLine (u : Update) : Text := text "event: " ++ text u.updateType.name

def dataLine (u : Update) : Text := text "data: " ++ dumpsPlain u.data

theorem body_update (u : Update) :
    (Item.update u).body = idLine u ++ newline :: (eventLine u ++ newline :: dataLine u) := by
  simp only [Item.body, sseBody, idLine, eventLine, dataLine, newline, List.append_assoc]

theorem line_id (u : Update) : Line (idLine u) :=
  .append (line_text (s := "id: ") (forall_mem_of_all (by decide))) (line_digits u.sequenceId)

theorem line_event (u : Update) : Line (eventLine u) := by
  refine .append (line_text (s := "event: ") (forall_mem_of_all (by decide))) ?_
  cases u.updateType <;> exact line_text (forall_mem_of_all (by decide))

theorem line_data {u : Update} (formed : wellFormed u.data = true) : Line (dataLine u) :=
  .append (line_text (s := "data: ") (forall_mem_of_all (by decide))) (line_dumpsPlain u.data formed)

theorem endsAtBreak_line {l : Text} (plain : Line l) : EndsAtBreak l := by
  have known := EndsAtBreak.line plain endsAtBreak_nil
  rwa [List.append_nil] at known

theorem endsAtBreak_update {u : Update} (formed : wellFormed u.data = true) :
    EndsAtBreak (Item.update u).body := by
  have data : EndsAtBreak (newline :: dataLine u) :=
    .newline (by decide : ofChar 'd' ≠ newline) (endsAtBreak_line (line_data formed))
  have event : EndsAtBreak (newline :: (eventLine u ++ newline :: dataLine u)) :=
    .newline (by decide : ofChar 'e' ≠ newline) (.line (line_event u) data)
  rw [body_update]
  exact .line (line_id u) event

theorem endsAtBreak_heartbeat : EndsAtBreak Item.heartbeat.body :=
  endsAtBreak_line (line_text (s := ": heartbeat") (forall_mem_of_all (by decide)))

theorem splitBlocks_stream {items : List Item} (ends : ∀ item ∈ items, EndsAtBreak item.body) :
    splitBlocks (streamText items) = items.map Item.body ++ [[]] := by
  induction items with
  | nil => rfl
  | cons item items ih =>
    have first := ends item List.mem_cons_self (streamText items)
    rw [ih fun other mem => ends other (List.mem_cons_of_mem item mem)] at first
    rw [List.map_cons, List.cons_append, ← first, streamText, List.flatMap_cons, List.append_assoc]
    rfl

/-! What the client reads in it. -/

theorem trimStart_cons {p : CodePoint} (other : isTrimmed p = false) (t : Text) : trimStart (p :: t) = p :: t := by
  rw [trimStart, List.dropWhile_cons_of_neg (by rw [other]; exact Bool.false_ne_true)]

theorem trimStart_space (t : Text) : trimStart (ofChar ' ' :: t) = trimStart t := by
  rw [trimStart, List.dropWhile_cons_of_pos (by decide), trimStart]

theorem trim_cons {p : CodePoint} (other : isTrimmed p = false) (t : Text) : trim (p :: t) ≠ [] := by
  rw [trim, trimStart_cons other]
  intro empty
  have all := List.dropWhile_eq_nil_iff.mp (List.reverse_eq_nil_iff.mp empty) p
    (List.mem_reverse.mpr List.mem_cons_self)
  rw [other] at all
  cases all

theorem digit_other {p : CodePoint} (digit : isDigit p = true) : isTrimmed p = false := by
  rw [isDigit, between, Bool.and_eq_true, decide_eq_true_eq, decide_eq_true_eq] at digit
  have bounds : 48 ≤ p.val ∧ p.val ≤ 57 := digit
  have all : ∀ n < 58, 48 ≤ n → isTrimmed (point n) = false := by decide +kernel
  rw [← point_val p]
  exact all p.val (by omega) bounds.1

theorem digits_head (n : ℕ) : ∃ p t, text n.repr = p :: t ∧ isDigit p = true := by
  obtain ⟨p, t, form, -⟩ := no_sign (k := n)
  exact ⟨p, t, form, digits_text n p (by rw [form]; exact List.mem_cons_self)⟩

theorem trim_digits (n : ℕ) : trim (text n.repr) = text n.repr := by
  obtain ⟨p, t, form, first⟩ := digits_head n
  have whole : trimStart (text n.repr) = text n.repr := by
    rw [form, trimStart_cons (digit_other first)]
  have back : (text n.repr).reverse.dropWhile isTrimmed = (text n.repr).reverse := by
    rw [List.dropWhile_eq_self_iff]
    intro positive trimmed
    have mem := List.mem_reverse.mp (List.getElem_mem positive)
    rw [digit_other (digits_text n _ mem)] at trimmed
    cases trimmed
  rw [trim, whole, back, List.reverse_reverse]

theorem trim_id (n : ℕ) : trim (ofChar ' ' :: text n.repr) = text n.repr := by
  have start := trimStart_space (text n.repr)
  have plain := trim_digits n
  rw [trim] at plain ⊢
  rw [start, plain]

theorem parseInt_digits (n : ℕ) : parseInt (text n.repr) = some (nearest n) := by
  obtain ⟨p, t, form, first⟩ := digits_head n
  have whole : trimStart (text n.repr) = text n.repr := by
    rw [form, trimStart_cons (digit_other first)]
  have minus : (text n.repr).head? ≠ some (ofChar '-') := by
    rw [form]
    rintro same
    rw [Option.some.inj same] at first
    exact absurd first (by decide)
  have plus : (text n.repr).head? ≠ some (ofChar '+') := by
    rw [form]
    rintro same
    rw [Option.some.inj same] at first
    exact absurd first (by decide)
  have digits : (text n.repr).takeWhile isDigit = text n.repr :=
    List.takeWhile_eq_self_iff.mpr (digits_text n)
  have some : text n.repr ≠ [] := by
    rw [form]
    exact List.cons_ne_nil p t
  have value := digitsValue_text n
  simp only [parseInt, whole, minus, plus, digits, some, value, or_false, if_false]

theorem isFinite_nearest {n : ℕ} (short : n < 2 ^ 63) : isFinite (nearest n) = true := by
  unfold nearest
  split
  · rfl
  · rename_i large
    rw [Int.natAbs_natCast] at large ⊢
    have positive : n ≠ 0 := by omega
    obtain ⟨unit, unitIs⟩ : ∃ unit, unit = 2 ^ (n.log2 - 52) := ⟨_, rfl⟩
    have below : unit ≤ n := by
      rw [unitIs]
      exact (Nat.pow_le_pow_right (by decide) (Nat.sub_le _ _)).trans (Nat.log2_self_le positive)
    have bound (s : ℕ) (up : s ≤ n / unit + 1) : s * unit < 2 ^ 1024 := by
      have whole : n / unit * unit ≤ n := Nat.div_mul_le_self n unit
      have each : s * unit ≤ (n / unit + 1) * unit := Nat.mul_le_mul_right unit up
      rw [Nat.add_mul, Nat.one_mul] at each
      have narrow : s * unit < 2 ^ 64 := by omega
      have wide (k : ℕ) (large : 64 < k) : 2 ^ 64 < 2 ^ k := Nat.pow_lt_pow_right (by decide) large
      exact narrow.trans (wide 1024 (by decide))
    simp only [← unitIs]
    rw [if_neg (Nat.not_le.mpr (bound _ (by split <;> omega)))]
    rfl

theorem head_data (u : Update) : ∃ t, dumpsPlain u.data = ofChar '\x7b' :: t := ⟨_, rfl⟩

section
variable {py : Interpreter}

theorem lines_update {u : Update} (formed : wellFormed u.data = true) :
    splitLines (Item.update u).body = [idLine u, eventLine u, dataLine u] := by
  rw [body_update, splitLines_line (line_id u), splitLines_line (line_event u), splitLines_last (line_data formed)]

theorem id_update (u : Update) : idOf [idLine u, eventLine u, dataLine u] = some (nearest u.sequenceId) := by
  have here : text "id:" <+: idLine u := ⟨ofChar ' ' :: text u.sequenceId.repr, rfl⟩
  have event : ¬ text "id:" <+: eventLine u := fun ⟨_, form⟩ =>
    absurd (List.cons.inj form).1 (by decide : ofChar 'i' ≠ ofChar 'e')
  have data : ¬ text "id:" <+: dataLine u := fun ⟨_, form⟩ =>
    absurd (List.cons.inj form).1 (by decide : ofChar 'i' ≠ ofChar 'd')
  have value : parseInt (trim ((idLine u).drop 3)) = some (nearest u.sequenceId) := by
    change parseInt (trim (ofChar ' ' :: text u.sequenceId.repr)) = _
    rw [trim_id, parseInt_digits]
  simp only [idOf, List.foldl_cons, List.foldl_nil, here, event, data, if_true, if_false, value]

theorem data_update (u : Update) : dataOf [idLine u, eventLine u, dataLine u] = [dumpsPlain u.data] := by
  have id : ¬ text "data:" <+: idLine u := fun ⟨_, form⟩ =>
    absurd (List.cons.inj form).1 (by decide : ofChar 'd' ≠ ofChar 'i')
  have event : ¬ text "data:" <+: eventLine u := fun ⟨_, form⟩ =>
    absurd (List.cons.inj form).1 (by decide : ofChar 'd' ≠ ofChar 'e')
  have here : text "data:" <+: dataLine u := ⟨ofChar ' ' :: dumpsPlain u.data, rfl⟩
  have value : trimStart ((dataLine u).drop 5) = dumpsPlain u.data := by
    change trimStart (ofChar ' ' :: dumpsPlain u.data) = _
    obtain ⟨t, form⟩ := head_data u
    rw [trimStart_space, form, trimStart_cons (by decide)]
  simp only [dataOf, List.filterMap_cons, List.filterMap_nil, here, id, event, if_true, if_false, value]

theorem parse_update {u : Update} (stored : u.Stored py) :
    parseSseBlock py (Item.update u).body = .ok (some (nearest u.sequenceId, convert nearest u.data)) := by
  obtain ⟨t, form⟩ : ∃ t, (Item.update u).body = ofChar 'i' :: t := ⟨_, rfl⟩
  have first : ¬ (trim (Item.update u).body = [] ∨ (trimStart (Item.update u).body).head? = some (ofChar ':')) := by
    rw [form, trimStart_cons (by decide)]
    exact not_or.mpr ⟨trim_cons (by decide) t, fun same =>
      absurd (Option.some.inj same) (by decide : ofChar 'i' ≠ ofChar ':')⟩
  have parsed := jsonParse_plain stored.known stored.proper stored.numbers
  rw [parseSseBlock, if_neg first]
  simp only [lines_update stored.formed, id_update, data_update, isFinite_nearest stored.short, Bool.not_true,
    List.cons_ne_nil, decide_false, Bool.or_false, Bool.false_eq_true, if_false, List.intercalate_singleton, parsed]

theorem parse_heartbeat : parseSseBlock py Item.heartbeat.body = .ok none := by
  rw [parseSseBlock, if_pos (.inr (by decide))]

theorem handle_items {items : List Item} (stored : ∀ u, .update u ∈ items → u.Stored py) :
    handle py (items.map Item.body) = (items.filterMap (Item.update? nearest), false) := by
  induction items with
  | nil => rfl
  | cons item items ih =>
    have later := ih fun u mem => stored u (List.mem_cons_of_mem item mem)
    rw [List.map_cons, handle]
    cases item with
    | update u =>
      rw [parse_update (stored u List.mem_cons_self)]
      simp only [later]
      rfl
    | heartbeat =>
      rw [parse_heartbeat]
      exact later

end

/-! The bytes, and the chunks they come in. -/

theorem utf8_low {p : CodePoint} (known : low p = true) :
    String.utf8EncodeChar (toChar p) = [UInt8.ofNat p.val] := by
  have all : ∀ n < 0x7F, String.utf8EncodeChar (Char.ofNat n) = [UInt8.ofNat n] := by decide +kernel
  exact all p.val (of_decide_eq_true known)

theorem bytes_low {t : Text} (known : ∀ p ∈ t, low p = true) : ∃ bytes, encodeUtf8 t = some bytes ∧
    bytes.data.toList = t.map fun p => UInt8.ofNat p.val := by
  refine ⟨_, by rw [encodeUtf8, if_pos (scalar_of_low known)], ?_⟩
  rw [toUTF8_bytes]
  induction t with
  | nil => rfl
  | cons p t ih =>
    rw [List.map_cons, List.flatMap_cons, utf8_low (known p List.mem_cons_self),
      ih fun q mem => known q (List.mem_cons_of_mem p mem)]
    rfl

theorem byte_low {p : CodePoint} (known : low p = true) :
    UInt8.ofNat p.val < 0x80 ∧ point (UInt8.ofNat p.val).toNat = p := by
  have below := of_decide_eq_true known
  have val : (UInt8.ofNat p.val).toNat = p.val := UInt8.toNat_ofNat_of_lt' (by change p.val < 256; omega)
  refine ⟨?_, by rw [val, point_val]⟩
  rw [UInt8.lt_iff_toNat_lt, val]
  change p.val < 128
  omega

theorem asciiText_bytes {t : Text} (known : ∀ p ∈ t, low p = true) :
    asciiText (t.map fun p => UInt8.ofNat p.val) = t := by
  rw [asciiText, List.map_map]
  calc t.map _ = t.map id := List.map_congr_left fun p mem => (byte_low (known p mem)).2
    _ = t := List.map_id t

theorem decoded_flatten {d : TextDecoder} (ascii : d.DecodesAscii) {t : Text} (known : ∀ p ∈ t, low p = true)
    {chunks : List (List UInt8)} (cut : chunks.flatten = t.map fun p => UInt8.ofNat p.val) :
    (decodeChunks d d.start chunks).flatten = t := by
  have small : ∀ chunk ∈ chunks, ∀ b ∈ chunk, b < 0x80 := by
    intro chunk mem b here
    have listed : b ∈ chunks.flatten := List.mem_flatten.mpr ⟨chunk, mem, here⟩
    rw [cut] at listed
    obtain ⟨p, inside, rfl⟩ := List.mem_map.mp listed
    exact (byte_low (known p inside)).1
  have each : (chunks.map asciiText).flatten = asciiText chunks.flatten := List.map_flatten.symm
  rw [ascii chunks small, each, cut, asciiText_bytes known]

theorem low_stream {py : Interpreter} {items : List Item} (stored : ∀ u, .update u ∈ items → u.Stored py) :
    ∀ p ∈ streamText items, low p = true := by
  intro p mem
  obtain ⟨item, listed, here⟩ := List.mem_flatMap.mp mem
  have mark : low newline = true := by decide
  rcases List.mem_append.mp here with body | last
  · cases item with
    | update u =>
      have formed := (stored u listed).formed
      rw [body_update] at body
      simp only [List.mem_append, List.mem_cons] at body
      rcases body with id | rfl | event | rfl | data
      · exact (line_id u p id).1
      · exact mark
      · exact (line_event u p event).1
      · exact mark
      · exact (line_data formed p data).1
    | heartbeat => exact (line_text (s := ": heartbeat") (forall_mem_of_all (by decide)) p body).1
  · simp only [List.mem_cons, List.not_mem_nil, or_false, or_self] at last
    rw [last]
    exact mark

theorem received_nearest {py : Interpreter} {d : TextDecoder} (ascii : d.DecodesAscii) {items : List Item}
    (stored : ∀ u, .update u ∈ items → u.Stored py) {chunks : List (List UInt8)}
    (cut : chunks.flatten = (streamText items).map fun p => UInt8.ofNat p.val) :
    received py d chunks = (items.filterMap (Item.update? nearest), false) := by
  have ends : ∀ item ∈ items, EndsAtBreak item.body := by
    intro item mem
    cases item with
    | update u => exact endsAtBreak_update (stored u mem).formed
    | heartbeat => exact endsAtBreak_heartbeat
  rw [received, readLoop_eq _ [] rfl, decoded_flatten ascii (low_stream stored) cut, List.nil_append,
    splitBlocks_stream ends, List.dropLast_concat, handle_items stored]

/-! Where the integers are doubles. -/

theorem nearest_small {n : ℤ} (small : n.natAbs ≤ 2 ^ 53) : nearest n = .int n := by
  rcases Nat.lt_or_eq_of_le small with below | bound
  · rw [nearest, if_pos below]
  · rcases Int.natAbs_eq n with form | form
    · rw [form, bound]
      decide +kernel
    · rw [form, bound]
      decide +kernel

mutual
theorem convert_exact : (v : Raw) → exact v = true → convert nearest v = convert .int v
  | .null, _ | .bool _, _ | .float _ _, _ | .str _, _ => rfl
  | .int _, small => congrArg Js.number (nearest_small (of_decide_eq_true small))
  | .arr items, small => congrArg Js.arr (convert_exactItems items small)
  | .obj members, small => congrArg Js.obj (convert_exactMembers members small)
theorem convert_exactItems : (items : List Raw) → exactItems items = true →
    convertItems nearest items = convertItems .int items
  | [], _ => rfl
  | item :: rest, small => by
    rw [exactItems, Bool.and_eq_true] at small
    rw [convertItems, convertItems, convert_exact item small.1, convert_exactItems rest small.2]
theorem convert_exactMembers : (members : List (Text × Raw)) → exactMembers members = true →
    convertMembers nearest members = convertMembers .int members
  | [], _ => rfl
  | (_, value) :: rest, small => by
    rw [exactMembers, Bool.and_eq_true] at small
    rw [convertMembers, convertMembers, convert_exact value small.1, convert_exactMembers rest small.2]
end

theorem update?_exact {item : Item} (small : ∀ u, item = .update u → u.sequenceId ≤ 2 ^ 53 ∧ exact u.data = true) :
    item.update? nearest = item.update? .int := by
  cases item with
  | heartbeat => rfl
  | update u =>
    obtain ⟨id, data⟩ := small u rfl
    have number : nearest u.sequenceId = .int u.sequenceId := nearest_small (by rwa [Int.natAbs_natCast])
    rw [Item.update?, number, convert_exact u.data data]
    rfl

/-- However the bytes of the stream are cut, the client gets its updates in order, each integer rounded to the
next double, and the heartbeats do nothing; integers of at most 53 bits are not rounded. -/
theorem stream_received {py : Interpreter} {d : TextDecoder} (ascii : d.DecodesAscii) {items : List Item}
    (stored : ∀ u, .update u ∈ items → u.Stored py) :
    ∃ bytes, encodeUtf8 (streamText items) = some bytes ∧
      ∀ chunks : List (List UInt8), chunks.flatten = bytes.data.toList →
        received py d chunks = (items.filterMap (Item.update? nearest), false) ∧
        ((∀ u, .update u ∈ items → u.sequenceId ≤ 2 ^ 53 ∧ exact u.data = true) →
          received py d chunks = (items.filterMap (Item.update? .int), false)) := by
  obtain ⟨bytes, written, list⟩ := bytes_low (low_stream stored)
  refine ⟨bytes, written, fun chunks cut => ?_⟩
  rw [list] at cut
  have all := received_nearest ascii stored cut
  refine ⟨all, fun small => ?_⟩
  have same : items.filterMap (Item.update? nearest) = items.filterMap (Item.update? .int) :=
    List.filterMap_congr fun item mem => update?_exact fun u form => small u (form ▸ mem)
  rw [all, same]

def asciiDecoder : TextDecoder := ⟨Unit, (), fun _ chunk => (asciiText chunk, ())⟩

theorem asciiDecoder_ascii : asciiDecoder.DecodesAscii := by
  intro chunks small
  induction chunks with
  | nil => rfl
  | cons chunk chunks ih =>
    rw [decodeChunks, List.map_cons]
    exact congrArg (asciiText chunk :: ·) (ih fun other mem => small other (List.mem_cons_of_mem chunk mem))

def sampleInterpreter : Interpreter := ⟨fun _ => ("NaN", none), fun _ => .error .unicodeDecodeError⟩

def sampleUpdate (payload : Raw) : Update :=
  ⟨7, text "u-7", .timelineAppended, some (text "case-1"), 3, text "2026-01-02T00:00:00+00:00",
    .obj [(text "value", payload)], text "c-7"⟩

theorem note_stored : (sampleUpdate (.str (text "first line\nsecond line, é"))).Stored sampleInterpreter where
  short := by decide
  formed := by decide
  known := by decide
  proper := by decide
  numbers := by decide

theorem note_received : ∃ bytes,
    encodeUtf8 (streamText [.heartbeat, .update (sampleUpdate (.str (text "first line\nsecond line, é")))]) =
      some bytes ∧
    ∀ chunks : List (List UInt8), chunks.flatten = bytes.data.toList →
      received sampleInterpreter asciiDecoder chunks =
        ([(.int 7, convert .int (sampleUpdate (.str (text "first line\nsecond line, é"))).data)], false) := by
  have stored : ∀ u, Item.update u ∈ [.heartbeat, .update (sampleUpdate (.str (text "first line\nsecond line, é")))] →
      u = sampleUpdate (.str (text "first line\nsecond line, é")) := by
    intro u mem
    simpa using mem
  obtain ⟨bytes, written, all⟩ := stream_received asciiDecoder_ascii fun u mem => stored u mem ▸ note_stored
  refine ⟨bytes, written, fun chunks cut => (all chunks cut).2 fun u mem => ?_⟩
  rw [stored u mem]
  exact ⟨by decide, by decide⟩

theorem large_stored : (sampleUpdate (.int (2 ^ 53 + 1))).Stored sampleInterpreter where
  short := by decide
  formed := by decide
  known := by decide
  proper := by decide
  numbers := by decide

/-- A version beyond 2^53 arrives as another one. -/
theorem large_rounded : ∃ bytes, encodeUtf8 (streamText [.update (sampleUpdate (.int (2 ^ 53 + 1)))]) = some bytes ∧
    received sampleInterpreter asciiDecoder [bytes.data.toList] ≠
      ([(.int 7, convert .int (sampleUpdate (.int (2 ^ 53 + 1))).data)], false) := by
  have stored : ∀ u, Item.update u ∈ [.update (sampleUpdate (.int (2 ^ 53 + 1)))] →
      u.Stored sampleInterpreter := by
    intro u mem
    rw [Item.update.inj (List.mem_singleton.mp mem)]
    exact large_stored
  obtain ⟨bytes, written, list⟩ := bytes_low (low_stream stored)
  refine ⟨bytes, written, fun same => ?_⟩
  rw [received_nearest asciiDecoder_ascii stored (by rw [List.flatten_singleton, list])] at same
  have pair := List.head_eq_of_cons_eq (Prod.mk.inj same).1
  have members := Js.obj.inj (Prod.mk.inj pair).2
  have payload := (List.cons.inj (List.cons.inj (List.cons.inj (List.cons.inj (List.cons.inj
    (List.cons.inj members).2).2).2).2).2).1
  have value := (List.cons.inj (Js.obj.inj (Prod.mk.inj payload).2)).1
  exact absurd (Js.number.inj (Prod.mk.inj value).2) (by decide +kernel)

end Mirage.SseFraming
