import Mirage.AiProposals
import Mirage.SignedPackage
import Mathlib.Data.List.Infix

/-! `reject_executable_content` of ai.py: the validator of a proposal's parameters. -/

namespace Mirage.ProposalContent
open PythonText Raw RowLocks AiProposals
open SignedPackage (isWhitespace canonical)

def dangerousKeys : List Text :=
  ["command", "shell", "script", "executable", "executable_path", "argv", "environment"].map text

mutual
def keysOf : Raw → List Text
  | .arr items => keysOfItems items
  | .obj members => keysOfMembers members
  | _ => []
def keysOfItems : List Raw → List Text
  | [] => []
  | item :: rest => keysOf item ++ keysOfItems rest
def keysOfMembers : List (Text × Raw) → List Text
  | [] => []
  | (name, value) :: rest => name :: keysOf value ++ keysOfMembers rest
end

mutual
def textsOf : Raw → List Text
  | .str t => [t]
  | .arr items => textsOfItems items
  | .obj members => textsOfMembers members
  | _ => []
def textsOfItems : List Raw → List Text
  | [] => []
  | item :: rest => textsOf item ++ textsOfItems rest
def textsOfMembers : List (Text × Raw) → List Text
  | [] => []
  | (name, value) :: rest => name :: textsOf value ++ textsOfMembers rest
end

/-! The pattern `(?i)(?:/bin/(?:sh|bash)|powershell(?:\.exe)?|cmd(?:\.exe)?\s+/c)`. -/

/-- What a literal of the pattern is compared with under `IGNORECASE`. -/
def fold (p : CodePoint) : CodePoint :=
  if between 'A' 'Z' p then ofChar (Char.ofNat (p.val + 32))
  else if p.val = 0x17F then ofChar 's'
  else if p.val = 0x130 ∨ p.val = 0x131 then ofChar 'i'
  else p

def literal : List Char → Text → Option Text
  | [], t => some t
  | _ :: _, [] => none
  | c :: cs, p :: t => if fold p = ofChar c then literal cs t else none

def gapMatches (t : Text) : Bool :=
  (t.takeWhile isWhitespace ≠ []) && (literal "/c".toList (t.dropWhile isWhitespace)).isSome

def matchesHere (t : Text) : Bool :=
  (literal "/bin/sh".toList t).isSome || (literal "/bin/bash".toList t).isSome ||
    (literal "powershell".toList t).isSome ||
    (literal "cmd".toList t).any gapMatches || (literal "cmd.exe".toList t).any gapMatches

def searches (t : Text) : Bool := t.tails.any matchesHere

def refused (message : String) : Raised := ⟨.valueError, text "ValueError", text message⟩

section
variable (lower : Text → Text)

/-- `reject_executable_content`; `lower` is `str.lower`. -/
def rejectExecutableContent (params : List (Text × Raw)) : Except Raised Unit := do
  require (!(keysOf (.obj params)).any fun key => lower key ∈ dangerousKeys)
    (refused "shell/script/executable parameters are forbidden")
  let encoded ← canonical (.obj params)
  require (encoded.size ≤ 8192) (refused "proposal params exceed 8 KB")
  require (!searches (dumps (.obj params))) (refused "arbitrary command content is forbidden")

/-- `model_validate` runs the validator on the parameters. -/
def Validates (modelValidate : Raw → Except Failure Proposal) : Prop :=
  ∀ data proposal, modelValidate data = .ok proposal →
    ∃ params, get? data "params" = some (.obj params) ∧ rejectExecutableContent lower params = .ok ()

end

inductive Command : Text → Prop where
  | plain {w : Text} (name : String) (known : name ∈ ["/bin/sh", "/bin/bash", "powershell"])
      (letters : w.map fold = text name) : Command w
  | cmd {name gap slash : Text} (letters : name.map fold = text "cmd" ∨ name.map fold = text "cmd.exe")
      (some : gap ≠ []) (blank : ∀ p ∈ gap, isWhitespace p = true) (ends : slash.map fold = text "/c") :
      Command (name ++ gap ++ slash)

def escaped (p : CodePoint) : Bool := p.val < 0x20 || p.val = 0x22 || p.val = 0x5C

theorem fold_other {p : CodePoint} (other : p.val < 65 ∨ 90 < p.val ∧ p.val ≠ 0x17F ∧ p.val ≠ 0x130 ∧ p.val ≠ 0x131) :
    fold p = p := by
  have letter : between 'A' 'Z' p = false := by
    rw [between, Bool.and_eq_false_iff, decide_eq_false_iff_not, decide_eq_false_iff_not]
    change ¬ 65 ≤ p.val ∨ ¬ p.val ≤ 90
    omega
  rw [fold, letter, if_neg Bool.false_ne_true, if_neg (by omega), if_neg (by omega)]

theorem fold_whitespace {p : CodePoint} (white : isWhitespace p = true) : fold p = p := by
  apply fold_other
  have tab : '\t'.toNat = 9 := rfl
  have return_ : '\r'.toNat = 13 := rfl
  simp only [isWhitespace, between, Bool.or_eq_true, Bool.and_eq_true, decide_eq_true_eq, List.mem_cons,
    List.not_mem_nil, or_false, tab, return_] at white
  omega

theorem fold_escaped {p : CodePoint} (known : escaped p = true) : fold p = p := by
  apply fold_other
  simp only [escaped, Bool.or_eq_true, decide_eq_true_eq] at known
  omega

theorem pattern_point {p : CodePoint} {c : Char} (mem : c ∈ "/binshapowerl.xecmd".toList) (same : fold p = ofChar c) :
    isWhitespace p = false ∧ escaped p = false := by
  have clean : ∀ c ∈ "/binshapowerl.xecmd".toList, isWhitespace (ofChar c) = false ∧ escaped (ofChar c) = false :=
    forall_mem_of_all (by decide)
  have known := clean c mem
  rw [← same] at known
  refine ⟨?_, ?_⟩
  · cases white : isWhitespace p with
    | false => rfl
    | true => rw [fold_whitespace white, white] at known; cases known.1
  · cases quoted : escaped p with
    | false => rfl
    | true => rw [fold_escaped quoted, quoted] at known; cases known.2

theorem literal_eq_some {cs : List Char} {t rest : Text} :
    literal cs t = some rest ↔ ∃ w, t = w ++ rest ∧ w.map fold = cs.map ofChar := by
  induction cs generalizing t with
  | nil =>
    rw [literal, Option.some.injEq]
    refine ⟨fun same => ⟨[], same, rfl⟩, ?_⟩
    rintro ⟨w, rfl, letters⟩
    rw [List.map_eq_nil_iff.mp letters, List.nil_append]
  | cons c cs ih =>
    cases t with
    | nil =>
      refine ⟨fun never => (by cases never), ?_⟩
      rintro ⟨w, parts, letters⟩
      rw [(List.append_eq_nil_iff.mp parts.symm).1] at letters
      cases letters
    | cons p t =>
      rw [literal]
      by_cases same : fold p = ofChar c
      · rw [if_pos same, ih]
        constructor
        · rintro ⟨w, rfl, letters⟩
          exact ⟨p :: w, rfl, by rw [List.map_cons, List.map_cons, same, letters]⟩
        · rintro ⟨w, parts, letters⟩
          cases w with
          | nil => cases letters
          | cons q w =>
            obtain ⟨rfl, rfl⟩ := List.cons.inj parts
            exact ⟨w, rfl, (List.cons.inj letters).2⟩
      · rw [if_neg same]
        refine ⟨fun never => (by cases never), ?_⟩
        rintro ⟨w, parts, letters⟩
        cases w with
        | nil => cases letters
        | cons q w =>
          obtain ⟨rfl, _⟩ := List.cons.inj parts
          exact absurd (List.cons.inj letters).1 same

theorem gapMatches_iff {t : Text} : gapMatches t = true ↔ ∃ gap slash rest, t = gap ++ slash ++ rest ∧ gap ≠ [] ∧
    (∀ p ∈ gap, isWhitespace p = true) ∧ slash.map fold = text "/c" := by
  rw [gapMatches, Bool.and_eq_true, decide_eq_true_eq, Option.isSome_iff_exists]
  constructor
  · rintro ⟨some, rest, ends⟩
    obtain ⟨slash, parts, letters⟩ := literal_eq_some.mp ends
    refine ⟨t.takeWhile isWhitespace, slash, rest, ?_, some, fun p mem => List.mem_takeWhile_imp mem, letters⟩
    rw [List.append_assoc, ← parts, List.takeWhile_append_dropWhile]
  · rintro ⟨gap, slash, rest, rfl, some, blank, ends⟩
    have stops : (slash ++ rest).dropWhile isWhitespace = slash ++ rest ∧
        (slash ++ rest).takeWhile isWhitespace = [] := by
      cases slash with
      | nil => cases ends
      | cons p slash =>
        have first := (pattern_point (c := '/') (by decide) (List.cons.inj ends).1).1
        simp [first]
    rw [List.append_assoc, List.dropWhile_append_of_pos blank, List.takeWhile_append_of_pos blank, stops.1, stops.2,
      List.append_nil]
    exact ⟨some, rest, literal_eq_some.mpr ⟨slash, rfl, ends⟩⟩

theorem literal_isSome_iff {name : String} {t : Text} : (literal name.toList t).isSome = true ↔
    ∃ w rest, t = w ++ rest ∧ w.map fold = text name := by
  rw [Option.isSome_iff_exists]
  constructor
  · rintro ⟨rest, found⟩
    obtain ⟨w, parts, letters⟩ := literal_eq_some.mp found
    exact ⟨w, rest, parts, letters⟩
  · rintro ⟨w, rest, parts, letters⟩
    exact ⟨rest, literal_eq_some.mpr ⟨w, parts, letters⟩⟩

theorem literal_gap_iff {name : String} {t : Text} : (literal name.toList t).any gapMatches = true ↔
    ∃ w gap slash rest, t = w ++ gap ++ slash ++ rest ∧ w.map fold = text name ∧ gap ≠ [] ∧
      (∀ p ∈ gap, isWhitespace p = true) ∧ slash.map fold = text "/c" := by
  rw [Option.any_eq_true]
  constructor
  · rintro ⟨rest, found, gaps⟩
    obtain ⟨w, rfl, letters⟩ := literal_eq_some.mp found
    obtain ⟨gap, slash, rest, rfl, some, blank, ends⟩ := gapMatches_iff.mp gaps
    exact ⟨w, gap, slash, rest, by simp only [List.append_assoc], letters, some, blank, ends⟩
  · rintro ⟨w, gap, slash, rest, rfl, letters, some, blank, ends⟩
    refine ⟨gap ++ slash ++ rest, literal_eq_some.mpr ⟨w, by simp only [List.append_assoc], letters⟩, ?_⟩
    exact gapMatches_iff.mpr ⟨gap, slash, rest, rfl, some, blank, ends⟩

theorem matchesHere_iff {t : Text} : matchesHere t = true ↔ ∃ w rest, t = w ++ rest ∧ Command w := by
  simp only [matchesHere, Bool.or_eq_true, literal_isSome_iff, literal_gap_iff]
  constructor
  · rintro ((((⟨w, rest, parts, letters⟩ | ⟨w, rest, parts, letters⟩) | ⟨w, rest, parts, letters⟩) |
      ⟨w, gap, slash, rest, parts, letters, some, blank, ends⟩) |
      ⟨w, gap, slash, rest, parts, letters, some, blank, ends⟩)
    · exact ⟨w, rest, parts, .plain "/bin/sh" (by decide) letters⟩
    · exact ⟨w, rest, parts, .plain "/bin/bash" (by decide) letters⟩
    · exact ⟨w, rest, parts, .plain "powershell" (by decide) letters⟩
    · exact ⟨_, rest, parts, .cmd (.inl letters) some blank ends⟩
    · exact ⟨_, rest, parts, .cmd (.inr letters) some blank ends⟩
  · rintro ⟨w, rest, parts, command⟩
    cases command with
    | plain name known letters =>
      simp only [List.mem_cons, List.not_mem_nil, or_false] at known
      rcases known with rfl | rfl | rfl
      · exact .inl (.inl (.inl (.inl ⟨w, rest, parts, letters⟩)))
      · exact .inl (.inl (.inl (.inr ⟨w, rest, parts, letters⟩)))
      · exact .inl (.inl (.inr ⟨w, rest, parts, letters⟩))
    | @cmd name gap slash letters some blank ends =>
      rcases letters with letters | letters
      · exact .inl (.inr ⟨name, gap, slash, rest, parts, letters, some, blank, ends⟩)
      · exact .inr ⟨name, gap, slash, rest, parts, letters, some, blank, ends⟩

theorem searches_iff {t : Text} : searches t = true ↔ ∃ w, w <:+: t ∧ Command w := by
  rw [searches, List.any_eq_true]
  constructor
  · rintro ⟨back, mem, found⟩
    obtain ⟨w, rest, rfl, command⟩ := matchesHere_iff.mp found
    obtain ⟨front, parts⟩ := (List.mem_tails _ _).mp mem
    exact ⟨w, ⟨front, rest, by rw [← parts, List.append_assoc]⟩, command⟩
  · rintro ⟨w, ⟨front, rest, parts⟩, command⟩
    refine ⟨w ++ rest, (List.mem_tails _ _).mpr ⟨front, by rw [← parts, List.append_assoc]⟩, ?_⟩
    exact matchesHere_iff.mpr ⟨w, rest, rfl, command⟩

/-! Strings inside the canonical text. -/

theorem escapePoint_plain {p : CodePoint} (plain : escaped p = false) : escapePoint p = [p] := by
  simp only [escaped, Bool.or_eq_false_iff, decide_eq_false_iff_not] at plain
  by_cases ascii : p.val < 0x80
  · have all : ∀ n < 0x80, ¬ n < 0x20 → n ≠ 0x22 → n ≠ 0x5C → Json.escapeChar (Char.ofNat n) = [Char.ofNat n] := by
      decide
    have proper : isSurrogate p = false := by
      rw [isSurrogate, Bool.and_eq_false_iff, decide_eq_false_iff_not]
      omega
    have back := ofChar_toChar proper
    rw [escapePoint, if_pos ascii, toChar, all p.val ascii plain.1.1 plain.1.2 plain.2]
    exact congrArg (fun q => [q]) back
  · rw [escapePoint, if_neg ascii]

theorem flatMap_plain {w : Text} (plain : ∀ p ∈ w, escaped p = false) : w.flatMap escapePoint = w := by
  induction w with
  | nil => rfl
  | cons p w ih =>
    rw [List.forall_mem_cons] at plain
    rw [List.flatMap_cons, escapePoint_plain plain.1, ih plain.2, List.singleton_append]

theorem infix_quote {w s : Text} (part : w <:+: s) (plain : ∀ p ∈ w, escaped p = false) : w <:+: quote s := by
  obtain ⟨front, rest, rfl⟩ := part
  refine ⟨ofChar '"' :: front.flatMap escapePoint, rest.flatMap escapePoint ++ [ofChar '"'], ?_⟩
  rw [quote, List.flatMap_append, List.flatMap_append, flatMap_plain plain]
  simp only [List.cons_append, List.append_assoc]

theorem infix_join {parts : List Text} {part : Text} (mem : part ∈ parts) : part <:+: join parts := by
  cases parts with
  | nil => cases mem
  | cons first rest =>
    rw [CanonicalInjective.join_cons]
    rcases List.mem_cons.mp mem with rfl | later
    · exact (List.prefix_append _ _).isInfix
    · obtain ⟨before, after, rfl⟩ := List.append_of_mem later
      refine List.IsInfix.trans ?_ (List.suffix_append _ _).isInfix
      refine ⟨before.flatMap (fun t => ofChar ',' :: t) ++ [ofChar ','], after.flatMap fun t => ofChar ',' :: t, ?_⟩
      simp only [List.flatMap_append, List.flatMap_cons, List.append_assoc, List.cons_append, List.nil_append]

theorem infix_enclosed {w body : Text} (first last : CodePoint) (part : w <:+: body) :
    w <:+: first :: (body ++ [last]) :=
  (part.trans (List.prefix_append body [last]).isInfix).trans (List.suffix_cons first _).isInfix

mutual
theorem quoted_within : (v : Raw) → ∀ s ∈ textsOf v, quote s <:+: dumps v
  | .null | .bool _ | .int _ | .float _ _ => fun s mem => (by cases mem)
  | .str t => fun s mem => by
    rw [List.mem_singleton.mp mem, dumps]
  | .arr items => fun s mem => by
    obtain ⟨part, memPart, inside⟩ := quoted_within_items items s mem
    rw [dumps]
    exact infix_enclosed _ _ (inside.trans (infix_join memPart))
  | .obj members => fun s mem => by
    obtain ⟨m, memPart, inside⟩ := quoted_within_members members s mem
    rw [dumps]
    refine infix_enclosed _ _ (inside.trans (infix_join (List.mem_map_of_mem ?_)))
    exact (List.mem_insertionSort _).mpr memPart
theorem quoted_within_items : (items : List Raw) → ∀ s ∈ textsOfItems items, ∃ part ∈ dumpsItems items, quote s <:+: part
  | [] => fun s mem => (by cases mem)
  | item :: rest => fun s mem => by
    rcases List.mem_append.mp mem with here | later
    · exact ⟨dumps item, List.mem_cons_self, quoted_within item s here⟩
    · obtain ⟨part, memPart, inside⟩ := quoted_within_items rest s later
      exact ⟨part, List.mem_cons_of_mem _ memPart, inside⟩
theorem quoted_within_members : (members : List (Text × Raw)) → ∀ s ∈ textsOfMembers members,
    ∃ m ∈ dumpsMembers members, quote s <:+: memberText m
  | [] => fun s mem => (by cases mem)
  | (name, value) :: rest => fun s mem => by
    rw [textsOfMembers, List.mem_append, List.mem_cons] at mem
    rcases mem with (rfl | here) | later
    · exact ⟨_, List.mem_cons_self, (List.prefix_append _ _).isInfix⟩
    · refine ⟨_, List.mem_cons_self, (quoted_within value s here).trans ?_⟩
      exact ((List.suffix_cons _ _).trans (List.suffix_append _ _)).isInfix
    · obtain ⟨m, memPart, inside⟩ := quoted_within_members rest s later
      exact ⟨m, List.mem_cons_of_mem _ memPart, inside⟩
end

/-- Between `cmd` or `cmd.exe` and `/c` there is whitespace with a control character, which JSON escapes. -/
def ControlGap (s : Text) : Prop :=
  ∃ front name gap slash rest, s = front ++ name ++ gap ++ slash ++ rest ∧
    (name.map fold = text "cmd" ∨ name.map fold = text "cmd.exe") ∧ (∀ p ∈ gap, isWhitespace p = true) ∧
    (∃ p ∈ gap, p.val < 0x20) ∧ slash.map fold = text "/c"

theorem pattern_plain {w : Text} {name : String} (letters : w.map fold = text name)
    (known : ∀ c ∈ name.toList, c ∈ "/binshapowerl.xecmd".toList) : ∀ p ∈ w, escaped p = false := by
  intro p mem
  have folded : fold p ∈ text name := letters ▸ List.mem_map_of_mem mem
  obtain ⟨c, memC, same⟩ := List.mem_map.mp folded
  exact (pattern_point (known c memC) same.symm).2

theorem searches_dumps {v : Raw} {s : Text} (mem : s ∈ textsOf v) (found : searches s = true)
    (open_ : ¬ ControlGap s) : searches (dumps v) = true := by
  obtain ⟨w, part, command⟩ := searches_iff.mp found
  suffices plain : ∀ p ∈ w, escaped p = false from
    searches_iff.mpr ⟨w, (infix_quote part plain).trans (quoted_within v s mem), command⟩
  cases command with
  | plain name known letters =>
    refine pattern_plain letters ?_
    simp only [List.mem_cons, List.not_mem_nil, or_false] at known
    rcases known with rfl | rfl | rfl <;> exact forall_mem_of_all (by decide)
  | @cmd name gap slash letters _ blank ends =>
    obtain ⟨front, rest, parts⟩ := part
    intro p memP
    rw [List.mem_append, List.mem_append] at memP
    rcases memP with (here | here) | here
    · rcases letters with letters | letters
      · exact pattern_plain letters (forall_mem_of_all (by decide)) p here
      · exact pattern_plain letters (forall_mem_of_all (by decide)) p here
    · have visible : ¬ p.val < 0x20 := fun control => open_
        ⟨front, name, gap, slash, rest, by rw [← parts]; simp only [List.append_assoc], letters, blank,
          ⟨p, here, control⟩, ends⟩
      cases quoted : escaped p with
      | false => rfl
      | true =>
        have white := blank p here
        simp only [escaped, Bool.or_eq_true, decide_eq_true_eq, visible, false_or] at quoted
        rcases quoted with mark | mark
        · have same : p = ofChar '"' := Fin.ext mark
          exact absurd (same ▸ white) (by decide)
        · have same : p = ofChar '\\' := Fin.ext mark
          exact absurd (same ▸ white) (by decide)
    · exact pattern_plain ends (forall_mem_of_all (by decide)) p here

theorem searches_controlGap {s : Text} (gaps : ControlGap s) : searches s = true := by
  obtain ⟨front, name, gap, slash, rest, rfl, letters, blank, ⟨p, mem, _⟩, ends⟩ := gaps
  refine searches_iff.mpr ⟨name ++ gap ++ slash, ⟨front, rest, by simp only [List.append_assoc]⟩, ?_⟩
  exact .cmd letters (List.ne_nil_of_mem mem) blank ends

theorem rejectExecutableContent_eq_ok {lower : Text → Text} {params : List (Text × Raw)}
    (passed : rejectExecutableContent lower params = .ok ()) :
    (∀ key ∈ keysOf (.obj params), lower key ∉ dangerousKeys) ∧ searches (dumps (.obj params)) = false := by
  simp only [rejectExecutableContent, bind_eq_ok, require_eq_ok, Bool.not_eq_true', List.any_eq_false,
    decide_eq_true_eq] at passed
  obtain ⟨_, keys, _, _, _, _, quiet⟩ := passed
  exact ⟨keys, quiet⟩

/-- The strings and keys of accepted parameters match the forbidden pattern exactly where whitespace with a
control character stands between `cmd` and `/c`. -/
theorem accepted_texts_iff {lower : Text → Text} {params : List (Text × Raw)}
    (passed : rejectExecutableContent lower params = .ok ()) :
    (∀ s ∈ textsOf (.obj params), searches s = false) ↔ ∀ s ∈ textsOf (.obj params), ¬ ControlGap s := by
  have quiet := (rejectExecutableContent_eq_ok passed).2
  refine forall₂_congr fun s mem => ⟨fun clean gaps => ?_, fun open_ => ?_⟩
  · rw [searches_controlGap gaps] at clean
    cases clean
  · cases found : searches s with
    | false => rfl
    | true =>
      rw [searches_dumps mem found open_] at quiet
      cases quiet

/-- An accepted proposal has no executable content exactly if none of its parameters' strings and keys has
whitespace with a control character between `cmd` and `/c`. -/
theorem accepted_proposal_iff (py : JsonLoads.Interpreter) (lower : Text → Text)
    (modelValidate : Raw → Except Failure Proposal) (validates : Validates lower modelValidate) (raw : Raw)
    (now : DateTime) {proposal : Proposal} (accepted : validateProposal py modelValidate raw now = .ok proposal) :
    ∃ data params, answerData py raw = .ok data ∧ get? data "params" = some (.obj params) ∧
      (((∀ key ∈ keysOf (.obj params), lower key ∉ dangerousKeys) ∧ ∀ s ∈ textsOf (.obj params), searches s = false) ↔
        ∀ s ∈ textsOf (.obj params), ¬ ControlGap s) := by
  simp only [validateProposal, bind_eq_ok] at accepted
  obtain ⟨data, answered, validated, model, _⟩ := accepted
  obtain ⟨params, found, passed⟩ := validates data validated model
  refine ⟨data, params, answered, found, ?_⟩
  rw [← accepted_texts_iff passed]
  exact ⟨And.right, fun texts => ⟨(rejectExecutableContent_eq_ok passed).1, texts⟩⟩

def asciiLower (t : Text) : Text := t.map fold

def at_ (year : ℕ) : DateTime := ⟨year, 1, 1, 0, some 0⟩

def sampleValidate (data : Raw) : Except Failure Proposal :=
  match get? data "params" with
  | some (.obj params) =>
    match rejectExecutableContent asciiLower params with
    | .ok () => .ok ⟨text "01HX3QK7Z0000000000000CASE", text "01HX3QK7Z0000000000000SNAP", at_ 2027⟩
    | .error _ => .error .validationError
  | _ => .error .validationError

theorem sampleValidate_validates : Validates asciiLower sampleValidate := by
  intro data proposal validated
  unfold sampleValidate at validated
  split at validated
  next params found =>
    split at validated
    next passed => exact ⟨params, found, passed⟩
    next => cases validated
  next => cases validated

def sampleInterpreter : JsonLoads.Interpreter := ⟨fun _ => ("NaN", none), fun _ => .error .unicodeDecodeError⟩

def noteProposal (note : String) : Raw := .obj [(text "params", .obj [(text "note", .str (text note))])]

theorem noteProposal_accepted : ∃ data params, answerData sampleInterpreter (noteProposal "move the decoy") = .ok data ∧
    get? data "params" = some (.obj params) ∧
    (((∀ key ∈ keysOf (.obj params), asciiLower key ∉ dangerousKeys) ∧
        ∀ s ∈ textsOf (.obj params), searches s = false) ↔ ∀ s ∈ textsOf (.obj params), ¬ ControlGap s) :=
  accepted_proposal_iff sampleInterpreter asciiLower sampleValidate sampleValidate_validates
    (noteProposal "move the decoy") (at_ 2026) (by rfl)

/-- A tab hides the command from the validator. -/
theorem tab_hides_command : ∃ proposal,
    validateProposal sampleInterpreter sampleValidate (noteProposal "cmd\t/c dir") (at_ 2026) = .ok proposal ∧
      searches (text "cmd\t/c dir") = true := by
  exact ⟨_, rfl, by decide⟩

end Mirage.ProposalContent
