import Mirage.ContractEnvelope

/-! The identifiers, times and versions of the contracts as Python and TypeScript validate
them. -/

namespace Mirage.ContractDialects
open PythonText ContractEnvelope

/-! Texts as JavaScript holds them. -/

def codeUnits (p : CodePoint) : Text :=
  if p.val < 0x10000 then [p]
  else [Fin.ofNat _ (0xD800 + (p.val - 0x10000) / 0x400), Fin.ofNat _ (0xDC00 + (p.val - 0x10000) % 0x400)]

def utf16 (t : Text) : Text := t.flatMap codeUnits

structure Fields where
  year : ℕ
  month : ℕ
  day : ℕ
  hour : ℕ
  minute : ℕ
  second : ℕ
  milli : ℕ

def number (t : Text) (start width : ℕ) : ℕ := digitsValue ((t.drop start).take width)

/-- The numbers of a text of the form `YYYY-MM-DDTHH:MM:SS.mmmZ`. -/
def fieldsOf (t : Text) : Fields :=
  ⟨number t 0 4, number t 5 2, number t 8 2, number t 11 2, number t 14 2, number t 17 2, number t 20 3⟩

def isLeap (year : ℕ) : Bool := year % 4 = 0 && (year % 100 ≠ 0 || year % 400 = 0)

def daysInMonth (year month : ℕ) : ℕ :=
  if month = 2 then if isLeap year then 29 else 28
  else if month ∈ [4, 6, 9, 11] then 30 else 31

namespace Python

def isValidUlid (t : Text) : Bool := anchored ulidBody t

/-- The ranges of the directives `%m`, `%d`, `%H`, `%M` and `%S`. -/
def directives (f : Fields) : Bool :=
  1 ≤ f.month && f.month ≤ 12 && 1 ≤ f.day && f.day ≤ 31 && f.hour ≤ 23 && f.minute ≤ 59 &&
    f.second ≤ 61

def datetime (f : Fields) : Bool :=
  1 ≤ f.year && f.day ≤ daysInMonth f.year f.month && f.second ≤ 59

/-- Whether `datetime.strptime(value, "%Y-%m-%dT%H:%M:%S.%fZ")` returns for a text of the pattern.
-/
def strptime (t : Text) : Bool := rfc3339MsBody t && directives (fieldsOf t) && datetime (fieldsOf t)

def isValidRfc3339Ms (t : Text) : Bool := anchored rfc3339MsBody t && strptime t

/-- The pair that `parse_schema_version` returns, if it returns. -/
def parsedVersion (t : Text) : Option (ℕ × ℕ) := (parseSchemaVersion t).toOption

end Python

namespace Typescript

def isValidUlid (units : Text) : Bool := ulidBody units

/-- `Date.parse` of a text of the pattern is no `NaN`: a date of the calendar and
a time of the day, which may end it as 24:00:00.000. -/
def dateParse (f : Fields) : Bool :=
  1 ≤ f.month && f.month ≤ 12 && 1 ≤ f.day && f.day ≤ daysInMonth f.year f.month &&
    f.minute ≤ 59 && f.second ≤ 59 &&
    (f.hour ≤ 23 || f.hour = 24 && f.minute = 0 && f.second = 0 && f.milli = 0)

def isValidRfc3339Ms (units : Text) : Bool := rfc3339MsBody units && dateParse (fieldsOf units)

/-- The double nearest to a natural number, ties to even; nothing for `Infinity`. -/
def toDouble (n : ℕ) : Option ℕ :=
  if n < 2 ^ 53 then some n
  else
    let unit := 2 ^ (Nat.log2 n - 52)
    let low := n / unit
    let rest := n % unit
    let rounded := if 2 * rest < unit ∨ 2 * rest = unit ∧ low % 2 = 0 then low else low + 1
    if rounded * unit < 2 ^ 1024 then some (rounded * unit) else none

def parseSchemaVersion (units : Text) : Option (Option ℕ × Option ℕ) :=
  (versionBody units).map fun (major, minor) =>
    (toDouble (digitsValue major), toDouble (digitsValue minor))

end Typescript

/-! The characters of the three patterns. -/

/-- Between `-` and the end of ASCII: no newline and no character beyond one code unit. -/
def Plain (t : Text) : Prop := ∀ p ∈ t, 45 ≤ p.val ∧ p.val < 0x80

theorem plain_append {a b : Text} (plainA : Plain a) (plainB : Plain b) : Plain (a ++ b) := by
  intro p mem
  rcases List.mem_append.mp mem with here | there
  · exact plainA p here
  · exact plainB p there

theorem plain_cons {p : CodePoint} {t : Text} (first : 45 ≤ p.val ∧ p.val < 0x80) (rest : Plain t) :
    Plain (p :: t) := by
  intro q mem
  rcases List.mem_cons.mp mem with rfl | later
  · exact first
  · exact rest q later

theorem between_iff {low high : Char} {p : CodePoint} :
    between low high p = true ↔ low.toNat ≤ p.val ∧ p.val ≤ high.toNat := by
  rw [between, Bool.and_eq_true, decide_eq_true_eq, decide_eq_true_eq]

theorem plain_of_between {low high : Char} {p : CodePoint} (within : between low high p = true)
    (bounds : 45 ≤ low.toNat ∧ high.toNat < 0x80) : 45 ≤ p.val ∧ p.val < 0x80 := by
  rw [between_iff] at within
  omega

theorem plain_digits {t : Text} (digits : t.all isDigit = true) : Plain t := by
  intro p mem
  exact plain_of_between (List.all_eq_true.mp digits p mem) (by decide)

theorem plain_ulid {t : Text} (matched : ulidBody t = true) : Plain t := by
  cases t with
  | nil => cases matched
  | cons first rest =>
    rw [ulidBody, Bool.and_eq_true, Bool.and_eq_true] at matched
    refine plain_cons (plain_of_between matched.1.1 (by decide)) fun p mem => ?_
    have letter := List.all_eq_true.mp matched.2 p mem
    simp only [isCrockford, isDigit, Bool.or_eq_true] at letter
    rcases letter with ((((within | within) | within) | within) | within) | within <;>
      exact plain_of_between within (by decide)

theorem digitsThen_eq_some {n : ℕ} {next : Char} {t rest : Text}
    (read : digitsThen n next t = some rest) :
    ∃ digits, t = digits ++ ofChar next :: rest ∧ digits.length = n ∧ digits.all isDigit = true := by
  unfold digitsThen at read
  split at read
  next conditions =>
    cases read
    simp only [Bool.and_eq_true, decide_eq_true_eq] at conditions
    obtain ⟨⟨length, digits⟩, head⟩ := conditions
    refine ⟨t.take n, ?_, length, digits⟩
    have split := List.take_append_drop n t
    cases form : t.drop n with
    | nil =>
      rw [form] at head
      cases head
    | cons p rest =>
      rw [form, List.head?_cons, Option.some.injEq] at head
      have later : t.drop (n + 1) = rest := by
        rw [← List.drop_drop, form]
        rfl
      rw [later, ← head, ← form, split]
  next => cases read

theorem plain_digitsThen {n : ℕ} {next : Char} {t rest : Text} (read : digitsThen n next t = some rest)
    (separator : 45 ≤ next.toNat ∧ next.toNat < 0x80) (later : Plain rest) : Plain t := by
  obtain ⟨digits, rfl, -, all⟩ := digitsThen_eq_some read
  exact plain_append (plain_digits all) (plain_cons separator later)

theorem plain_rfc3339Ms {t : Text} (matched : rfc3339MsBody t = true) : Plain t := by
  simp only [rfc3339MsBody, decide_eq_true_eq, Option.bind_eq_bind, Option.bind_eq_some_iff] at matched
  obtain ⟨a, readA, b, readB, c, readC, d, readD, e, readE, f, readF, readG⟩ := matched
  have last : Plain [] := fun p mem => nomatch mem
  have plainF := plain_digitsThen readG (by decide) last
  have plainE := plain_digitsThen readF (by decide) plainF
  have plainD := plain_digitsThen readE (by decide) plainE
  have plainC := plain_digitsThen readD (by decide) plainD
  have plainB := plain_digitsThen readC (by decide) plainC
  exact plain_digitsThen readA (by decide) (plain_digitsThen readB (by decide) plainB)

theorem plain_version {t : Text} {groups : Text × Text} (matched : versionBody t = some groups) :
    Plain t := by
  unfold versionBody at matched
  split at matched
  next major minor parts =>
    split at matched
    next conditions =>
      simp only [Bool.and_eq_true] at conditions
      have whole : [ofChar '.'].intercalate (t.splitOn (ofChar '.')) = t :=
        List.intercalate_splitOn (ofChar '.')
      rw [parts, List.intercalate_cons_cons, List.intercalate_singleton, List.append_assoc,
        List.singleton_append] at whole
      rw [← whole]
      exact plain_append (plain_digits conditions.1.2)
        (plain_cons (by decide) (plain_digits conditions.2))
    next => cases matched
  next => cases matched

/-! Plain texts are their own code units. -/

theorem utf16_eq_of_plain {t : Text} (plain : Plain t) : utf16 t = t := by
  induction t with
  | nil => rfl
  | cons p t ih =>
    have first := plain p List.mem_cons_self
    have unit : codeUnits p = [p] := by
      rw [codeUnits, if_pos (by omega)]
    rw [utf16, List.flatMap_cons, unit, List.singleton_append]
    rw [utf16] at ih
    rw [ih fun q mem => plain q (List.mem_cons_of_mem p mem)]

theorem plain_of_utf16 {t : Text} (plain : Plain (utf16 t)) : Plain t := by
  intro p mem
  by_cases basic : p.val < 0x10000
  · refine plain p (List.mem_flatMap.mpr ⟨p, mem, ?_⟩)
    rw [codeUnits, if_pos basic]
    exact List.mem_singleton_self p
  · have high := plain (Fin.ofNat _ (0xD800 + (p.val - 0x10000) / 0x400))
      (List.mem_flatMap.mpr ⟨p, mem, by rw [codeUnits, if_neg basic]; exact List.mem_cons_self⟩)
    rw [Fin.val_ofNat] at high
    have bound := p.isLt
    omega

theorem last_of_plain {t : Text} (plain : Plain t) : t.getLast? ≠ some (ofChar '\n') := by
  intro last
  have newline := plain _ (List.mem_of_getLast? last)
  exact absurd newline.1 (by decide)

theorem pattern_utf16 {β : Type} {pattern : Text → β} (refused : β)
    (plain : ∀ t, pattern t ≠ refused → Plain t) (t : Text) : pattern (utf16 t) = pattern t := by
  by_cases there : pattern (utf16 t) = refused
  · by_cases here : pattern t = refused
    · rw [there, here]
    · rw [utf16_eq_of_plain (plain t here)]
  · rw [utf16_eq_of_plain (plain_of_utf16 (plain _ there))]

theorem ulid_utf16 (t : Text) : ulidBody (utf16 t) = ulidBody t :=
  pattern_utf16 false (fun _ found => plain_ulid (Bool.not_eq_false _ ▸ found)) t

theorem version_utf16 (t : Text) : versionBody (utf16 t) = versionBody t := by
  refine pattern_utf16 none (fun t found => ?_) t
  obtain ⟨groups, matched⟩ := Option.ne_none_iff_exists'.mp found
  exact plain_version matched

theorem rfc3339Ms_utf16 (t : Text) :
    Typescript.isValidRfc3339Ms (utf16 t) = Typescript.isValidRfc3339Ms t := by
  refine pattern_utf16 false (fun t found => ?_) t
  rw [ne_eq, Bool.not_eq_false, Typescript.isValidRfc3339Ms, Bool.and_eq_true] at found
  exact plain_rfc3339Ms found.1

def newlineAfter (body : Text → Bool) (t : Text) : Bool :=
  t.getLast? = some (ofChar '\n') && body t.dropLast

/-- Times that `Date.parse` takes and `datetime` does not: the year 0000, and the
end of a day as 24:00:00.000. -/
def beyondDatetime (t : Text) : Bool :=
  rfc3339MsBody t && Typescript.dateParse (fieldsOf t) &&
    ((fieldsOf t).year = 0 || (fieldsOf t).hour = 24)

def readable (groups : Text × Text) : Bool :=
  groups.1.length ≤ maxStrDigits && groups.2.length ≤ maxStrDigits

structure Agree (t : Text) : Prop where
  ulid : Python.isValidUlid t = Typescript.isValidUlid (utf16 t)
  rfc3339Ms : Python.isValidRfc3339Ms t = Typescript.isValidRfc3339Ms (utf16 t)
  accepted : (Python.parsedVersion t).isSome = (Typescript.parseSchemaVersion (utf16 t)).isSome
  parsed : ∀ major minor, Python.parsedVersion t = some (major, minor) → major < 2 ^ 53 →
    minor < 2 ^ 53 → ∀ numbers, Typescript.parseSchemaVersion (utf16 t) = some numbers →
    numbers = (some major, some minor)
  exact : Python.isValidUlid t = true ↔ t.length = 26 ∧ t.head?.any (between '0' '7') = true ∧
    t.tail.all isCrockford = true

structure Agreeable (t : Text) : Prop where
  ulid : newlineAfter ulidBody t = false
  rfc3339Ms : beyondDatetime t = false
  version : newlineAfter (fun t => (versionBody t).any readable) t = false
  digits : (versionBody t).all readable = true

theorem anchored_eq (body : Text → Bool) (t : Text) :
    anchored body t = (body t || newlineAfter body t) := rfl

/-- With nothing but plain texts in a pattern, `$` and the end of the text part
exactly at a newline behind the pattern. -/
theorem anchored_eq_iff {body : Text → Bool} (plain : ∀ t, body t = true → Plain t) (t : Text) :
    anchored body t = body t ↔ newlineAfter body t = false := by
  rw [anchored_eq]
  cases here : body t with
  | false => simp
  | true =>
    have inner : newlineAfter body t = false := by
      rw [newlineAfter, Bool.and_eq_false_iff, decide_eq_false_iff_not]
      exact .inl (last_of_plain (plain t here))
    simp [inner]

theorem ulid_agree_iff (t : Text) :
    Python.isValidUlid t = Typescript.isValidUlid (utf16 t) ↔ newlineAfter ulidBody t = false := by
  rw [Typescript.isValidUlid, ulid_utf16, Python.isValidUlid]
  exact anchored_eq_iff (fun _ => plain_ulid) t

theorem ulidBody_iff (t : Text) : ulidBody t = true ↔
    t.length = 26 ∧ t.head?.any (between '0' '7') = true ∧ t.tail.all isCrockford = true := by
  cases t with
  | nil => simp [ulidBody]
  | cons first rest =>
    rw [ulidBody, Bool.and_eq_true, Bool.and_eq_true, decide_eq_true_eq, List.length_cons,
      List.head?_cons, Option.any_some, List.tail_cons]
    constructor
    · rintro ⟨⟨low, length⟩, letters⟩
      exact ⟨by omega, low, letters⟩
    · rintro ⟨length, low, letters⟩
      exact ⟨⟨low, by omega⟩, letters⟩

theorem daysInMonth_le (year month : ℕ) : daysInMonth year month ≤ 31 := by
  unfold daysInMonth
  split
  · split <;> decide
  · split <;> decide

/-- `datetime` takes the times that `Date.parse` takes, but for the year 0000 and
the hour 24. -/
theorem datetime_eq (f : Fields) : (Python.directives f && Python.datetime f) =
    (Typescript.dateParse f && !(f.year = 0 || f.hour = 24)) := by
  have days := daysInMonth_le f.year f.month
  rw [Bool.eq_iff_iff]
  simp only [Python.directives, Python.datetime, Typescript.dateParse, Bool.and_eq_true,
    Bool.or_eq_true, Bool.not_eq_true', Bool.or_eq_false_iff, decide_eq_true_eq,
    decide_eq_false_iff_not]
  omega

theorem rfc3339Ms_agree_iff (t : Text) :
    Python.isValidRfc3339Ms t = Typescript.isValidRfc3339Ms (utf16 t) ↔ beyondDatetime t = false := by
  rw [rfc3339Ms_utf16, Typescript.isValidRfc3339Ms, Python.isValidRfc3339Ms, Python.strptime,
    beyondDatetime, anchored_eq]
  cases here : rfc3339MsBody t with
  | false => simp
  | true =>
    rw [Bool.true_or, Bool.true_and, Bool.true_and, Bool.true_and, datetime_eq]
    cases Typescript.dateParse (fieldsOf t) with
    | false => simp
    | true => cases decide ((fieldsOf t).year = 0) || decide ((fieldsOf t).hour = 24) <;> simp

theorem parsedVersion_eq (t : Text) : Python.parsedVersion t =
    ((versionGroups t).filter readable).map fun groups => (digitsValue groups.1, digitsValue groups.2) := by
  rw [Python.parsedVersion]
  cases groups : versionGroups t with
  | none =>
    rw [parseSchemaVersion_of_none groups]
    rfl
  | some pair =>
    obtain ⟨major, minor⟩ := pair
    rw [parseSchemaVersion_of_some groups]
    by_cases short : major.length ≤ maxStrDigits ∧ minor.length ≤ maxStrDigits
    · rw [if_pos short, Option.filter_some, readable, decide_eq_true short.1, decide_eq_true short.2]
      rfl
    · have long : readable (major, minor) = false := by
        rw [readable, Bool.and_eq_false_iff, decide_eq_false_iff_not, decide_eq_false_iff_not]
        exact not_and_or.mp short
      rw [if_neg short, Option.filter_some, long]
      rfl

theorem versionGroups_of_some {t : Text} {groups : Text × Text} (matched : versionBody t = some groups) :
    versionGroups t = some groups := by
  rw [versionGroups, matched]
  rfl

theorem versionGroups_of_none {t : Text} (matched : versionBody t = none) :
    versionGroups t = if t.getLast? = some (ofChar '\n') then versionBody t.dropLast else none := by
  rw [versionGroups, matched]
  rfl

theorem version_agree_iff (t : Text) :
    (Python.parsedVersion t).isSome = (Typescript.parseSchemaVersion (utf16 t)).isSome ↔
      newlineAfter (fun t => (versionBody t).any readable) t = false ∧
        (versionBody t).all readable = true := by
  rw [Typescript.parseSchemaVersion, version_utf16, parsedVersion_eq, Option.isSome_map,
    Option.isSome_map]
  cases matched : versionBody t with
  | some groups =>
    have inner : newlineAfter (fun t => (versionBody t).any readable) t = false := by
      rw [newlineAfter, Bool.and_eq_false_iff, decide_eq_false_iff_not]
      exact .inl (last_of_plain (plain_version matched))
    rw [versionGroups_of_some matched, Option.filter_some, inner, Option.all_some]
    cases readable groups <;> simp
  | none =>
    rw [versionGroups_of_none matched, newlineAfter]
    by_cases last : t.getLast? = some (ofChar '\n')
    · rw [if_pos last, decide_eq_true last]
      cases inner : versionBody t.dropLast with
      | none => simp
      | some groups =>
        rw [Option.filter_some, Option.any_some]
        cases readable groups <;> simp
    · rw [if_neg last, decide_eq_false last]
      simp

theorem parsed_agree (t : Text) : ∀ major minor, Python.parsedVersion t = some (major, minor) →
    major < 2 ^ 53 → minor < 2 ^ 53 →
    ∀ numbers, Typescript.parseSchemaVersion (utf16 t) = some numbers →
      numbers = (some major, some minor) := by
  intro major minor read boundMajor boundMinor numbers parsed
  rw [Typescript.parseSchemaVersion, version_utf16] at parsed
  obtain ⟨groups, matched, rfl⟩ := Option.map_eq_some_iff.mp parsed
  rw [parsedVersion_eq, versionGroups_of_some matched] at read
  obtain ⟨groups', kept, values⟩ := Option.map_eq_some_iff.mp read
  have same := (Option.filter_eq_some_iff.mp kept).1
  rw [Option.some.injEq] at same
  rw [← same, Prod.mk.injEq] at values
  rw [← values.1] at boundMajor ⊢
  rw [← values.2] at boundMinor ⊢
  simp only [Typescript.toDouble, if_pos boundMajor, if_pos boundMinor]

/-- Python and TypeScript say the same of a text exactly if it is no identifier
or readable version with a newline behind it, no time beyond `datetime`, and no
version with more digits than `int` reads. -/
theorem agree_iff (t : Text) : Agree t ↔ Agreeable t := by
  constructor
  · intro agree
    have version := (version_agree_iff t).mp agree.accepted
    exact ⟨(ulid_agree_iff t).mp agree.ulid, (rfc3339Ms_agree_iff t).mp agree.rfc3339Ms, version.1,
      version.2⟩
  · intro agreeable
    refine ⟨(ulid_agree_iff t).mpr agreeable.ulid, (rfc3339Ms_agree_iff t).mpr agreeable.rfc3339Ms,
      (version_agree_iff t).mpr ⟨agreeable.version, agreeable.digits⟩, parsed_agree t, ?_⟩
    have same := (anchored_eq_iff (fun _ => plain_ulid) t).mpr agreeable.ulid
    rw [Python.isValidUlid, same, ulidBody_iff]

def ulidLine : Text := text "01ARZ3NDEKTSV4RRFFQ69G5FAV\n"

theorem ulidLine_disagree : Python.isValidUlid ulidLine = true ∧
    Typescript.isValidUlid (utf16 ulidLine) = false ∧ ulidLine.length = 27 ∧ ¬ Agree ulidLine := by
  refine ⟨by decide, by decide, by decide, fun agree => ?_⟩
  exact absurd agree.ulid (by decide)

end Mirage.ContractDialects
