import Mirage.ContractDialects
import Mathlib.Tactic.Ring

/-! Timestamps with milliseconds. -/

namespace Mirage.Timestamps
open PythonText ContractEnvelope ContractDialects

/-! The calendar of `datetime`. -/

/-- `_days_before_year`. -/
def daysBeforeYear (year : ℕ) : ℕ :=
  let y := year - 1
  y * 365 + y / 4 - y / 100 + y / 400

/-- `_days_before_month`, for a leap year or not. -/
def daysBeforeMonth (leap : Bool) (month : ℕ) : ℕ :=
  [0, 0, 31, 59, 90, 120, 151, 181, 212, 243, 273, 304, 334].getD month 0 + if 2 < month && leap then 1 else 0

/-- `_ymd2ord`. -/
def ymd2ord (year month day : ℕ) : ℕ :=
  daysBeforeYear year + daysBeforeMonth (isLeap year) month + day

/-- The month and the day of the day `n`, counted from zero, of a year: an estimate of
the month, and the month before it where that is too late. -/
def monthDay (leap : Bool) (n : ℕ) : ℕ × ℕ :=
  let month := (n + 50) / 32
  let preceding := daysBeforeMonth leap month
  if preceding > n then (month - 1, n - daysBeforeMonth leap (month - 1) + 1) else (month, n - preceding + 1)

/-- `_ord2ymd`. -/
def ord2ymd (ordinal : ℕ) : ℕ × ℕ × ℕ :=
  let n := ordinal - 1
  let n400 := n / 146097
  let n := n % 146097
  let n100 := n / 36524
  let n := n % 36524
  let n4 := n / 1461
  let n := n % 1461
  let n1 := n / 365
  let year := n400 * 400 + 1 + n100 * 100 + n4 * 4 + n1
  if n1 = 4 ∨ n100 = 4 then (year - 1, 12, 31)
  else (year, monthDay (n1 = 3 && (n4 ≠ 24 || n100 = 3)) (n % 365))

/-- The fields of a `datetime`. -/
structure Moment where
  year : ℕ
  month : ℕ
  day : ℕ
  hour : ℕ
  minute : ℕ
  second : ℕ
  microsecond : ℕ
  deriving DecidableEq

/-- A date of the calendar. -/
def ValidDate (year month day : ℕ) : Prop :=
  1 ≤ year ∧ year ≤ 9999 ∧ 1 ≤ month ∧ month ≤ 12 ∧ 1 ≤ day ∧ day ≤ daysInMonth year month

structure Moment.Valid (t : Moment) : Prop where
  date : ValidDate t.year t.month t.day
  hour : t.hour < 24
  minute : t.minute < 60
  second : t.second < 60
  microsecond : t.microsecond < 1000000

def microsPerDay : ℕ := 86400000000

def Moment.micros (t : Moment) : ℕ :=
  ymd2ord t.year t.month t.day * microsPerDay +
    (((t.hour * 60 + t.minute) * 60 + t.second) * 1000000 + t.microsecond)

/-- `replace(microsecond=microsecond // 1000 * 1000)`. -/
def Moment.truncated (t : Moment) : Moment := { t with microsecond := t.microsecond / 1000 * 1000 }

/-- A `datetime`; its offset from UTC in microseconds when it is aware. -/
structure Datetime where
  fields : Moment
  offset : Option ℤ
  valid : fields.Valid
  within : ∀ x ∈ offset, -86400000000 < x ∧ x < 86400000000

inductive Failure where
  | naive
  | overflow
  | notCanonical (value : Text)
  | unparsed (value : Text)
  deriving DecidableEq

def ofMicros (n : ℕ) : Moment :=
  let date := ord2ymd (n / microsPerDay)
  ⟨date.1, date.2.1, date.2.2, n / 3600000000 % 24, n / 60000000 % 60, n / 1000000 % 60, n % 1000000⟩

/-- `astimezone(UTC)`; the ordinals of `datetime` end at 3652059. -/
def astimezoneUtc (t : Moment) (offset : ℤ) : Except Failure Moment :=
  let total : ℤ := t.micros - offset
  if 1 ≤ total / microsPerDay ∧ total / microsPerDay ≤ 3652059 then .ok (ofMicros total.toNat)
  else .error .overflow

def digit (n : ℕ) : CodePoint := ⟨48 + n % 10, by omega⟩

/-- `n` in `width` digits, when it has no more. -/
def padded : ℕ → ℕ → Text
  | 0, _ => []
  | width + 1, n => digit (n / 10 ^ width) :: padded width (n % 10 ^ width)

/-- `%Y` of `strftime` does not pad. -/
def yearText (year : ℕ) : Text :=
  padded (if year < 10 then 1 else if year < 100 then 2 else if year < 1000 then 3 else 4) year

def fieldText (width n : ℕ) (next : Char) : Text := padded width n ++ [ofChar next]

/-- `strftime("%Y-%m-%dT%H:%M:%S.") + f"{microsecond // 1000:03d}Z"`. -/
def format (t : Moment) : Text :=
  yearText t.year ++ ofChar '-' :: padded 2 t.month ++ ofChar '-' :: padded 2 t.day ++
    ofChar 'T' :: padded 2 t.hour ++ ofChar ':' :: padded 2 t.minute ++
    ofChar ':' :: padded 2 t.second ++ ofChar '.' :: padded 3 (t.microsecond / 1000) ++ [ofChar 'Z']

def toRfc3339Ms (t : Datetime) : Except Failure Text :=
  match t.offset with
  | none => .error .naive
  | some offset => (astimezoneUtc t.fields offset).map format

/-- The moment in UTC. -/
def parseRfc3339Ms (value : Text) : Except Failure Moment :=
  if !anchored rfc3339MsBody value then .error (.notCanonical value)
  else if Python.strptime value then
    let f := fieldsOf value
    .ok ⟨f.year, f.month, f.day, f.hour, f.minute, f.second, f.milli * 1000⟩
  else .error (.unparsed value)

theorem isLeap_iff (a b c d : ℕ) (hb : b ≤ 3) (hc : c ≤ 24) (hd : d ≤ 3) :
    isLeap (a * 400 + 1 + b * 100 + c * 4 + d) = (d = 3 && (c ≠ 24 || b = 3) : Bool) := by
  rw [isLeap, Bool.eq_iff_iff]
  simp only [Bool.and_eq_true, Bool.or_eq_true, decide_eq_true_eq]
  omega

theorem daysBeforeYear_eq (a b c d : ℕ) (hb : b ≤ 3) (hc : c ≤ 24) (hd : d ≤ 3) :
    daysBeforeYear (a * 400 + 1 + b * 100 + c * 4 + d) = a * 146097 + b * 36524 + c * 1461 + d * 365 := by
  have years : a * 400 + 1 + b * 100 + c * 4 + d - 1 = a * 400 + b * 100 + c * 4 + d := by omega
  have fours : (a * 400 + b * 100 + c * 4 + d) / 4 = a * 100 + b * 25 + c := by omega
  have hundreds : (a * 400 + b * 100 + c * 4 + d) / 100 = a * 4 + b := by omega
  have eras : (a * 400 + b * 100 + c * 4 + d) / 400 = a := by omega
  simp only [daysBeforeYear, years, fours, hundreds, eras]
  omega

theorem daysBeforeYear_succ (year : ℕ) (positive : 1 ≤ year) :
    daysBeforeYear (year + 1) = daysBeforeYear year + if isLeap year then 366 else 365 := by
  have fours : year / 4 = (year - 1) / 4 + if year % 4 = 0 then 1 else 0 := by split <;> omega
  have hundreds : year / 100 = (year - 1) / 100 + if year % 100 = 0 then 1 else 0 := by split <;> omega
  have eras : year / 400 = (year - 1) / 400 + if year % 400 = 0 then 1 else 0 := by split <;> omega
  have order : (year - 1) / 100 ≤ (year - 1) / 4 := by omega
  have century : year % 100 = 0 → year % 4 = 0 := by omega
  have era : year % 400 = 0 → year % 100 = 0 := by omega
  simp only [daysBeforeYear, Nat.add_sub_cancel, fours, hundreds, eras]
  by_cases four : year % 4 = 0
  · by_cases hundred : year % 100 = 0
    · by_cases fourth : year % 400 = 0
      · simp only [isLeap, four, hundred, fourth, if_true]
        simp
        omega
      · simp [isLeap, four, hundred, fourth]
        omega
    · have fourth : ¬ year % 400 = 0 := fun h => hundred (era h)
      simp [isLeap, four, hundred, fourth]
      omega
  · have hundred : ¬ year % 100 = 0 := fun h => four (century h)
    have fourth : ¬ year % 400 = 0 := fun h => hundred (era h)
    simp [isLeap, four, hundred, fourth]
    omega

theorem daysBeforeYear_mono {first second : ℕ} (le : first ≤ second) :
    daysBeforeYear first ≤ daysBeforeYear second := by
  induction le with
  | refl => exact le_refl _
  | @step second le ih =>
    rcases Nat.eq_zero_or_pos second with rfl | positive
    · exact ih
    · rw [daysBeforeYear_succ second positive]
      omega

theorem daysBeforeMonth_succ (year month : ℕ) (known : 1 ≤ month ∧ month ≤ 11) :
    daysBeforeMonth (isLeap year) month + daysInMonth year month =
      daysBeforeMonth (isLeap year) (month + 1) := by
  obtain ⟨low, high⟩ := known
  unfold daysInMonth
  generalize isLeap year = leap
  have all : ∀ leap : Bool, ∀ month < 12, 1 ≤ month → daysBeforeMonth leap month +
      (if month = 2 then if leap then 29 else 28 else if month ∈ [4, 6, 9, 11] then 30 else 31) =
        daysBeforeMonth leap (month + 1) := by
    decide
  exact all leap month (by omega) low

theorem daysBeforeMonth_mono (leap : Bool) {first second : ℕ} (le : first ≤ second) (known : second ≤ 12) :
    daysBeforeMonth leap first ≤ daysBeforeMonth leap second := by
  have all : ∀ leap : Bool, ∀ second ≤ 12, ∀ first ≤ second,
      daysBeforeMonth leap first ≤ daysBeforeMonth leap second := by decide
  exact all leap second known first le

theorem december (year : ℕ) :
    daysBeforeMonth (isLeap year) 12 + daysInMonth year 12 = if isLeap year then 366 else 365 := by
  unfold daysInMonth
  cases isLeap year <;> rfl

theorem ymd2ord_bounds {year month day : ℕ} (valid : ValidDate year month day) :
    daysBeforeYear year < ymd2ord year month day ∧ ymd2ord year month day ≤ daysBeforeYear (year + 1) := by
  obtain ⟨positive, -, low, high, first, last⟩ := valid
  rw [daysBeforeYear_succ year positive, ← december, ymd2ord]
  refine ⟨by omega, ?_⟩
  rcases Nat.lt_or_ge month 12 with earlier | same
  · have next := daysBeforeMonth_succ year month ⟨low, by omega⟩
    have later := daysBeforeMonth_mono (isLeap year) (show month + 1 ≤ 12 by omega) (le_refl 12)
    omega
  · obtain rfl : month = 12 := by omega
    omega

theorem ymd2ord_lt {year month day year' month' day' : ℕ} (valid : ValidDate year month day)
    (valid' : ValidDate year' month' day')
    (before : year < year' ∨ year = year' ∧ (month < month' ∨ month = month' ∧ day < day')) :
    ymd2ord year month day < ymd2ord year' month' day' := by
  rcases before with earlier | ⟨rfl, earlier | ⟨rfl, earlier⟩⟩
  · calc ymd2ord year month day ≤ daysBeforeYear (year + 1) := (ymd2ord_bounds valid).2
      _ ≤ daysBeforeYear year' := daysBeforeYear_mono earlier
      _ < ymd2ord year' month' day' := (ymd2ord_bounds valid').1
  · obtain ⟨-, -, low, -, -, last⟩ := valid
    obtain ⟨-, -, -, high, first, -⟩ := valid'
    have next := daysBeforeMonth_succ year month ⟨low, by omega⟩
    have later := daysBeforeMonth_mono (isLeap year) (show month + 1 ≤ month' from earlier) high
    simp only [ymd2ord]
    omega
  · simp only [ymd2ord]
    omega

/-- What `monthDay` gives for every day of a year. -/
theorem monthDay_spec (year : ℕ) {n : ℕ} (short : n < if isLeap year then 366 else 365) :
    1 ≤ (monthDay (isLeap year) n).1 ∧ (monthDay (isLeap year) n).1 ≤ 12 ∧
    1 ≤ (monthDay (isLeap year) n).2 ∧
    (monthDay (isLeap year) n).2 ≤ daysInMonth year (monthDay (isLeap year) n).1 ∧
    daysBeforeMonth (isLeap year) (monthDay (isLeap year) n).1 + (monthDay (isLeap year) n).2 = n + 1 := by
  have all : ∀ leap : Bool, ∀ n < if leap then 366 else 365,
      1 ≤ (monthDay leap n).1 ∧ (monthDay leap n).1 ≤ 12 ∧ 1 ≤ (monthDay leap n).2 ∧
      (monthDay leap n).2 ≤ (if (monthDay leap n).1 = 2 then if leap then 29 else 28
        else if (monthDay leap n).1 ∈ [4, 6, 9, 11] then 30 else 31) ∧
      daysBeforeMonth leap (monthDay leap n).1 + (monthDay leap n).2 = n + 1 := by
    decide +kernel
  exact all (isLeap year) n short

theorem ord2ymd_spec {ordinal : ℕ} (known : 1 ≤ ordinal ∧ ordinal ≤ 3652059) :
    ValidDate (ord2ymd ordinal).1 (ord2ymd ordinal).2.1 (ord2ymd ordinal).2.2 ∧
    ymd2ord (ord2ymd ordinal).1 (ord2ymd ordinal).2.1 (ord2ymd ordinal).2.2 = ordinal := by
  obtain ⟨low, high⟩ := known
  obtain ⟨a, r, split, short⟩ : ∃ a r, ordinal - 1 = a * 146097 + r ∧ r < 146097 :=
    ⟨(ordinal - 1) / 146097, (ordinal - 1) % 146097, by omega, by omega⟩
  obtain ⟨b, s, splitR, shortS⟩ : ∃ b s, r = b * 36524 + s ∧ s < 36524 :=
    ⟨r / 36524, r % 36524, by omega, by omega⟩
  obtain ⟨c, u, splitS, shortU⟩ : ∃ c u, s = c * 1461 + u ∧ u < 1461 :=
    ⟨s / 1461, s % 1461, by omega, by omega⟩
  obtain ⟨d, v, splitU, shortV⟩ : ∃ d v, u = d * 365 + v ∧ v < 365 := ⟨u / 365, u % 365, by omega, by omega⟩
  have shape : ord2ymd ordinal = if d = 4 ∨ b = 4 then (a * 400 + 1 + b * 100 + c * 4 + d - 1, 12, 31)
      else (a * 400 + 1 + b * 100 + c * 4 + d, monthDay (d = 3 && (c ≠ 24 || b = 3)) v) := by
    have a' : (ordinal - 1) / 146097 = a := by omega
    have r' : (ordinal - 1) % 146097 = r := by omega
    have b' : r / 36524 = b := by omega
    have s' : r % 36524 = s := by omega
    have c' : s / 1461 = c := by omega
    have u' : s % 1461 = u := by omega
    have d' : u / 365 = d := by omega
    have v' : u % 365 = v := by omega
    simp only [ord2ymd, a', r', b', s', c', u', d', v']
  rw [shape]
  by_cases last : d = 4 ∨ b = 4
  · rw [if_pos last]
    -- the last day of a leap year: of the four-year or of the four-century cycle
    obtain ⟨b', c', year, place, hb, hc, full⟩ : ∃ b' c',
        a * 400 + 1 + b * 100 + c * 4 + d - 1 = a * 400 + 1 + b' * 100 + c' * 4 + 3 ∧
        ordinal = a * 146097 + b' * 36524 + c' * 1461 + 1461 ∧ b' ≤ 3 ∧ c' ≤ 24 ∧ (c' ≠ 24 ∨ b' = 3) := by
      rcases last with four | century
      · exact ⟨b, c, by omega, by omega, by omega, by omega, by omega⟩
      · exact ⟨3, 24, by omega, by omega, by omega, by omega, by omega⟩
    have leap := isLeap_iff a b' c' 3 hb hc (le_refl 3)
    have days := daysBeforeYear_eq a b' c' 3 hb hc (le_refl 3)
    have before : daysBeforeMonth true 12 = 335 := rfl
    dsimp only
    rw [year]
    refine ⟨⟨by omega, by omega, by decide, by decide, by decide, ?_⟩, ?_⟩
    · simp [daysInMonth]
    · rw [ymd2ord, days]
      have known : isLeap (a * 400 + 1 + b' * 100 + c' * 4 + 3) = true := by
        rw [leap]
        rcases full with early | late
        · simp [early]
        · simp [late]
      rw [known, before]
      omega
  · rw [if_neg last]
    have leap := isLeap_iff a b c d (by omega) (by omega) (by omega)
    have days := daysBeforeYear_eq a b c d (by omega) (by omega) (by omega)
    have bound : v < if isLeap (a * 400 + 1 + b * 100 + c * 4 + d) then 366 else 365 := by split <;> omega
    obtain ⟨monthLow, monthHigh, dayLow, dayHigh, sum⟩ := monthDay_spec _ bound
    rw [← leap]
    refine ⟨⟨by dsimp only; omega, by dsimp only; omega, monthLow, monthHigh, dayLow, dayHigh⟩, ?_⟩
    rw [ymd2ord, Nat.add_assoc, sum, days]
    omega

theorem ofMicros_spec {n : ℕ} (low : 1 ≤ n / microsPerDay) (high : n / microsPerDay ≤ 3652059) :
    (ofMicros n).Valid ∧ (ofMicros n).micros = n := by
  obtain ⟨date, ordinal⟩ := ord2ymd_spec ⟨low, high⟩
  refine ⟨⟨date, ?_, ?_, ?_, ?_⟩, ?_⟩
  · exact Nat.mod_lt _ (by decide)
  · exact Nat.mod_lt _ (by decide)
  · exact Nat.mod_lt _ (by decide)
  · exact Nat.mod_lt _ (by decide)
  · simp only [Moment.micros, ofMicros]
    rw [ordinal]
    simp only [microsPerDay]
    omega

theorem astimezoneUtc_ok {t u : Moment} {offset : ℤ} (converted : astimezoneUtc t offset = .ok u) :
    u.Valid ∧ (u.micros : ℤ) = t.micros - offset := by
  simp only [astimezoneUtc] at converted
  split at converted
  next within =>
    cases converted
    obtain ⟨low, high⟩ := within
    simp only [microsPerDay] at low high
    obtain ⟨n, total⟩ := Int.eq_ofNat_of_zero_le (show 0 ≤ (t.micros : ℤ) - offset by omega)
    rw [total] at low high ⊢
    obtain ⟨valid, kept⟩ := ofMicros_spec (n := n) (by simp only [microsPerDay]; omega)
      (by simp only [microsPerDay]; omega)
    exact ⟨valid, by rw [Int.toNat_natCast, kept]⟩
  next => cases converted

theorem length_padded (width n : ℕ) : (padded width n).length = width := by
  induction width generalizing n with
  | zero => rfl
  | succ width ih => rw [padded, List.length_cons, ih]

theorem digit_lt {m n : ℕ} (hm : m < 10) (hn : n < 10) : digit m < digit n ↔ m < n := by
  rw [Fin.lt_def]
  simp only [digit]
  omega

/-- Two numbers of one width, each with a text behind it, stand in the order of the
numbers and then of the texts. -/
theorem padded_lt {width m n : ℕ} {s t : Text} (hm : m < 10 ^ width) (hn : n < 10 ^ width) :
    padded width m ++ s < padded width n ++ t ↔ m < n ∨ m = n ∧ s < t := by
  induction width generalizing m n with
  | zero =>
    obtain rfl : m = 0 := by omega
    obtain rfl : n = 0 := by omega
    simp [padded]
  | succ width ih =>
    have power : 0 < 10 ^ width := Nat.pow_pos (by decide)
    rw [pow_succ] at hm hn
    have highM : m / 10 ^ width < 10 := Nat.div_lt_of_lt_mul hm
    have highN : n / 10 ^ width < 10 := Nat.div_lt_of_lt_mul hn
    have splitM := Nat.div_add_mod m (10 ^ width)
    have splitN := Nat.div_add_mod n (10 ^ width)
    have less : m / 10 ^ width < n / 10 ^ width → m < n := Nat.lt_of_div_lt_div
    have more : n / 10 ^ width < m / 10 ^ width → n < m := Nat.lt_of_div_lt_div
    rw [padded, padded, List.cons_append, List.cons_append, List.cons_lt_cons_iff,
      ih (Nat.mod_lt m power) (Nat.mod_lt n power)]
    generalize m / 10 ^ width = high at *
    generalize n / 10 ^ width = high' at *
    generalize m % 10 ^ width = low at *
    generalize n % 10 ^ width = low' at *
    have same : digit high = digit high' ↔ high = high' := by
      rw [Fin.ext_iff]
      simp only [digit]
      omega
    rw [digit_lt highM highN, same]
    rcases Nat.lt_trichotomy high high' with first | rfl | first
    · simp [first, less first]
    · simp only [lt_irrefl, false_or, true_and]
      constructor
      · rintro (less | ⟨low, rest⟩)
        · exact Or.inl (by omega)
        · exact Or.inr ⟨by omega, rest⟩
      · rintro (less | ⟨low, rest⟩)
        · exact Or.inl (by omega)
        · exact Or.inr ⟨by omega, rest⟩
    · have gt := more first
      constructor
      · rintro (less | ⟨equal, -⟩) <;> omega
      · rintro (less | ⟨equal, -⟩) <;> omega

theorem mark_lt {c : Char} {s t : Text} : ofChar c :: s < ofChar c :: t ↔ s < t := by
  rw [List.cons_lt_cons_iff]
  simp

theorem format_eq {t : Moment} (year : 1000 ≤ t.year) :
    format t = padded 4 t.year ++ ofChar '-' :: (padded 2 t.month ++ ofChar '-' :: (padded 2 t.day ++
      ofChar 'T' :: (padded 2 t.hour ++ ofChar ':' :: (padded 2 t.minute ++
      ofChar ':' :: (padded 2 t.second ++ ofChar '.' :: (padded 3 (t.microsecond / 1000) ++ [ofChar 'Z'])))))) := by
  rw [format, yearText, if_neg (by omega), if_neg (by omega), if_neg (by omega)]
  simp only [List.append_assoc, List.cons_append]

theorem Moment.Valid.day_le {t : Moment} (valid : t.Valid) : t.day ≤ 31 := by
  have last := valid.date.2.2.2.2.2
  unfold daysInMonth at last
  split at last
  · split at last <;> omega
  · split at last <;> omega

theorem ordinal_cases {u v : Moment} (validU : u.Valid) (validV : v.Valid) :
    (u.year < v.year ∨ u.year = v.year ∧ (u.month < v.month ∨ u.month = v.month ∧ u.day < v.day)) ∧
      ymd2ord u.year u.month u.day < ymd2ord v.year v.month v.day ∨
    (u.year = v.year ∧ u.month = v.month ∧ u.day = v.day) ∧
      ymd2ord u.year u.month u.day = ymd2ord v.year v.month v.day ∨
    (v.year < u.year ∨ v.year = u.year ∧ (v.month < u.month ∨ v.month = u.month ∧ v.day < u.day)) ∧
      ymd2ord v.year v.month v.day < ymd2ord u.year u.month u.day := by
  by_cases less : u.year < v.year ∨ u.year = v.year ∧ (u.month < v.month ∨ u.month = v.month ∧ u.day < v.day)
  · exact Or.inl ⟨less, ymd2ord_lt validU.date validV.date less⟩
  · by_cases more : v.year < u.year ∨ v.year = u.year ∧ (v.month < u.month ∨ v.month = u.month ∧ v.day < u.day)
    · exact Or.inr (Or.inr ⟨more, ymd2ord_lt validV.date validU.date more⟩)
    · have same : u.year = v.year ∧ u.month = v.month ∧ u.day = v.day := by omega
      exact Or.inr (Or.inl ⟨same, by rw [same.1, same.2.1, same.2.2]⟩)

theorem Moment.millis (t : Moment) : t.micros / 1000 =
    (((ymd2ord t.year t.month t.day * 24 + t.hour) * 60 + t.minute) * 60 + t.second) * 1000 +
      t.microsecond / 1000 := by
  simp only [Moment.micros, microsPerDay]
  omega

theorem format_lt {u v : Moment} (validU : u.Valid) (validV : v.Valid) (yearU : 1000 ≤ u.year)
    (yearV : 1000 ≤ v.year) : format u < format v ↔ u.micros / 1000 < v.micros / 1000 := by
  have dayU := validU.day_le
  have dayV := validV.day_le
  have dates := ordinal_cases validU validV
  obtain ⟨⟨-, -, -, -, -, -⟩, hourU, minuteU, secondU, microsU⟩ := id validU
  obtain ⟨⟨-, -, -, -, -, -⟩, hourV, minuteV, secondV, microsV⟩ := id validV
  have boundsU := validU.date
  have boundsV := validV.date
  simp only [ValidDate] at boundsU boundsV
  rw [Moment.millis, Moment.millis, format_eq yearU, format_eq yearV, padded_lt (by omega) (by omega), mark_lt,
    padded_lt (by omega) (by omega), mark_lt, padded_lt (by omega) (by omega), mark_lt,
    padded_lt (by omega) (by omega), mark_lt, padded_lt (by omega) (by omega), mark_lt,
    padded_lt (by omega) (by omega), mark_lt, padded_lt (by omega) (by omega)]
  simp only [lt_irrefl, and_false, or_false]
  generalize ymd2ord u.year u.month u.day = first at *
  generalize ymd2ord v.year v.month v.day = second at *
  rcases dates with ⟨before, less⟩ | ⟨⟨year, month, day⟩, same⟩ | ⟨before, more⟩
  · omega
  · simp only [year, month, day, lt_irrefl, true_and, false_or]
    omega
  · omega

theorem isDigit_digit (n : ℕ) : isDigit (digit n) = true := by
  rw [isDigit, between_iff]
  simp only [digit]
  exact ⟨Nat.le_add_right 48 _, by have := Nat.mod_lt n (show 0 < 10 by decide); change 48 + n % 10 ≤ 57; omega⟩

theorem digitsThen_padded {width n : ℕ} {next : Char} (rest : Text) :
    digitsThen width next (padded width n ++ ofChar next :: rest) = some rest := by
  have whole : (padded width n ++ ofChar next :: rest).take width = padded width n := by
    rw [List.take_append_of_le_length (length_padded ..).ge, List.take_of_length_le (length_padded ..).le]
  have behind : (padded width n ++ ofChar next :: rest).drop width = ofChar next :: rest :=
    List.drop_left' (length_padded ..)
  have beyond : (padded width n ++ ofChar next :: rest).drop (width + 1) = rest := by
    rw [← List.drop_drop, behind, List.drop_one, List.tail_cons]
  have digits : (padded width n).all isDigit = true := by
    induction width generalizing n with
    | zero => rfl
    | succ width ih =>
      rw [padded, List.all_cons, isDigit_digit, Bool.true_and]
      exact ih (List.take_left' (length_padded ..)) (List.drop_left' (length_padded ..)) (by
        rw [← List.drop_drop, List.drop_left' (length_padded ..), List.drop_one, List.tail_cons])
  rw [digitsThen, whole, behind, beyond, digits, length_padded]
  simp

theorem digitsValue_padded {width n : ℕ} (short : n < 10 ^ width) : digitsValue (padded width n) = n := by
  have each (k : ℕ) : (padded width n).foldl (fun m p => 10 * m + (p.val - 48)) k = k * 10 ^ width + n := by
    induction width generalizing n k with
    | zero =>
      obtain rfl : n = 0 := by omega
      simp [padded]
    | succ width ih =>
      have power : 0 < 10 ^ width := Nat.pow_pos (by decide)
      rw [pow_succ] at short
      have high : n / 10 ^ width < 10 := Nat.div_lt_of_lt_mul short
      have digitValue : (digit (n / 10 ^ width)).val - 48 = n / 10 ^ width := by
        simp only [digit]
        rw [Nat.mod_eq_of_lt high, Nat.add_sub_cancel_left]
      rw [padded, List.foldl_cons, digitValue, ih (Nat.mod_lt n power)]
      calc (10 * k + n / 10 ^ width) * 10 ^ width + n % 10 ^ width
          = k * 10 ^ (width + 1) + (10 ^ width * (n / 10 ^ width) + n % 10 ^ width) := by ring
        _ = k * 10 ^ (width + 1) + n := by rw [Nat.div_add_mod]
  rw [digitsValue, each 0, Nat.zero_mul, Nat.zero_add]

theorem number_padded {width n : ℕ} {mark : CodePoint} {rest : Text} (short : n < 10 ^ width) :
    number (padded width n ++ mark :: rest) 0 width = n ∧
    ∀ start, number (padded width n ++ mark :: rest) (width + 1 + start) = number rest start := by
  constructor
  · rw [number, List.drop_zero, List.take_append_of_le_length (length_padded ..).ge,
      List.take_of_length_le (length_padded ..).le, digitsValue_padded short]
  · intro start
    funext later
    have beyond : (padded width n ++ mark :: rest).drop (width + 1) = rest := by
      rw [← List.drop_drop, List.drop_left' (length_padded ..), List.drop_one, List.tail_cons]
    rw [number, number, ← List.drop_drop, beyond]

theorem format_read {t : Moment} (valid : t.Valid) (year : 1000 ≤ t.year) :
    rfc3339MsBody (format t) = true ∧
    fieldsOf (format t) = ⟨t.year, t.month, t.day, t.hour, t.minute, t.second, t.microsecond / 1000⟩ := by
  have last := valid.day_le
  obtain ⟨⟨-, high, -, months, -, -⟩, hour, minute, second, micros⟩ := valid
  rw [format_eq year]
  constructor
  · simp only [rfc3339MsBody, digitsThen_padded, Option.bind_eq_bind, Option.bind_some]
    rfl
  · simp only [fieldsOf, (number_padded (show t.year < 10 ^ 4 by omega)).1]
    rw [(number_padded (show t.year < 10 ^ 4 by omega)).2 0, (number_padded (show t.year < 10 ^ 4 by omega)).2 3,
      (number_padded (show t.year < 10 ^ 4 by omega)).2 6, (number_padded (show t.year < 10 ^ 4 by omega)).2 9,
      (number_padded (show t.year < 10 ^ 4 by omega)).2 12, (number_padded (show t.year < 10 ^ 4 by omega)).2 15]
    rw [(number_padded (show t.month < 10 ^ 2 by omega)).1, (number_padded (show t.month < 10 ^ 2 by omega)).2 0,
      (number_padded (show t.month < 10 ^ 2 by omega)).2 3, (number_padded (show t.month < 10 ^ 2 by omega)).2 6,
      (number_padded (show t.month < 10 ^ 2 by omega)).2 9, (number_padded (show t.month < 10 ^ 2 by omega)).2 12]
    rw [(number_padded (show t.day < 10 ^ 2 by omega)).1, (number_padded (show t.day < 10 ^ 2 by omega)).2 0,
      (number_padded (show t.day < 10 ^ 2 by omega)).2 3, (number_padded (show t.day < 10 ^ 2 by omega)).2 6,
      (number_padded (show t.day < 10 ^ 2 by omega)).2 9]
    rw [(number_padded (show t.hour < 10 ^ 2 by omega)).1, (number_padded (show t.hour < 10 ^ 2 by omega)).2 0,
      (number_padded (show t.hour < 10 ^ 2 by omega)).2 3, (number_padded (show t.hour < 10 ^ 2 by omega)).2 6]
    rw [(number_padded (show t.minute < 10 ^ 2 by omega)).1, (number_padded (show t.minute < 10 ^ 2 by omega)).2 0,
      (number_padded (show t.minute < 10 ^ 2 by omega)).2 3]
    rw [(number_padded (show t.second < 10 ^ 2 by omega)).1, (number_padded (show t.second < 10 ^ 2 by omega)).2 0,
      (number_padded (show t.microsecond / 1000 < 10 ^ 3 by omega)).1]

theorem parse_format {t : Moment} (valid : t.Valid) (year : 1000 ≤ t.year) :
    parseRfc3339Ms (format t) = .ok t.truncated := by
  obtain ⟨matched, fields⟩ := format_read valid year
  have last := valid.day_le
  obtain ⟨⟨one, high, first, months, days, calendar⟩, hour, minute, second, micros⟩ := valid
  have parsed : Python.strptime (format t) = true := by
    rw [Python.strptime, matched, fields]
    simp [Python.directives, Python.datetime]
    omega
  rw [parseRfc3339Ms, anchored, matched, parsed, fields]
  rfl

theorem truncated_micros (t : Moment) : t.truncated.micros = t.micros / 1000 * 1000 := by
  simp only [Moment.micros, Moment.truncated, microsPerDay]
  omega

/-- The instant of an aware time, in microseconds. -/
def instant (t : Moment) (offset : ℤ) : ℤ := t.micros - offset

/-- Two aware times with UTC years from 1000 on: their texts stand in the order of their
milliseconds, and the text of one is read as its moment in UTC without the rest of the
millisecond. A zone of whole milliseconds may drop that rest before the conversion. -/
theorem timestamps_sort {a b : Datetime} {x y : ℤ} (awareA : a.offset = some x) (awareB : b.offset = some y)
    {u v : Moment} (utcA : astimezoneUtc a.fields x = .ok u) (utcB : astimezoneUtc b.fields y = .ok v)
    (yearA : 1000 ≤ u.year) (yearB : 1000 ≤ v.year) :
    ∃ s t, toRfc3339Ms a = .ok s ∧ toRfc3339Ms b = .ok t ∧
      (s ≤ t ↔ instant a.fields x / 1000 ≤ instant b.fields y / 1000) ∧
      parseRfc3339Ms s = .ok u.truncated ∧
      (u.truncated.micros : ℤ) = instant a.fields x / 1000 * 1000 ∧
      (x % 1000 = 0 → instant a.fields.truncated x = instant a.fields x / 1000 * 1000) := by
  obtain ⟨validU, instantU⟩ := astimezoneUtc_ok utcA
  obtain ⟨validV, instantV⟩ := astimezoneUtc_ok utcB
  refine ⟨format u, format v, ?_, ?_, ?_, parse_format validU yearA, ?_, ?_⟩
  · simp only [toRfc3339Ms, awareA, utcA]
    rfl
  · simp only [toRfc3339Ms, awareB, utcB]
    rfl
  · rw [← not_lt, format_lt validV validU yearB yearA, instant, instant, ← instantU, ← instantV]
    omega
  · rw [instant, ← instantU, truncated_micros]
    omega
  · intro whole
    rw [instant, instant, truncated_micros]
    omega

/-- Shortly after midnight, two hours east of Greenwich. -/
def newYear : Datetime where
  fields := ⟨2026, 1, 1, 0, 30, 5, 678901⟩
  offset := some 7200000000
  valid := ⟨by unfold ValidDate; decide, by decide, by decide, by decide, by decide⟩
  within := by simp

theorem newYear_sorted : ∃ s t, toRfc3339Ms newYear = .ok s ∧ toRfc3339Ms newYear = .ok t ∧
    parseRfc3339Ms s = .ok ⟨2025, 12, 31, 22, 30, 5, 678000⟩ := by
  have utc : astimezoneUtc newYear.fields 7200000000 = .ok ⟨2025, 12, 31, 22, 30, 5, 678901⟩ := by
    decide +kernel
  obtain ⟨s, t, first, second, -, read, -⟩ :=
    timestamps_sort (a := newYear) (b := newYear) rfl rfl utc utc (by decide) (by decide)
  exact ⟨s, t, first, second, read⟩

end Mirage.Timestamps
