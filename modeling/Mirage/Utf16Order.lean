import Mathlib.Data.List.Sort
import Mathlib.Data.String.Basic

/-! Texts ordered by their UTF-16 code units and by their code points. -/

namespace Mirage.Utf16Order

def codeUnits (c : Char) : List ℕ :=
  if c.toNat < 0x10000 then [c.toNat]
  else [0xD800 + (c.toNat - 0x10000) / 0x400, 0xDC00 + (c.toNat - 0x10000) % 0x400]

def utf16 (text : List Char) : List ℕ := text.flatMap codeUnits

/-- `low` comes first by code points and `high` by code units. -/
def swapped (low high : Char) : Bool :=
  0xE000 ≤ low.toNat && low.toNat < 0x10000 && 0x10000 ≤ high.toNat

def clash : List Char → List Char → Bool
  | c :: a, d :: b => if c = d then clash a b else swapped c d || swapped d c
  | _, _ => false

theorem char_lt_iff (c d : Char) : c < d ↔ c.toNat < d.toNat := Iff.rfl

theorem char_range (c : Char) : c.toNat < 0xD800 ∨ 0xDFFF < c.toNat ∧ c.toNat < 0x110000 :=
  c.valid

theorem codeUnits_lt_iff {c d : Char} (apart : c ≠ d) (a b : List ℕ) :
    codeUnits c ++ a < codeUnits d ++ b ↔
      if swapped c d || swapped d c then d < c else c < d := by
  have different : c.toNat ≠ d.toNat := fun same => apart (Char.toNat_inj.mp same)
  have rangeC := char_range c
  have rangeD := char_range d
  simp only [codeUnits, swapped, char_lt_iff]
  generalize c.toNat = m at *
  generalize d.toNat = n at *
  by_cases basicC : m < 0x10000 <;> by_cases basicD : n < 0x10000
  · simp only [basicC, basicD, if_true, List.cons_append, List.nil_append, List.cons_lt_cons_iff]
    split <;> simp_all
    all_goals omega
  · simp only [basicC, basicD, if_true, if_false, List.cons_append, List.nil_append,
      List.cons_lt_cons_iff]
    split <;> simp_all
    all_goals omega
  · simp only [basicC, basicD, if_true, if_false, List.cons_append, List.nil_append,
      List.cons_lt_cons_iff]
    split <;> simp_all
    all_goals omega
  · simp only [basicC, basicD, if_false, List.cons_append, List.nil_append, List.cons_lt_cons_iff]
    split <;> simp_all
    all_goals omega

theorem append_lt_append_iff (front a b : List ℕ) : front ++ a < front ++ b ↔ a < b := by
  induction front with
  | nil => rfl
  | cons n front ih => simp [ih]

theorem utf16_lt_iff (a b : List Char) :
    utf16 a < utf16 b ↔ if clash a b then b < a else a < b := by
  induction a generalizing b with
  | nil =>
    cases b with
    | nil => simp [utf16, clash]
    | cons d b =>
      have units : ∃ n rest, codeUnits d = n :: rest := by
        unfold codeUnits
        split <;> exact ⟨_, _, rfl⟩
      obtain ⟨n, rest, units⟩ := units
      simp [utf16, clash, units]
  | cons c a ih =>
    cases b with
    | nil => simp [utf16, clash]
    | cons d b =>
      simp only [utf16, List.flatMap_cons, clash]
      by_cases same : c = d
      · subst same
        rw [append_lt_append_iff, ← utf16, ← utf16, ih]
        simp
      · rw [codeUnits_lt_iff same]
        simp [same, Ne.symm same, List.cons_lt_cons_iff]

theorem clash_comm (a b : List Char) : clash a b = clash b a := by
  induction a generalizing b with
  | nil => cases b <;> rfl
  | cons c a ih =>
    cases b with
    | nil => rfl
    | cons d b => simp only [clash, ih b, eq_comm (a := c), Bool.or_comm (swapped c d)]

theorem clash_self (a : List Char) : clash a a = false := by
  induction a with
  | nil => rfl
  | cons c a ih => simp [clash, ih]

theorem clash_eq_false_iff (a b : List Char) :
    clash a b = false ↔ (utf16 a ≤ utf16 b ↔ a ≤ b) := by
  rw [← not_lt, ← not_lt, utf16_lt_iff, clash_comm b a]
  cases met : clash a b with
  | false => simp
  | true =>
    have different : a ≠ b := by
      rintro rfl
      rw [clash_self] at met
      cases met
    simp only [Bool.true_eq_false, if_true, false_iff, not_lt]
    intro same
    rcases le_total a b with h | h
    · exact different (le_antisymm h (same.mpr h))
    · exact different (le_antisymm (same.mp h) h)

end Mirage.Utf16Order
