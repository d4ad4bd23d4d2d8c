import Mirage.OrderedJson
import Mathlib.Data.List.Induction
import Mathlib.Data.Nat.Digits.Defs

/-! What `json.loads` returns can be written and read again: its integers were
short enough to be read, its dictionaries have distinct keys, and its floats
have a `repr` that denotes them. -/

namespace Mirage.LoadsReadable
open PythonText Raw RowLocks JsonLoads OrderedJson

def FloatsRead (py : Interpreter) : Prop :=
  ∀ t, readableFloat py (py.float t).1 (py.float t).2 = true

theorem digitsValue_lt {digits : Text} (plain : ∀ p ∈ digits, isDigit p = true) :
    digitsValue digits < 10 ^ digits.length := by
  induction digits using List.reverseRecOn with
  | nil => decide
  | append_singleton digits p ih =>
    have digit := plain p (List.mem_append_right _ List.mem_cons_self)
    have bound := ih fun q mem => plain q (List.mem_append_left _ mem)
    have small : p.val - 48 < 10 := by
      rw [isDigit, between, Bool.and_eq_true, decide_eq_true_eq, decide_eq_true_eq] at digit
      have nine : '9'.toNat = 57 := rfl
      omega
    have value : digitsValue (digits ++ [p]) = 10 * digitsValue digits + (p.val - 48) := by
      rw [digitsValue, List.foldl_append, digitsValue]
      rfl
    rw [value, List.length_append, List.length_singleton, pow_succ]
    omega

theorem parseInt_short {digits : Text} {n : ℕ} (plain : ∀ p ∈ digits, isDigit p = true)
    (parsed : parseInt digits = some n) : (Nat.repr n).length ≤ maxStrDigits := by
  rw [parseInt] at parsed
  split at parsed
  next short =>
    have bound := digitsValue_lt plain
    rw [Option.some.inj parsed] at bound
    exact Nat.repr_length n maxStrDigits (by decide)
      (lt_of_lt_of_le bound (Nat.pow_le_pow_right (by decide) short))
  next => cases parsed

theorem wholePart_digits {t whole rest : Text} (parts : wholePart t = some (whole, rest)) :
    ∀ p ∈ whole, isDigit p = true := by
  cases t with
  | nil => cases parts
  | cons p t =>
    rw [wholePart] at parts
    split at parts
    next zero =>
      cases parts
      intro q mem
      rw [List.mem_singleton.mp mem, zero]
      decide
    next =>
      split at parts
      next digit =>
        cases parts
        intro q mem
        rcases List.mem_cons.mp mem with rfl | later
        · exact digit
        · exact List.mem_takeWhile_imp later
      next => cases parts

theorem readable_intOf_digits {py : Interpreter} {digits : Text} {v : Raw}
    (plain : ∀ p ∈ digits, isDigit p = true) (read : intOf digits = .ok v) : readable py v = true := by
  cases digits with
  | nil => cases read
  | cons p rest =>
    have positive : p ≠ ofChar '-' := by
      rintro rfl
      exact absurd (plain _ List.mem_cons_self) (by decide)
    rw [intOf, if_neg positive] at read
    cases parsed : parseInt (p :: rest) with
    | none =>
      rw [parsed] at read
      cases read
    | some n =>
      rw [parsed] at read
      cases read
      rw [readable, decide_eq_true_eq, Int.natAbs_natCast]
      exact parseInt_short plain parsed

theorem readable_intOf {py : Interpreter} {t whole rest : Text} {v : Raw}
    (parts : signedPart t = some (whole, rest)) (read : intOf whole = .ok v) : readable py v = true := by
  cases t with
  | nil => cases parts
  | cons p t =>
    rw [signedPart] at parts
    split at parts
    next minus =>
      rw [Option.map_eq_some_iff] at parts
      obtain ⟨⟨digits, rest'⟩, found, same⟩ := parts
      cases same
      rw [intOf, if_pos minus] at read
      cases parsed : parseInt digits with
      | none =>
        rw [parsed] at read
        cases read
      | some n =>
        rw [parsed] at read
        cases read
        rw [readable, decide_eq_true_eq, Int.natAbs_neg, Int.natAbs_natCast]
        exact parseInt_short (wholePart_digits found) parsed
    next => exact readable_intOf_digits (wholePart_digits parts) read

section
variable {py : Interpreter}

theorem map_eq_ok {ε α β : Type} {x : Except ε α} {f : α → β} {b : β} (ok : x.map f = .ok b) :
    ∃ a, x = .ok a ∧ f a = b := by
  cases x with
  | error e => cases ok
  | ok a => exact ⟨a, rfl, Except.ok.inj ok⟩

theorem readable_atom (law : FloatsRead py) {t rest : Text} {v : Raw}
    (scanned : scanAtom py t = .ok (v, rest)) : readable py v = true := by
  unfold scanAtom at scanned
  split at scanned
  next found constant =>
    cases scanned
    rw [constant?, Option.map_eq_some_iff] at constant
    obtain ⟨c, mem, same⟩ := constant
    cases same
    have known : ∀ c ∈ constants, readable py c.2 = true := by
      simp only [constants, List.forall_mem_cons]
      exact ⟨rfl, rfl, rfl, rfl, rfl, rfl, fun c mem => absurd mem List.not_mem_nil⟩
    exact known c (List.mem_of_find?_eq_some mem)
  next =>
    unfold scanNumber at scanned
    split at scanned
    next => cases scanned
    next whole rest' parts =>
      obtain ⟨v', read, same⟩ := map_eq_ok scanned
      cases same
      rw [numberParts, Option.map_eq_some_iff] at parts
      obtain ⟨⟨w, r⟩, signed, same⟩ := parts
      simp only [Prod.mk.injEq] at same
      rw [← same.1] at read
      exact readable_intOf signed read
    next whole tail rest' _ _ =>
      have float := law (whole ++ tail)
      cases form : py.float (whole ++ tail) with
      | mk repr integral =>
        rw [form] at scanned float
        cases scanned
        exact float

theorem mem_setMember {members : List (Text × Raw)} {name : Text} {value : Raw} {m : Text × Raw}
    (mem : m ∈ setMember name value members) : m = (name, value) ∨ m ∈ members := by
  induction members with
  | nil => exact .inl (List.mem_singleton.mp mem)
  | cons head rest ih =>
    obtain ⟨key, old⟩ := head
    rw [setMember] at mem
    split at mem
    next =>
      rcases List.mem_cons.mp mem with here | later
      · exact .inl here
      · exact .inr (List.mem_cons_of_mem _ later)
    next =>
      rcases List.mem_cons.mp mem with here | later
      · exact .inr (here ▸ List.mem_cons_self)
      · exact (ih later).imp id (List.mem_cons_of_mem _)

theorem setMember_unique {members : List (Text × Raw)} (unique : (members.map Prod.fst).Nodup)
    (name : Text) (value : Raw) : ((setMember name value members).map Prod.fst).Nodup := by
  induction members with
  | nil => exact List.nodup_singleton _
  | cons head rest ih =>
    obtain ⟨key, old⟩ := head
    rw [List.map_cons, List.nodup_cons] at unique
    rw [setMember]
    split
    next same =>
      rw [List.map_cons, List.nodup_cons, ← same]
      exact unique
    next different =>
      rw [List.map_cons, List.nodup_cons]
      refine ⟨fun mem => ?_, ih unique.2⟩
      obtain ⟨m, memRest, same⟩ := List.mem_map.mp mem
      rcases mem_setMember memRest with rfl | old
      · exact different same.symm
      · exact unique.1 (same ▸ List.mem_map_of_mem old)

theorem readable_setMember {members : List (Text × Raw)} {name : Text} {value : Raw}
    (known : readable py (.obj members) = true) (knownValue : readable py value = true) :
    readable py (.obj (setMember name value members)) = true := by
  rw [readable_obj] at known ⊢
  refine ⟨setMember_unique known.1 name value, fun m mem => ?_⟩
  rcases mem_setMember mem with rfl | old
  · exact knownValue
  · exact known.2 m old

structure ScansReadable (py : Interpreter) (fuel : ℕ) : Prop where
  once : ∀ t v rest, scanOnce py fuel t = .ok (v, rest) → readable py v = true
  members : ∀ members t v rest, readable py (.obj members) = true →
    scanMembers py fuel members t = .ok (v, rest) → readable py v = true
  items : ∀ items t v rest, readable py (.arr items) = true →
    scanItems py fuel items t = .ok (v, rest) → readable py v = true

theorem scanOnce_readable (law : FloatsRead py) {fuel : ℕ} (ih : ScansReadable py fuel) {t rest : Text}
    {v : Raw} (scanned : scanOnce py (fuel + 1) t = .ok (v, rest)) : readable py v = true := by
  rw [scanOnce] at scanned
  split at scanned
  next =>
    obtain ⟨r, _, same⟩ := map_eq_ok scanned
    cases same
    rfl
  next =>
    split at scanned
    next =>
      cases scanned
      rfl
    next => exact ih.members [] _ v rest rfl scanned
  next =>
    split at scanned
    next =>
      cases scanned
      rfl
    next => exact ih.items [] _ v rest rfl scanned
  next => exact readable_atom law scanned

theorem scanMembers_readable {fuel : ℕ} (ih : ScansReadable py fuel) {members : List (Text × Raw)}
    {t rest : Text} {v : Raw} (known : readable py (.obj members) = true)
    (scanned : scanMembers py (fuel + 1) members t = .ok (v, rest)) : readable py v = true := by
  rw [scanMembers, bind_eq_ok] at scanned
  obtain ⟨⟨name, afterName⟩, _, scanned⟩ := scanned
  rw [bind_eq_ok] at scanned
  obtain ⟨⟨value, afterValue⟩, valueOk, scanned⟩ := scanned
  rw [bind_eq_ok] at scanned
  obtain ⟨⟨closed, afterEnd⟩, _, scanned⟩ := scanned
  have next : readable py (.obj (setMember name value members)) = true :=
    readable_setMember known (ih.once _ _ _ valueOk)
  cases closed with
  | true =>
    cases scanned
    exact next
  | false => exact ih.members _ _ _ _ next scanned

theorem scanItems_readable {fuel : ℕ} (ih : ScansReadable py fuel) {items : List Raw} {t rest : Text}
    {v : Raw} (known : readable py (.arr items) = true)
    (scanned : scanItems py (fuel + 1) items t = .ok (v, rest)) : readable py v = true := by
  rw [scanItems, bind_eq_ok] at scanned
  obtain ⟨⟨value, afterValue⟩, valueOk, scanned⟩ := scanned
  rw [bind_eq_ok] at scanned
  obtain ⟨⟨closed, afterEnd⟩, _, scanned⟩ := scanned
  have next : readable py (.arr (items ++ [value])) = true := by
    rw [readable_arr] at known ⊢
    rw [List.forall_mem_append, List.forall_mem_singleton]
    exact ⟨known, ih.once _ _ _ valueOk⟩
  cases closed with
  | true =>
    cases scanned
    exact next
  | false => exact ih.items _ _ _ _ next scanned

theorem scans_readable (law : FloatsRead py) (fuel : ℕ) : ScansReadable py fuel := by
  induction fuel with
  | zero => exact ⟨nofun, nofun, nofun⟩
  | succ fuel ih =>
    exact ⟨fun _ _ _ => scanOnce_readable law ih, fun _ _ _ _ => scanMembers_readable ih,
      fun _ _ _ _ => scanItems_readable ih⟩

theorem decode_readable (law : FloatsRead py) {doc : Text} {v : Raw} (decoded : decode py doc = .ok v) :
    readable py v = true := by
  rw [decode] at decoded
  split at decoded
  next => cases decoded
  next found scanned =>
    obtain ⟨value, rest⟩ := found
    rw [finish] at decoded
    split at decoded
    next =>
      cases decoded
      exact (scans_readable law _).once _ _ _ scanned
    next => cases decoded

theorem loadsText_readable (law : FloatsRead py) {doc : Text} {v : Raw}
    (loaded : loadsText py doc = .ok v) : readable py v = true := by
  rw [loadsText] at loaded
  split at loaded
  next => cases loaded
  next => exact decode_readable law loaded

theorem loads_readable (law : FloatsRead py) {bytes : ByteArray} {v : Raw}
    (loaded : loads py bytes = .ok v) : readable py v = true := by
  rw [loads, bind_eq_ok] at loaded
  obtain ⟨doc, _, decoded⟩ := loaded
  exact decode_readable law decoded

end
end Mirage.LoadsReadable
