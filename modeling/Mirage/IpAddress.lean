import Mirage.JsonLoads
import Mathlib.Data.Nat.Digits.Defs

/-! `ipaddress` of Python 3.12: parsing an address, writing it, and the addresses
of a network. Different addresses are written differently: the groups that a `::`
stands for are known from the number of the others. -/

namespace Mirage.IpAddress
open PythonText

structure Scope where
  name : Text
  named : name ≠ []
  plain : ofChar '%' ∉ name
  deriving DecidableEq

/-- `IPv4Address` and `IPv6Address`. -/
inductive Address where
  | v4 (ip : BitVec 32)
  | v6 (ip : BitVec 128) (scopeId : Option Scope)
  deriving DecidableEq

/-- `ip_network(cidr, strict=False)`: an address of the network and the length of its prefix. -/
inductive Network where
  | v4 (ip : BitVec 32) (prefixLength : Fin 33)
  | v6 (ip : BitVec 128) (prefixLength : Fin 129)

def Network.contains : Network → Address → Bool
  | .v4 ip n, .v4 a =>
    let netmask := BitVec.allOnes 32 <<< (32 - n.val)
    a &&& netmask = ip &&& netmask
  | .v6 ip n, .v6 a _ =>
    let netmask := BitVec.allOnes 128 <<< (128 - n.val)
    a &&& netmask = ip &&& netmask
  | _, _ => false

def zero : Text := [ofChar '0']

def hexText (n : ℕ) : Text :=
  if n = 0 then zero else ((Nat.digits 16 n).map fun d => ofChar (Json.hexDigit d)).reverse

def octets (ip : BitVec 32) : List ℕ := [24, 16, 8, 0].map fun s => ip.toNat / 2 ^ s % 256

def hextets (ip : BitVec 128) : List ℕ :=
  [112, 96, 80, 64, 48, 32, 16, 0].map fun s => ip.toNat / 2 ^ s % 65536

def join (mark : Char) (parts : List Text) : Text := [ofChar mark].intercalate parts

structure Runs where
  bestStart : ℕ
  bestLen : ℕ
  start : Option ℕ
  len : ℕ

def visit (index : ℕ) (r : Runs) (hextet : Text) : Runs :=
  if hextet = zero then
    let start := r.start.getD index
    if r.bestLen < r.len + 1 then ⟨start, r.len + 1, some start, r.len + 1⟩
    else ⟨r.bestStart, r.bestLen, some start, r.len + 1⟩
  else ⟨r.bestStart, r.bestLen, none, 0⟩

def scanRuns : ℕ → Runs → List Text → Runs
  | _, r, [] => r
  | index, r, hextet :: rest => scanRuns (index + 1) (visit index r hextet) rest

def longestRun (hextets : List Text) : Runs := scanRuns 0 ⟨0, 0, none, 0⟩ hextets

def compress (hextets : List Text) : List Text :=
  let r := longestRun hextets
  if 1 < r.bestLen then
    let end_ := r.bestStart + r.bestLen
    let extended := if end_ = hextets.length then hextets ++ [[]] else hextets
    let shortened := extended.take r.bestStart ++ [[]] ++ extended.drop end_
    if r.bestStart = 0 then [] :: shortened else shortened
  else hextets

def str : Address → Text
  | .v4 ip => join '.' ((octets ip).map fun n => text (toString n))
  | .v6 ip none => join ':' (compress ((hextets ip).map hexText))
  | .v6 ip (some scope) => join ':' (compress ((hextets ip).map hexText)) ++ ofChar '%' :: scope.name

def parseOctet (t : Text) : Option ℕ :=
  if t ≠ [] ∧ t.all isDigit ∧ t.length ≤ 3 ∧ (t = zero ∨ t.head? ≠ some (ofChar '0')) ∧
      digitsValue t ≤ 255 then some (digitsValue t)
  else none

def fromGroups (base : ℕ) (groups : List ℕ) : ℕ := groups.foldl (fun n g => base * n + g) 0

def parseAll (parse : Text → Option ℕ) : List Text → Option (List ℕ)
  | [] => some []
  | part :: rest => do
    let value ← parse part
    let more ← parseAll parse rest
    return value :: more

def parseV4 (t : Text) : Option (BitVec 32) := do
  let parts := t.splitOn (ofChar '.')
  if parts.length ≠ 4 then none
  else
    let values ← parseAll parseOctet parts
    return BitVec.ofNat 32 (fromGroups 256 values)

def hexValue : Text → Option ℕ
  | [] => some 0
  | p :: rest => do
    let d ← JsonLoads.hexDigit? p
    let more ← hexValue rest
    return d * 16 ^ rest.length + more

def parseHextet (t : Text) : Option ℕ := if t ≠ [] ∧ t.length ≤ 4 then hexValue t else none

def withoutV4 (parts : List Text) : Option (List Text) :=
  let last := parts.getLast?.getD []
  if ofChar '.' ∈ last then do
    let ip ← parseV4 last
    return parts.dropLast ++ [hexText (ip.toNat / 65536), hexText (ip.toNat % 65536)]
  else some parts

def skips (parts : List Text) : List ℕ :=
  (List.range parts.length).filter fun i => 1 ≤ i ∧ i + 1 < parts.length ∧ parts[i]? = some []

def expand (parts : List Text) : Option (List Text) :=
  match skips parts with
  | [] =>
    if parts.length = 8 ∧ parts.head? ≠ some [] ∧ parts.getLast? ≠ some [] then some parts else none
  | [skip] =>
    let hi := if parts.head? = some [] then skip - 1 else skip
    let lo := if parts.getLast? = some [] then parts.length - skip - 2 else parts.length - skip - 1
    if parts.head? = some [] ∧ hi ≠ 0 ∨ parts.getLast? = some [] ∧ lo ≠ 0 ∨ 8 ≤ hi + lo then none
    else some (parts.take hi ++ List.replicate (8 - (hi + lo)) zero ++ parts.drop (parts.length - lo))
  | _ => none

def parseV6Number (t : Text) : Option (BitVec 128) := do
  let parts := t.splitOn (ofChar ':')
  if parts.length < 3 then none
  else
    let parts ← withoutV4 parts
    if 9 < parts.length then none
    else
      let groups ← expand parts
      let values ← parseAll parseHextet groups
      return BitVec.ofNat 128 (fromGroups 65536 values)

/-- The text before the first `%`, and the scope id behind it. -/
def splitScope (t : Text) : Option (Text × Option Scope) :=
  match t.span fun p => p ≠ ofChar '%' with
  | (address, []) => some (address, none)
  | (address, _ :: scope) =>
    if h : scope ≠ [] ∧ ofChar '%' ∉ scope then some (address, some ⟨scope, h.1, h.2⟩) else none

def parseV6 (t : Text) : Option Address := do
  if ofChar '/' ∈ t then none
  else
    let (address, scope) ← splitScope t
    let ip ← parseV6Number address
    return .v6 ip scope

/-- `ip_address(t)`; nothing where it raises `ValueError`. -/
def ipAddress (t : Text) : Option Address :=
  match parseV4 t with
  | some ip => some (.v4 ip)
  | none => parseV6 t

/-! Different addresses have different texts. -/

theorem hexDigit_of (d : ℕ) (small : d < 16) : JsonLoads.hexDigit? (ofChar (Json.hexDigit d)) = some d := by
  revert d
  decide

theorem hexText_ne_nil (n : ℕ) : hexText n ≠ [] := by
  rw [hexText]
  split
  next => exact List.cons_ne_nil _ _
  next positive =>
    rw [Ne, List.reverse_eq_nil_iff, List.map_eq_nil_iff]
    exact Nat.digits_ne_nil_iff_ne_zero.mpr positive

theorem hexDigit_plain : ∀ d < 16, ofChar (Json.hexDigit d) ≠ ofChar ':' ∧ ofChar (Json.hexDigit d) ≠ ofChar '%' := by
  decide

theorem hexText_plain (n : ℕ) : ofChar ':' ∉ hexText n ∧ ofChar '%' ∉ hexText n := by
  rw [hexText]
  split
  next => decide
  next =>
    constructor
    all_goals
      rw [List.mem_reverse, List.mem_map]
      rintro ⟨d, mem, same⟩
      have small : d < 16 := Nat.digits_lt_base (by decide) mem
    · exact (hexDigit_plain d small).1 same
    · exact (hexDigit_plain d small).2 same

theorem filterMap_digits {ds : List ℕ} (small : ∀ d ∈ ds, d < 16) :
    (ds.map fun d => ofChar (Json.hexDigit d)).filterMap JsonLoads.hexDigit? = ds := by
  induction ds with
  | nil => rfl
  | cons d rest ih =>
    rw [List.map_cons, List.filterMap_cons, hexDigit_of d (small d List.mem_cons_self)]
    simp only
    rw [ih fun e mem => small e (List.mem_cons_of_mem _ mem)]

theorem hexText_value (n : ℕ) :
    Nat.ofDigits 16 ((hexText n).reverse.filterMap JsonLoads.hexDigit?) = n := by
  rw [hexText]
  split
  next none =>
    rw [none]
    rfl
  next =>
    rw [List.reverse_reverse, filterMap_digits fun d mem => Nat.digits_lt_base (by decide) mem,
      Nat.ofDigits_digits]

theorem hexText_injective : Function.Injective hexText := by
  intro m n same
  rw [← hexText_value m, same, hexText_value]

theorem octetText_injective : Function.Injective fun n : ℕ => text (toString n) :=
  Function.LeftInverse.injective JsonLoads.digitsValue_text

def Zeros (groups : List Text) (start len : ℕ) : Prop :=
  ∀ j, start ≤ j → j < start + len → groups[j]? = some zero

structure RunsOf (groups : List Text) (index : ℕ) (r : Runs) : Prop where
  best : Zeros groups r.bestStart r.bestLen
  inside : r.bestStart + r.bestLen ≤ index
  here : ∀ start, r.start = some start → Zeros groups start r.len ∧ start + r.len = index
  none : r.start = none → r.len = 0

theorem Zeros.snoc {groups : List Text} {start len : ℕ} (zeros : Zeros groups start len)
    (next : groups[start + len]? = some zero) : Zeros groups start (len + 1) := by
  intro j above below
  by_cases last : j = start + len
  · rw [last]
    exact next
  · exact zeros j above (by omega)

theorem RunsOf.visit {groups : List Text} {index : ℕ} {r : Runs} {group : Text}
    (runs : RunsOf groups index r) (at_ : groups[index]? = some group) :
    RunsOf groups (index + 1) (visit index r group) := by
  rw [IpAddress.visit]
  split
  next isZero =>
    rw [isZero] at at_
    have grown : Zeros groups (r.start.getD index) (r.len + 1) ∧ r.start.getD index + (r.len + 1) = index + 1 := by
      cases found : r.start with
      | none =>
        rw [runs.none found, Option.getD_none]
        refine ⟨fun j above below => ?_, rfl⟩
        have only : j = index := by omega
        rw [only]
        exact at_
      | some start =>
        obtain ⟨zeros, ends⟩ := runs.here start found
        rw [Option.getD_some]
        exact ⟨zeros.snoc (by rw [ends]; exact at_), by omega⟩
    have own : ∀ start, some (r.start.getD index) = some start →
        Zeros groups start (r.len + 1) ∧ start + (r.len + 1) = index + 1 := by
      intro start same
      cases same
      exact grown
    simp only
    split
    next => exact ⟨grown.1, grown.2.le, own, nofun⟩
    next => exact ⟨runs.best, runs.inside.trans (Nat.le_succ index), own, nofun⟩
  next => exact ⟨runs.best, runs.inside.trans (Nat.le_succ index), nofun, fun _ => rfl⟩

theorem RunsOf.scan {groups : List Text} : ∀ (rest : List Text) {index : ℕ} {r : Runs},
    RunsOf groups index r → index ≤ groups.length → groups.drop index = rest →
      RunsOf groups groups.length (scanRuns index r rest) := by
  intro rest
  induction rest with
  | nil =>
    intro index r runs inside none
    rw [scanRuns, Nat.le_antisymm (List.drop_eq_nil_iff.mp none) inside]
    exact runs
  | cons group rest ih =>
    intro index r runs inside split
    rw [scanRuns]
    have at_ : groups[index]? = some group := by
      rw [← List.head?_drop, split, List.head?_cons]
    obtain ⟨below, _⟩ := List.getElem?_eq_some_iff.mp at_
    refine ih (runs.visit at_) below ?_
    rw [← List.tail_drop, split, List.tail_cons]

theorem longestRun_zeros (groups : List Text) :
    Zeros groups (longestRun groups).bestStart (longestRun groups).bestLen ∧
      (longestRun groups).bestStart + (longestRun groups).bestLen ≤ groups.length := by
  have initial : RunsOf groups 0 ⟨0, 0, none, 0⟩ :=
    ⟨fun j above below => absurd below (Nat.not_lt_of_le above), Nat.le_refl 0, nofun, fun _ => rfl⟩
  have whole := initial.scan groups (Nat.zero_le _) rfl
  exact ⟨whole.best, whole.inside⟩

def inflate (parts : List Text) : List Text :=
  if [] ∈ parts then
    let front := parts.takeWhile (· ≠ [])
    let back := (parts.reverse.takeWhile (· ≠ [])).reverse
    front ++ List.replicate (8 - front.length - back.length) zero ++ back
  else parts

theorem inflate_gap {front back middle rest rest' : List Text} (proper : ∀ g ∈ front ++ back, g ≠ [])
    (first : middle = [] :: rest) (last : middle.reverse = [] :: rest') :
    inflate (front ++ middle ++ back) =
      front ++ List.replicate (8 - front.length - back.length) zero ++ back := by
  have frontProper : ∀ g ∈ front, decide (g ≠ []) = true := fun g mem =>
    decide_eq_true (proper g (List.mem_append_left _ mem))
  have backProper : ∀ g ∈ back.reverse, decide (g ≠ []) = true := fun g mem =>
    decide_eq_true (proper g (List.mem_append_right _ (List.mem_reverse.mp mem)))
  have mem : ([] : Text) ∈ front ++ middle ++ back := by
    rw [first]
    exact List.mem_append_left _ (List.mem_append_right _ List.mem_cons_self)
  have takenFront : (front ++ middle ++ back).takeWhile (· ≠ []) = front := by
    rw [first, List.append_assoc, List.takeWhile_append_of_pos frontProper, List.cons_append,
      List.takeWhile_cons_of_neg (by simp), List.append_nil]
  have takenBack : ((front ++ middle ++ back).reverse.takeWhile (· ≠ [])).reverse = back := by
    rw [List.reverse_append, List.reverse_append, last, List.takeWhile_append_of_pos backProper,
      List.cons_append, List.takeWhile_cons_of_neg (by simp), List.append_nil, List.reverse_reverse]
  rw [inflate, if_pos mem]
  simp only
  rw [takenFront, takenBack]

theorem zeros_replicate {groups : List Text} {start len : ℕ} (zeros : Zeros groups start len) :
    groups = groups.take start ++ List.replicate len zero ++ groups.drop (start + len) := by
  have middle : (groups.drop start).take len = List.replicate len zero := by
    refine List.ext_getElem? fun j => ?_
    by_cases below : j < len
    · rw [List.getElem?_take_of_lt below, List.getElem?_drop, List.getElem?_replicate, if_pos below]
      exact zeros (start + j) (Nat.le_add_right _ _) (by omega)
    · rw [List.getElem?_replicate, if_neg below, List.getElem?_eq_none]
      rw [List.length_take]
      omega
  calc groups = groups.take start ++ groups.drop start := (List.take_append_drop _ _).symm
    _ = groups.take start ++ ((groups.drop start).take len ++ (groups.drop start).drop len) :=
      congrArg (groups.take start ++ ·) (List.take_append_drop len _).symm
    _ = groups.take start ++ List.replicate len zero ++ groups.drop (start + len) := by
      rw [middle, List.drop_drop, List.append_assoc]

theorem inflate_compress {groups : List Text} (eight : groups.length = 8) (proper : ∀ g ∈ groups, g ≠ []) :
    inflate (compress groups) = groups := by
  rw [compress]
  split
  next long =>
    obtain ⟨zeros, inside⟩ := longestRun_zeros groups
    have split := zeros_replicate zeros
    generalize (longestRun groups).bestStart = start at *
    generalize (longestRun groups).bestLen = len at *
    have kept : ∀ g ∈ groups.take start ++ groups.drop (start + len), g ≠ [] := by
      intro g mem
      rcases List.mem_append.mp mem with early | late
      · exact proper g (List.mem_of_mem_take early)
      · exact proper g (List.mem_of_mem_drop late)
    have count : 8 - (groups.take start).length - (groups.drop (start + len)).length = len := by
      rw [List.length_take, List.length_drop, eight]
      omega
    have result : groups.take start ++ List.replicate (8 - (groups.take start).length -
        (groups.drop (start + len)).length) zero ++ groups.drop (start + len) = groups := by
      rw [count, ← split]
    have gap : ∀ middle rest rest' : List Text, middle = [] :: rest → middle.reverse = [] :: rest' →
        inflate (groups.take start ++ middle ++ groups.drop (start + len)) = groups := by
      intro middle rest rest' first last
      rw [inflate_gap kept first last]
      exact result
    have atStart : start = 0 → groups.take start = [] := by
      intro none
      rw [none, List.take_zero]
    by_cases atEnd : start + len = groups.length
    · have none : groups.drop (start + len) = [] := by
        rw [atEnd, List.drop_length]
      have front : (groups ++ [[]]).take start = groups.take start :=
        List.take_append_of_le_length (by omega)
      have back : (groups ++ [[]]).drop (start + len) = [[]] := by
        rw [atEnd, List.drop_left]
      simp only [atEnd, if_true]
      rw [← atEnd, front, back]
      split
      next here =>
        have shown := gap [[], [], []] [[], []] [[], []] rfl rfl
        rw [none, List.append_nil, atStart here] at shown
        rw [atStart here]
        exact shown
      next =>
        have shown := gap [[], []] [[]] [[]] rfl rfl
        rw [none, List.append_nil] at shown
        rw [List.append_assoc]
        exact shown
    · simp only [atEnd, if_false]
      split
      next here =>
        have shown := gap [[], []] [[]] [[]] rfl rfl
        rw [atStart here] at shown ⊢
        exact shown
      next => exact gap [[]] [] [] rfl rfl
  next =>
    rw [inflate, if_neg]
    intro mem
    exact proper [] mem rfl

theorem compress_injective {a b : List Text} (lengthA : a.length = 8) (lengthB : b.length = 8)
    (properA : ∀ g ∈ a, g ≠ []) (properB : ∀ g ∈ b, g ≠ []) (same : compress a = compress b) : a = b := by
  rw [← inflate_compress lengthA properA, same, inflate_compress lengthB properB]

theorem mem_compress {groups : List Text} {g : Text} (mem : g ∈ compress groups) : g = [] ∨ g ∈ groups := by
  rw [compress] at mem
  have listed : ∀ {l : List Text}, (∀ x ∈ l, x = [] ∨ x ∈ groups) → ∀ start end_,
      ∀ x ∈ l.take start ++ [[]] ++ l.drop end_, x = [] ∨ x ∈ groups := by
    intro l known start end_ x mem
    rw [List.mem_append, List.mem_append, List.mem_singleton] at mem
    rcases mem with (early | gap) | late
    · exact known x (List.mem_of_mem_take early)
    · exact .inl gap
    · exact known x (List.mem_of_mem_drop late)
  have extended : ∀ c : Prop, [Decidable c] → ∀ x ∈ (if c then groups ++ [[]] else groups), x = [] ∨ x ∈ groups := by
    intro c _ x mem
    split at mem
    next =>
      rw [List.mem_append, List.mem_singleton] at mem
      exact mem.symm
    next => exact .inr mem
  split at mem
  next =>
    simp only at mem
    split at mem
    next =>
      rcases List.mem_cons.mp mem with gap | mem
      · exact .inl gap
      · exact listed (extended _) _ _ g mem
    next => exact listed (extended _) _ _ g mem
  next => exact .inr mem

theorem compress_ne_nil {groups : List Text} (some : groups ≠ []) : compress groups ≠ [] := by
  rw [compress]
  split
  next =>
    simp only
    split
    next => exact List.cons_ne_nil _ _
    next => simp
  next => exact some

theorem join_injective {mark : Char} {a b : List Text} (plainA : ∀ g ∈ a, ofChar mark ∉ g)
    (plainB : ∀ g ∈ b, ofChar mark ∉ g) (someA : a ≠ []) (someB : b ≠ [])
    (same : join mark a = join mark b) : a = b := by
  rw [← List.splitOn_intercalate (ofChar mark) plainA someA,
    ← List.splitOn_intercalate (ofChar mark) plainB someB]
  exact congrArg _ same

theorem octets_injective : Function.Injective octets := by
  intro a b same
  simp only [octets, List.map_cons, List.map_nil, List.cons.injEq] at same
  have bound : ∀ c : BitVec 32, c.toNat < 2 ^ 32 := fun c => c.isLt
  have boundA := bound a
  have boundB := bound b
  refine BitVec.eq_of_toNat_eq ?_
  omega

theorem hextets_injective : Function.Injective hextets := by
  intro a b same
  simp only [hextets, List.map_cons, List.map_nil, List.cons.injEq] at same
  have boundA := a.isLt
  have boundB := b.isLt
  refine BitVec.eq_of_toNat_eq ?_
  omega

theorem two_le_compress {groups : List Text} (eight : groups.length = 8) : 2 ≤ (compress groups).length := by
  rw [compress]
  split
  next long =>
    simp only
    split
    next =>
      rw [List.length_cons, List.length_append, List.length_append, List.length_singleton]
      omega
    next positive =>
      have inside := (longestRun_zeros groups).2
      have taken : 1 ≤ ((if (longestRun groups).bestStart + (longestRun groups).bestLen = groups.length then
          groups ++ [[]] else groups).take (longestRun groups).bestStart).length := by
        rw [List.length_take]
        split
        next =>
          rw [List.length_append, List.length_singleton]
          omega
        next => omega
      rw [List.length_append, List.length_append, List.length_singleton]
      omega
  next => omega

theorem mem_join {mark : Char} {parts : List Text} (two : 2 ≤ parts.length) : ofChar mark ∈ join mark parts := by
  match parts, two with
  | a :: b :: rest, _ =>
    rw [join, List.intercalate_cons_cons]
    exact List.mem_append_left _ (List.mem_append_right _ (List.mem_singleton_self _))

theorem not_mem_join {mark other : Char} (apart : ofChar other ≠ ofChar mark) {parts : List Text}
    (plain : ∀ g ∈ parts, ofChar other ∉ g) : ofChar other ∉ join mark parts := by
  induction parts with
  | nil => exact List.not_mem_nil
  | cons g rest ih =>
    cases rest with
    | nil =>
      rw [join, List.intercalate_singleton]
      exact plain g List.mem_cons_self
    | cons h more =>
      rw [join, List.intercalate_cons_cons, List.mem_append, List.mem_append, List.mem_singleton]
      rintro ((own | sep) | later)
      · exact plain g List.mem_cons_self own
      · exact apart sep
      · exact ih (fun x mem => plain x (List.mem_cons_of_mem _ mem)) later

theorem octetText_plain (n : ℕ) : ofChar '.' ∉ text (toString n) ∧ ofChar ':' ∉ text (toString n) := by
  have digits := JsonLoads.digits_text n
  constructor
  · intro mem
    have bad := digits _ mem
    revert bad
    decide
  · intro mem
    have bad := digits _ mem
    revert bad
    decide

def groups (ip : BitVec 128) : List Text := (hextets ip).map hexText

theorem groups_length (ip : BitVec 128) : (groups ip).length = 8 := rfl

theorem groups_proper (ip : BitVec 128) : ∀ g ∈ groups ip, g ≠ [] := by
  intro g mem
  obtain ⟨n, _, rfl⟩ := List.mem_map.mp mem
  exact hexText_ne_nil n

theorem groups_injective : Function.Injective groups := fun _ _ same =>
  hextets_injective (List.map_injective_iff.mpr hexText_injective same)

theorem compress_plain (ip : BitVec 128) :
    ∀ g ∈ compress (groups ip), ofChar ':' ∉ g ∧ ofChar '%' ∉ g := by
  intro g mem
  rcases mem_compress mem with rfl | listed
  · exact ⟨List.not_mem_nil, List.not_mem_nil⟩
  · obtain ⟨n, _, rfl⟩ := List.mem_map.mp listed
    exact hexText_plain n

theorem number_injective {a b : BitVec 128}
    (same : join ':' (compress (groups a)) = join ':' (compress (groups b))) : a = b := by
  have some : ∀ ip, compress (groups ip) ≠ [] := fun ip =>
    compress_ne_nil (List.ne_nil_of_length_eq_add_one (groups_length ip))
  have parts := join_injective (fun g mem => (compress_plain a g mem).1)
    (fun g mem => (compress_plain b g mem).1) (some a) (some b) same
  exact groups_injective (compress_injective (groups_length a) (groups_length b) (groups_proper a)
    (groups_proper b) parts)

theorem number_unscoped (ip : BitVec 128) : ofChar '%' ∉ join ':' (compress (groups ip)) :=
  not_mem_join (by decide) fun g mem => (compress_plain ip g mem).2

theorem str_v4_plain (ip : BitVec 32) : ofChar ':' ∉ str (.v4 ip) := by
  refine not_mem_join (by decide) fun g mem => ?_
  obtain ⟨n, _, rfl⟩ := List.mem_map.mp mem
  exact (octetText_plain n).2

theorem str_v6_colon (ip : BitVec 128) (scopeId : Option Scope) : ofChar ':' ∈ str (.v6 ip scopeId) := by
  have colon : ofChar ':' ∈ join ':' (compress (groups ip)) := mem_join (two_le_compress (groups_length ip))
  cases scopeId with
  | none => exact colon
  | some scope => exact List.mem_append_left _ colon

theorem str_injective : Function.Injective str := by
  intro a b same
  have marked : ∀ {x y s : Text}, ofChar '%' ∉ x → x = y ++ ofChar '%' :: s → False := by
    rintro x y s plain rfl
    exact plain (List.mem_append_right _ List.mem_cons_self)
  cases a with
  | v4 x =>
    cases b with
    | v4 y =>
      have some : ∀ ip : BitVec 32, (octets ip).map (fun n => text (toString n)) ≠ [] := fun _ =>
        List.cons_ne_nil _ _
      have plain : ∀ ip : BitVec 32, ∀ g ∈ (octets ip).map (fun n => text (toString n)), ofChar '.' ∉ g := by
        intro ip g mem
        obtain ⟨n, _, rfl⟩ := List.mem_map.mp mem
        exact (octetText_plain n).1
      have parts := join_injective (plain x) (plain y) (some x) (some y) same
      rw [octets_injective (List.map_injective_iff.mpr octetText_injective parts)]
    | v6 y scope => exact absurd (same ▸ str_v6_colon y scope) (str_v4_plain x)
  | v6 x scope =>
    cases b with
    | v4 y => exact absurd (same ▸ str_v6_colon x scope) (str_v4_plain y)
    | v6 y scope' =>
      cases scope with
      | none =>
        cases scope' with
        | none => rw [number_injective same]
        | some t => exact (marked (number_unscoped x) same).elim
      | some s =>
        cases scope' with
        | none => exact (marked (number_unscoped y) same.symm).elim
        | some t =>
          have cut : ∀ (ip : BitVec 128) (u : Scope), (str (.v6 ip (some u))).splitOn (ofChar '%') =
              [join ':' (compress (groups ip)), u.name] := by
            intro ip u
            change (join ':' (compress (groups ip)) ++ ofChar '%' :: u.name).splitOn _ = _
            rw [List.splitOn_append_cons_self_of_not_mem (number_unscoped ip),
              List.splitOn_eq_singleton u.plain]
          have parts : [join ':' (compress (groups x)), s.name] = [join ':' (compress (groups y)), t.name] := by
            rw [← cut x s, ← cut y t, same]
          obtain ⟨numbers, names⟩ := List.cons.inj parts
          have nameSame : s = t := by
            cases s
            cases t
            cases names
            rfl
          rw [number_injective numbers, nameSame]

end Mirage.IpAddress
