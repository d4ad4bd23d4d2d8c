import Mirage.OrderedJson

/-! `json.dumps(obj, sort_keys=True, separators=(",", ":"))`, which escapes what is no
printable ASCII character, one escape for each UTF-16 unit. -/

namespace Mirage.AsciiJson
open PythonText Raw JsonLoads CanonicalInjective

def units (p : CodePoint) : Text :=
  if p.val < 0x10000 then [p]
  else [point (0xD800 + (p.val - 0x10000) / 0x400), point (0xDC00 + (p.val - 0x10000) % 0x400)]

def hex (n : ℕ) : CodePoint := ofChar (Json.hexDigit n)

def unicode (u : CodePoint) : Text :=
  [ofChar '\\', ofChar 'u', hex (u.val / 4096), hex (u.val / 256 % 16), hex (u.val / 16 % 16), hex (u.val % 16)]

def low (p : CodePoint) : Bool := p.val < 0x7F

def asciiPoint (p : CodePoint) : Text := if low p then escapePoint p else (units p).flatMap unicode

def asciiQuote (t : Text) : Text := ofChar '"' :: (t.flatMap asciiPoint ++ [ofChar '"'])

mutual
def dumpsAscii : Raw → Text
  | .str t => asciiQuote t
  | .arr items => ofChar '[' :: (join (asciiItems items) ++ [ofChar ']'])
  | .obj members =>
    ofChar '\x7b' :: (join ((sortMembers (asciiMembers members)).map fun m => asciiQuote m.1 ++ ofChar ':' :: m.2) ++
      [ofChar '\x7d'])
  | value => dumps value
def asciiItems : List Raw → List Text
  | [] => []
  | item :: rest => dumpsAscii item :: asciiItems rest
def asciiMembers : List (Text × Raw) → List (Text × Text)
  | [] => []
  | (name, value) :: rest => (name, dumpsAscii value) :: asciiMembers rest
end

theorem asciiItems_eq (items : List Raw) : asciiItems items = items.map dumpsAscii := by
  induction items with
  | nil => rfl
  | cons item rest ih => rw [asciiItems, ih, List.map_cons]

theorem asciiMembers_eq (members : List (Text × Raw)) :
    asciiMembers members = members.map fun m => (m.1, dumpsAscii m.2) := by
  induction members with
  | nil => rfl
  | cons m rest ih => rw [asciiMembers, ih, List.map_cons]

theorem dumpsAscii_obj (members : List (Text × Raw)) : dumpsAscii (.obj members) =
    ofChar '\x7b' :: (join ((sortKeys members).map (entry asciiQuote dumpsAscii)) ++ [ofChar '\x7d']) := by
  rw [dumpsAscii, asciiMembers_eq, sortMembers, insertionSort_values, List.map_map]
  rfl

mutual
def pointsIn (P : CodePoint → Bool) : Raw → Bool
  | .str t => t.all P
  | .arr items => pointsInItems P items
  | .obj members => pointsInMembers P members
  | _ => true
def pointsInItems (P : CodePoint → Bool) : List Raw → Bool
  | [] => true
  | item :: rest => pointsIn P item && pointsInItems P rest
def pointsInMembers (P : CodePoint → Bool) : List (Text × Raw) → Bool
  | [] => true
  | (name, value) :: rest => name.all P && pointsIn P value && pointsInMembers P rest
end

theorem pointsInItems_iff {P : CodePoint → Bool} {items : List Raw} :
    pointsInItems P items = true ↔ ∀ v ∈ items, pointsIn P v = true := by
  induction items with
  | nil => simp [pointsInItems]
  | cons item rest ih => rw [pointsInItems, Bool.and_eq_true, ih, List.forall_mem_cons]

theorem pointsInMembers_iff {P : CodePoint → Bool} {members : List (Text × Raw)} :
    pointsInMembers P members = true ↔ ∀ m ∈ members, m.1.all P = true ∧ pointsIn P m.2 = true := by
  induction members with
  | nil => simp [pointsInMembers]
  | cons m rest ih => rw [pointsInMembers, Bool.and_eq_true, Bool.and_eq_true, ih, List.forall_mem_cons]

/-! What relates the texts of code points relates the texts of values. -/

def Bare (s : Text) : Prop := ∀ p ∈ s, low p = true ∧ p ≠ ofChar '\\'

theorem bare_mark {c : Char} (known : c.toNat < 0x7F ∧ c ≠ '\\') : Bare [ofChar c] := by
  intro p mem
  rw [List.mem_singleton.mp mem]
  exact ⟨decide_eq_true known.1, fun same => known.2 (ofChar_injective same)⟩

structure Lifts (R : Text → Text → Prop) : Prop where
  append : ∀ {s s' t t' : Text}, R s t → R s' t' → R (s ++ s') (t ++ t')
  bare : ∀ s, Bare s → R s s

section
variable {R : Text → Text → Prop} (lifts : Lifts R)

include lifts

theorem lift_cons {c : Char} (mark : Bare [ofChar c]) {s t : Text} (rest : R s t) : R (ofChar c :: s) (ofChar c :: t) :=
  lifts.append (lifts.bare [ofChar c] mark) rest

theorem lift_quote {t : Text} (points : ∀ p ∈ t, R (asciiPoint p) (escapePoint p)) : R (asciiQuote t) (quote t) := by
  have mark : Bare [ofChar '"'] := bare_mark (by decide)
  refine lift_cons lifts mark (lifts.append ?_ (lifts.bare _ mark))
  induction t with
  | nil => exact lifts.bare [] (fun _ mem => (by cases mem))
  | cons p t ih =>
    rw [List.flatMap_cons, List.flatMap_cons]
    exact lifts.append (points p List.mem_cons_self) (ih fun q mem => points q (List.mem_cons_of_mem p mem))

theorem lift_join {α : Type} {f g : α → Text} {xs : List α} (each : ∀ x ∈ xs, R (f x) (g x)) :
    R (join (xs.map f)) (join (xs.map g)) := by
  induction xs with
  | nil => exact lifts.bare [] (fun _ mem => (by cases mem))
  | cons x xs ih =>
    have first := each x List.mem_cons_self
    have later := ih fun y mem => each y (List.mem_cons_of_mem x mem)
    cases xs with
    | nil =>
      have single (h : α → Text) : join ([x].map h) = h x := List.append_nil _
      rwa [single, single]
    | cons y xs =>
      rw [List.map_cons, List.map_cons, join_more, List.map_cons, List.map_cons, join_more]
      exact lifts.append first (lift_cons lifts (bare_mark (by decide)) later)

end

theorem bare_text {s : String} (known : (s.toList.all fun c => c.toNat < 0x7F && c ≠ '\\') = true) : Bare (text s) := by
  intro p mem
  obtain ⟨c, listed, rfl⟩ := List.mem_map.mp mem
  have plain := List.all_eq_true.mp known c listed
  simp only [Bool.and_eq_true, decide_eq_true_eq] at plain
  refine ⟨decide_eq_true plain.1, fun same => ?_⟩
  exact absurd (ofChar_injective same) plain.2

theorem bare_of_chars {s : String} {P : Char → Bool} (all : s.toList.all P = true)
    (each : ∀ c, P c = true → c.toNat < 0x7F ∧ c ≠ '\\') : Bare (text s) := by
  refine bare_text (List.all_eq_true.mpr fun c mem => ?_)
  obtain ⟨ascii, other⟩ := each c (List.all_eq_true.mp all c mem)
  rw [Bool.and_eq_true, decide_eq_true_eq, decide_eq_true_eq]
  exact ⟨ascii, other⟩

theorem bare_float {s : String} (form : floatText s = true) : Bare (text s) := by
  rw [floatText, Bool.or_eq_true, Bool.and_eq_true, decide_eq_true_eq] at form
  rcases form with named | ⟨chars, -⟩
  · simp only [List.mem_cons, List.not_mem_nil, or_false] at named
    rcases named with rfl | rfl | rfl
    all_goals exact bare_text (by decide)
  · refine bare_of_chars chars fun c listed => ?_
    have plain : ∀ c ∈ "0123456789.e+-".toList, c.toNat < 0x7F ∧ c ≠ '\\' :=
      forall_mem_of_all (by decide)
    exact plain c (of_decide_eq_true listed)

theorem bare_int (n : Int) : Bare (text (toString n)) := by
  refine bare_of_chars (numeral_toString n) fun c numeral => ?_
  rw [Bool.or_eq_true, decide_eq_true_eq] at numeral
  rcases numeral with digit | rfl
  · rw [Char.isDigit, Bool.and_eq_true, decide_eq_true_eq, decide_eq_true_eq] at digit
    have below : c.toNat ≤ 57 := digit.2
    refine ⟨by omega, ?_⟩
    rintro rfl
    exact absurd below (by decide)
  · decide

section
variable {R : Text → Text → Prop} {P : CodePoint → Bool}

mutual
theorem lift_dumps (lifts : Lifts R) (points : ∀ p, P p = true → R (asciiPoint p) (escapePoint p)) :
    (v : Raw) → wellFormed v = true → pointsIn P v = true → R (dumpsAscii v) (dumps v)
  | .null, _, _ => lifts.bare _ (bare_text (s := "null") (by decide))
  | .bool true, _, _ => lifts.bare _ (bare_text (s := "true") (by decide))
  | .bool false, _, _ => lifts.bare _ (bare_text (s := "false") (by decide))
  | .int n, _, _ => lifts.bare _ (bare_int n)
  | .float _ _, known, _ => lifts.bare _ (bare_float known)
  | .str t, _, inside => lift_quote lifts fun p mem => points p (List.all_eq_true.mp inside p mem)
  | .arr items, known, inside => by
    rw [dumpsAscii, asciiItems_eq, dumps, dumpsItems_eq]
    exact lift_cons lifts (bare_mark (by decide)) (lifts.append
      (lift_join lifts (lift_items lifts points items known inside)) (lifts.bare _ (bare_mark (by decide))))
  | .obj members, known, inside => by
    rw [wellFormed, Bool.and_eq_true] at known
    rw [dumpsAscii_obj, dumps_obj]
    refine lift_cons lifts (bare_mark (by decide))
      (lifts.append (lift_join lifts fun m mem => ?_) (lifts.bare _ (bare_mark (by decide))))
    have listed := (sortKeys_perm members).mem_iff.mp mem
    exact lifts.append
      (lift_quote lifts fun p here => points p
        (List.all_eq_true.mp (pointsInMembers_iff.mp inside m listed).1 p here))
      (lift_cons lifts (bare_mark (by decide)) (lift_members lifts points members known.2 inside m listed))
theorem lift_items (lifts : Lifts R) (points : ∀ p, P p = true → R (asciiPoint p) (escapePoint p)) :
    (items : List Raw) → wellFormedItems items = true → pointsInItems P items = true →
      ∀ v ∈ items, R (dumpsAscii v) (dumps v)
  | [], _, _ => fun _ mem => absurd mem List.not_mem_nil
  | item :: rest, known, inside => by
    rw [wellFormedItems, Bool.and_eq_true] at known
    rw [pointsInItems, Bool.and_eq_true] at inside
    exact List.forall_mem_cons.mpr ⟨lift_dumps lifts points item known.1 inside.1, lift_items lifts points rest known.2 inside.2⟩
theorem lift_members (lifts : Lifts R) (points : ∀ p, P p = true → R (asciiPoint p) (escapePoint p)) :
    (members : List (Text × Raw)) → wellFormedMembers members = true → pointsInMembers P members = true →
      ∀ m ∈ members, R (dumpsAscii m.2) (dumps m.2)
  | [], _, _ => fun _ mem => absurd mem List.not_mem_nil
  | (_, value) :: rest, known, inside => by
    rw [wellFormedMembers, Bool.and_eq_true] at known
    rw [pointsInMembers, Bool.and_eq_true, Bool.and_eq_true] at inside
    exact List.forall_mem_cons.mpr ⟨lift_dumps lifts points value known.1 inside.1.2, lift_members lifts points rest known.2 inside.2⟩
end

end

/-! Which values are written alike. -/

theorem low_of_escape {p : CodePoint} (known : low p = true) : ∀ q ∈ escapePoint p, low q = true := by
  have below := of_decide_eq_true known
  have all : ∀ n < 0x7F, (Json.escapeChar (Char.ofNat n)).all fun c => c.toNat < 0x7F := by decide +kernel
  rw [escapePoint, if_pos (by omega)]
  intro q mem
  obtain ⟨c, listed, rfl⟩ := List.mem_map.mp mem
  exact List.all_eq_true.mp (all p.val below) c listed

theorem lifts_eq : Lifts (· = ·) where
  append := by
    rintro s s' t t' rfl rfl
    rfl
  bare _ _ := rfl

theorem dumpsAscii_of_low {v : Raw} (known : wellFormed v = true) (plain : pointsIn low v = true) :
    dumpsAscii v = dumps v :=
  lift_dumps lifts_eq (fun p plain => by rw [asciiPoint, if_pos plain]) v known plain

def Low (s _ : Text) : Prop := ∀ p ∈ s, low p = true

theorem lifts_low : Lifts Low where
  append := by
    intro s s' t t' first later p mem
    rcases List.mem_append.mp mem with here | there
    · exact first p here
    · exact later p there
  bare s bare p mem := (bare p mem).1

mutual
theorem pointsIn_true : (v : Raw) → pointsIn (fun _ => true) v = true
  | .null | .bool _ | .int _ | .float _ _ => rfl
  | .str _ => List.all_eq_true.mpr fun _ _ => rfl
  | .arr items => pointsInItems_true items
  | .obj members => pointsInMembers_true members
theorem pointsInItems_true : (items : List Raw) → pointsInItems (fun _ => true) items = true
  | [] => rfl
  | item :: rest => by
    rw [pointsInItems, pointsIn_true item, pointsInItems_true rest]
    rfl
theorem pointsInMembers_true : (members : List (Text × Raw)) → pointsInMembers (fun _ => true) members = true
  | [] => rfl
  | (name, value) :: rest => by
    rw [pointsInMembers, pointsIn_true value, pointsInMembers_true rest, List.all_eq_true.mpr fun _ _ => rfl]
    rfl
end

theorem low_hex (n : ℕ) : low (hex n) = true := by
  by_cases digit : n < 16
  · have all : ∀ n < 16, low (hex n) = true := by decide
    exact all n digit
  · have beyond : Json.hexDigit n = '0' := by
      rw [Json.hexDigit, List.getD_eq_getElem?_getD, List.getElem?_eq_none (Nat.le_of_not_lt digit)]
      rfl
    rw [hex, beyond]
    rfl

theorem low_unicode (u : CodePoint) : ∀ q ∈ unicode u, low q = true := by
  have mark : low (ofChar '\\') = true ∧ low (ofChar 'u') = true := by decide
  simp only [unicode, List.mem_cons, List.not_mem_nil, or_false]
  rintro q (rfl | rfl | rfl | rfl | rfl | rfl)
  · exact mark.1
  · exact mark.2
  all_goals exact low_hex _

theorem low_asciiPoint (p : CodePoint) : ∀ q ∈ asciiPoint p, low q = true := by
  rw [asciiPoint]
  split
  · exact low_of_escape ‹_›
  · intro q mem
    obtain ⟨u, -, here⟩ := List.mem_flatMap.mp mem
    exact low_unicode u q here

theorem low_dumpsAscii {v : Raw} (known : wellFormed v = true) : ∀ p ∈ dumpsAscii v, low p = true :=
  lift_dumps lifts_low (fun p _ => low_asciiPoint p) v known (pointsIn_true v)

theorem subset_join {parts : List Text} {part : Text} (mem : part ∈ parts) : part ⊆ join parts := by
  cases parts with
  | nil => cases mem
  | cons first rest =>
    rw [join_cons]
    intro p here
    rcases List.mem_cons.mp mem with rfl | later
    · exact List.mem_append_left _ here
    · exact List.mem_append_right _ (List.mem_flatMap.mpr ⟨part, later, List.mem_cons_of_mem _ here⟩)

theorem low_of_quote {t : Text} (known : ∀ p ∈ quote t, low p = true) : t.all low = true := by
  rw [List.all_eq_true]
  intro p mem
  by_contra other
  have high : ¬ p.val < 0x7F := fun below => other (decide_eq_true below)
  have written : p ∈ escapePoint p := by
    rw [escapePoint]
    split
    · have del : p = ofChar '\x7f' := Fin.ext (show p.val = 0x7F by omega)
      rw [del]
      decide
    · exact List.mem_singleton_self p
  refine other (known p (List.mem_cons_of_mem _ (List.mem_append_left _ ?_)))
  exact List.mem_flatMap.mpr ⟨p, mem, written⟩

mutual
theorem low_of_dumps : (v : Raw) → (∀ p ∈ dumps v, low p = true) → pointsIn low v = true
  | .null, _ | .bool _, _ | .int _, _ | .float _ _, _ => rfl
  | .str _, known => low_of_quote known
  | .arr items, known => by
    rw [pointsIn, pointsInItems_iff]
    rw [dumps, dumpsItems_eq] at known
    exact low_of_items items fun v mem p here => known p (List.mem_cons_of_mem _ (List.mem_append_left _
      (subset_join (List.mem_map_of_mem mem) here)))
  | .obj members, known => by
    rw [pointsIn, pointsInMembers_iff]
    rw [dumps_obj] at known
    have each : ∀ m ∈ members, ∀ p ∈ memberOf m, low p = true := fun m mem p here =>
      known p (List.mem_cons_of_mem _ (List.mem_append_left _
        (subset_join (List.mem_map_of_mem ((sortKeys_perm members).mem_iff.mpr mem)) here)))
    refine fun m mem => ⟨low_of_quote fun p here => each m mem p (List.mem_append_left _ here), ?_⟩
    exact low_of_members members (fun m mem p here => each m mem p
      (List.mem_append_right _ (List.mem_cons_of_mem _ here))) m mem
theorem low_of_items : (items : List Raw) → (∀ v ∈ items, ∀ p ∈ dumps v, low p = true) →
    ∀ v ∈ items, pointsIn low v = true
  | [], _ => fun _ mem => absurd mem List.not_mem_nil
  | item :: rest, known => List.forall_mem_cons.mpr ⟨low_of_dumps item (known item List.mem_cons_self),
      low_of_items rest fun v mem => known v (List.mem_cons_of_mem item mem)⟩
theorem low_of_members : (members : List (Text × Raw)) → (∀ m ∈ members, ∀ p ∈ dumps m.2, low p = true) →
    ∀ m ∈ members, pointsIn low m.2 = true
  | [], _ => fun _ mem => absurd mem List.not_mem_nil
  | (_, value) :: rest, known => List.forall_mem_cons.mpr ⟨low_of_dumps value (known _ List.mem_cons_self),
      low_of_members rest fun m mem => known m (List.mem_cons_of_mem _ mem)⟩
end

theorem dumpsAscii_eq_iff {v : Raw} (known : wellFormed v = true) :
    dumpsAscii v = dumps v ↔ pointsIn low v = true := by
  constructor
  · intro equal
    refine low_of_dumps v ?_
    rw [← equal]
    exact low_dumpsAscii known
  · exact dumpsAscii_of_low known

def decodeUnits : Text → Text
  | [] => []
  | p :: rest =>
    if p = ofChar '\\' then
      match rest with
      | [] => [p]
      | q :: rest =>
        if q = ofChar 'u' then
          match rest with
          | a :: b :: c :: d :: rest =>
            match hex4 a b c d with
            | some n => if 0x7F ≤ n then point n :: decodeUnits rest else p :: q :: a :: b :: c :: d :: decodeUnits rest
            | none => p :: q :: a :: b :: c :: d :: decodeUnits rest
          | _ => p :: q :: rest
        else p :: q :: decodeUnits rest
    else p :: decodeUnits rest

theorem decode_plain {p : CodePoint} (other : p ≠ ofChar '\\') (x : Text) :
    decodeUnits (p :: x) = p :: decodeUnits x := by
  rw [decodeUnits.eq_def]
  simp only [if_neg other]

theorem decode_short {q : CodePoint} (other : q ≠ ofChar 'u') (x : Text) :
    decodeUnits (ofChar '\\' :: q :: x) = ofChar '\\' :: q :: decodeUnits x := by
  rw [decodeUnits.eq_def]
  simp only [if_true, if_neg other]

theorem decode_escape {a b c d : CodePoint} {n : ℕ} (known : hex4 a b c d = some n) (x : Text) :
    decodeUnits (ofChar '\\' :: ofChar 'u' :: a :: b :: c :: d :: x) =
      if 0x7F ≤ n then point n :: decodeUnits x
      else ofChar '\\' :: ofChar 'u' :: a :: b :: c :: d :: decodeUnits x := by
  rw [decodeUnits.eq_def]
  simp only [if_true, known]

theorem hexDigit?_hex : ∀ n < 16, hexDigit? (hex n) = some n := by decide

theorem hex4_unicode {n : ℕ} (short : n < 0x10000) :
    hex4 (hex (n / 4096)) (hex (n / 256 % 16)) (hex (n / 16 % 16)) (hex (n % 16)) = some n := by
  rw [hex4, hexDigit?_hex _ (by omega), hexDigit?_hex _ (by omega), hexDigit?_hex _ (by omega),
    hexDigit?_hex _ (by omega)]
  show some _ = some n
  congr 1
  omega

theorem point_val (p : CodePoint) : point p.val = p := Fin.ext (Nat.mod_eq_of_lt p.isLt)

theorem decode_units {us : Text} (each : ∀ u ∈ us, 0x7F ≤ u.val ∧ u.val < 0x10000) (x : Text) :
    decodeUnits (us.flatMap unicode ++ x) = us ++ decodeUnits x := by
  induction us with
  | nil => rfl
  | cons u us ih =>
    obtain ⟨high, short⟩ := each u List.mem_cons_self
    have later := ih fun v mem => each v (List.mem_cons_of_mem u mem)
    have first := decode_escape (hex4_unicode short) (us.flatMap unicode ++ x)
    rw [if_pos high, later, point_val] at first
    exact first

theorem units_low {p : CodePoint} (known : low p = true) : units p = [p] := by
  have below := of_decide_eq_true known
  rw [units, if_pos (by omega)]

theorem flatMap_units {t : Text} (known : ∀ p ∈ t, low p = true) : t.flatMap units = t := by
  induction t with
  | nil => rfl
  | cons p t ih =>
    rw [List.flatMap_cons, units_low (known p List.mem_cons_self), ih fun q mem => known q (List.mem_cons_of_mem p mem)]
    rfl

theorem units_high {p : CodePoint} (high : ¬ low p) : ∀ u ∈ units p, 0x7F ≤ u.val ∧ u.val < 0x10000 := by
  have above : ¬ p.val < 0x7F := fun below => high (decide_eq_true below)
  have bound := p.isLt
  unfold units
  split
  · intro u mem
    rw [List.mem_singleton.mp mem]
    omega
  · have val (n : ℕ) (short : n < 0x110000) : (point n).val = n := Nat.mod_eq_of_lt short
    intro u mem
    simp only [List.mem_cons, List.not_mem_nil, or_false] at mem
    rcases mem with rfl | rfl
    · rw [val _ (by omega)]
      omega
    · rw [val _ (by omega)]
      omega

theorem escapePoint_high {p : CodePoint} (high : ¬ low p) : escapePoint p = [p] := by
  have above : ¬ p.val < 0x7F := fun below => high (decide_eq_true below)
  rw [escapePoint]
  split
  · have del : p = ofChar '\x7f' := Fin.ext (show p.val = 0x7F by omega)
    rw [del]
    decide
  · rfl

def Decoded (s t : Text) : Prop := ∀ x, decodeUnits (s ++ x) = t.flatMap units ++ decodeUnits x

theorem lifts_decoded : Lifts Decoded where
  append := by
    intro s s' t t' first later x
    rw [List.append_assoc, first, later, List.flatMap_append, List.append_assoc]
  bare s bare x := by
    rw [flatMap_units fun p mem => (bare p mem).1]
    induction s with
    | nil => rfl
    | cons p s ih =>
      rw [List.cons_append, decode_plain (bare p List.mem_cons_self).2,
        ih fun q mem => bare q (List.mem_cons_of_mem p mem), List.cons_append]

theorem decoded_point (p : CodePoint) : Decoded (asciiPoint p) (escapePoint p) := by
  intro x
  rw [asciiPoint]
  split
  · rename_i known
    rw [flatMap_units (low_of_escape known)]
    have written := escaped p
    generalize escapePoint p = w at written ⊢
    cases written with
    | plain quoted slash printed => exact decode_plain slash x
    | short q known other => exact decode_short other x
    | control below =>
      have decoded := decode_escape (hex4_control p.val below) x
      rw [if_neg (by omega)] at decoded
      exact decoded
  · rename_i high
    rw [decode_units (units_high high), escapePoint_high high, List.flatMap_singleton]

theorem same_of_ascii {v w : Raw} (knownV : wellFormed v = true) (knownW : wellFormed w = true)
    (equal : dumps w = dumpsAscii v) : same w v = true := by
  have decoded {u : Raw} (known : wellFormed u = true) : decodeUnits (dumpsAscii u) = (dumps u).flatMap units := by
    have all := lift_dumps lifts_decoded (fun p _ => decoded_point p) u known (pointsIn_true u) []
    rw [List.append_nil] at all
    exact all.trans (List.append_nil _)
  have lowW : ∀ p ∈ dumps w, low p = true := by
    rw [equal]
    exact low_dumpsAscii knownV
  -- the text of `w` is that of the units of `v`, and it has no unit that is not ASCII
  have texts : dumps w = (dumps v).flatMap units := by
    rw [← decoded knownV, ← equal, ← dumpsAscii_of_low knownW (low_of_dumps w lowW), decoded knownW,
      dumpsAscii_of_low knownW (low_of_dumps w lowW), flatMap_units lowW]
  have lowV : ∀ p ∈ dumps v, low p = true := by
    intro p mem
    by_contra high
    obtain ⟨u, listed⟩ : ∃ u, u ∈ units p := by
      unfold units
      split
      · exact ⟨p, List.mem_singleton_self p⟩
      · exact ⟨_, List.mem_cons_self⟩
    have below := of_decide_eq_true (lowW u (by rw [texts]; exact List.mem_flatMap.mpr ⟨p, mem, listed⟩))
    have above := (units_high high u listed).1
    omega
  rw [flatMap_units lowV] at texts
  exact same_of_dumps w knownW v knownV texts

/-! `json.loads` reads the value back. -/

theorem scanString_backslash (start fuel : ℕ) (t : Text) : scanString start (fuel + 1) (ofChar '\\' :: t) = (do
    let (q, rest) ← escape start t
    let (t, rest) ← scanString start fuel rest
    return (q :: t, rest)) := by
  have quoted : ofChar '\\' ≠ ofChar '"' := by decide
  have printed : ¬ (ofChar '\\').val < 0x20 := by decide
  rw [scanString, if_neg quoted, if_neg printed, if_pos rfl]

theorem escape_unicode (start : ℕ) (t : Text) : escape start (ofChar 'u' :: t) = unicodeEscape t := by
  rw [escape, if_pos rfl]

theorem escape_unit (start : ℕ) {u : CodePoint} (short : u.val < 0x10000) (proper : isHigh u.val = false)
    (next : CodePoint) (rest : Text) :
    escape start (ofChar 'u' :: hex (u.val / 4096) :: hex (u.val / 256 % 16) :: hex (u.val / 16 % 16) ::
      hex (u.val % 16) :: next :: rest) = .ok (u, next :: rest) := by
  rw [escape_unicode, unicodeEscape, hex4_unicode short]
  simp only [proper, Bool.false_eq_true, if_false, point_val]

theorem escape_units (start : ℕ) {high low : CodePoint} (isHigh' : isHigh high.val = true) (isLow' : isLow low.val = true)
    (next : CodePoint) (rest : Text) :
    escape start ((unicode high).tail ++ (unicode low ++ next :: rest)) =
      .ok (point (joinSurrogates high.val low.val), next :: rest) := by
  have boundHigh : high.val < 0x10000 := by
    rw [isHigh, Bool.and_eq_true, decide_eq_true_eq, decide_eq_true_eq] at isHigh'
    omega
  have boundLow : low.val < 0x10000 := by
    rw [isLow, Bool.and_eq_true, decide_eq_true_eq, decide_eq_true_eq] at isLow'
    omega
  have second : lowSurrogate high.val (unicode low ++ next :: rest) =
      .ok (point (joinSurrogates high.val low.val), next :: rest) := by
    simp only [unicode, List.cons_append, List.nil_append]
    rw [lowSurrogate]
    simp only [and_self, if_true, hex4_unicode boundLow, isLow']
  simp only [unicode, List.tail_cons, List.cons_append, List.nil_append] at second ⊢
  rw [escape_unicode, unicodeEscape, hex4_unicode boundHigh]
  simp only [isHigh', if_true]
  exact second

theorem readsPoint_ascii {p : CodePoint} (proper : isSurrogate p = false) : ReadsPoint asciiPoint p := by
  by_cases known : low p = true
  · have same : asciiPoint p = escapePoint p := by rw [asciiPoint, if_pos known]
    rw [ReadsPoint, same]
    exact readsPoint_escape p
  · rw [ReadsPoint, asciiPoint, if_neg known]
    rw [isSurrogate, Bool.and_eq_false_iff, decide_eq_false_iff_not, decide_eq_false_iff_not] at proper
    have bound := p.isLt
    unfold units
    split
    · rename_i short
      refine ⟨by simp [unicode], fun start fuel next rest => ?_⟩
      have notHigh : isHigh p.val = false := by
        rw [isHigh, Bool.and_eq_false_iff, decide_eq_false_iff_not, decide_eq_false_iff_not]
        omega
      have read := escape_unit start short notHigh next rest
      simp only [List.flatMap_cons, List.flatMap_nil, List.append_nil, unicode, List.cons_append, List.nil_append]
      rw [scanString_backslash, read]
      rfl
    · rename_i long
      have val (n : ℕ) (short : n < 0x110000) : (point n).val = n := Nat.mod_eq_of_lt short
      obtain ⟨high, highIs⟩ : ∃ high, high = point (0xD800 + (p.val - 0x10000) / 0x400) := ⟨_, rfl⟩
      obtain ⟨low, lowIs⟩ : ∃ low, low = point (0xDC00 + (p.val - 0x10000) % 0x400) := ⟨_, rfl⟩
      have valHigh : high.val = 0xD800 + (p.val - 0x10000) / 0x400 := by rw [highIs, val _ (by omega)]
      have valLow : low.val = 0xDC00 + (p.val - 0x10000) % 0x400 := by rw [lowIs, val _ (by omega)]
      rw [← highIs, ← lowIs]
      have isHigh' : isHigh high.val = true := by
        rw [isHigh, Bool.and_eq_true, decide_eq_true_eq, decide_eq_true_eq]
        omega
      have isLow' : isLow low.val = true := by
        rw [isLow, Bool.and_eq_true, decide_eq_true_eq, decide_eq_true_eq]
        omega
      have joined : point (joinSurrogates high.val low.val) = p := by
        have whole : joinSurrogates high.val low.val = p.val := by
          unfold joinSurrogates
          omega
        exact (congrArg point whole).trans (point_val p)
      refine ⟨by simp [unicode], fun start fuel next rest => ?_⟩
      have read := escape_units start isHigh' isLow' next rest
      rw [joined] at read
      have form : [high, low].flatMap unicode ++ next :: rest =
          ofChar '\\' :: ((unicode high).tail ++ (unicode low ++ next :: rest)) := by
        simp [unicode]
      rw [form, scanString_backslash, read]
      rfl

theorem readsText_ascii {t : Text} (proper : scalar t = true) : ReadsText (asciiQuote t) t := by
  refine readsText_points fun p mem => readsPoint_ascii ?_
  simpa using List.all_eq_true.mp proper p mem

section
variable {py : Interpreter}

mutual
theorem readsAs_ascii : (v : Raw) → readable py v = true → isScalar v = true →
    ReadsAs py (dumpsAscii v) (ordered v)
  | .null, known, _ => reads_value .null known
  | .bool b, known, _ => reads_value (.bool b) known
  | .int n, known, _ => reads_value (.int n) known
  | .float repr integral, known, _ => reads_value (.float repr integral) known
  | .str _, _, proper => readsAs_str (readsText_ascii proper)
  | .arr items, known, proper => by
    have each := readsAs_arr (readsAs_items items known proper)
    rw [← asciiItems_eq, ← orderedItems_eq] at each
    exact each
  | .obj members, known, proper => by
    rw [readable, Bool.and_eq_true, decide_eq_true_eq] at known
    have perm := sortKeys_perm members
    have unique : ((sortKeys members).map Prod.fst).Nodup := (perm.map Prod.fst).nodup_iff.mpr known.1
    have each := readsAs_members members known.2 proper
    have written := readsAs_obj unique fun m mem => each m (perm.mem_iff.mp mem)
    rw [dumpsAscii_obj, ordered_obj]
    exact written
theorem readsAs_items : (items : List Raw) → readableItems py items = true → scalarItems items = true →
    ∀ v ∈ items, ReadsAs py (dumpsAscii v) (ordered v)
  | [], _, _ => fun _ mem => absurd mem List.not_mem_nil
  | item :: rest, known, proper => by
    rw [readableItems, Bool.and_eq_true] at known
    rw [scalarItems, Bool.and_eq_true] at proper
    exact List.forall_mem_cons.mpr ⟨readsAs_ascii item known.1 proper.1, readsAs_items rest known.2 proper.2⟩
theorem readsAs_members : (members : List (Text × Raw)) → readableMembers py members = true →
    scalarMembers members = true → ∀ m ∈ members, ReadsEntry py asciiQuote dumpsAscii ordered m
  | [], _, _ => fun _ mem => absurd mem List.not_mem_nil
  | (_, value) :: rest, known, proper => by
    rw [readableMembers, Bool.and_eq_true] at known
    rw [scalarMembers, Bool.and_eq_true, Bool.and_eq_true] at proper
    exact List.forall_mem_cons.mpr ⟨⟨readsText_ascii proper.1.1, readsAs_ascii value known.1 proper.1.2⟩,
      readsAs_members rest known.2 proper.2⟩
end

theorem decode_ascii {v : Raw} (known : readable py v = true) (proper : isScalar v = true) :
    decode py (dumpsAscii v) = .ok (ordered v) := by
  have reads := readsAs_ascii v known proper
  have plain := reads.skip_eq []
  have scanned := reads.2 (2 * (dumpsAscii v).length + 2) [] trivial (by omega)
  rw [List.append_nil] at plain scanned
  rw [decode, plain, scanned]
  rfl

end

/-- `json.dumps(obj, sort_keys=True, separators=(",", ":")).encode()`; the text is ASCII. -/
def asciiBytes (v : Raw) : ByteArray := (String.ofList ((dumpsAscii v).map toChar)).toUTF8

theorem scalar_of_low {t : Text} (known : ∀ p ∈ t, low p = true) : scalar t = true := by
  refine List.all_eq_true.mpr fun p mem => ?_
  have below := of_decide_eq_true (known p mem)
  rw [Bool.not_eq_true', isSurrogate, Bool.and_eq_false_iff, decide_eq_false_iff_not]
  omega

theorem encodeUtf8_ascii {v : Raw} (known : wellFormed v = true) : encodeUtf8 (dumpsAscii v) = some (asciiBytes v) := by
  rw [encodeUtf8, if_pos (scalar_of_low (low_dumpsAscii known)), asciiBytes]

theorem canonical_eq_ascii_iff {v w : Raw} (known : wellFormed v = true) :
    canonicalJsonBytes w = some (asciiBytes v) ↔ dumps w = dumpsAscii v := by
  rw [canonicalJsonBytes, ← encodeUtf8_ascii known]
  constructor
  · intro equal
    have scalars {s : Text} {bytes : ByteArray} (encoded : encodeUtf8 s = some bytes) : scalar s = true := by
      rw [encodeUtf8] at encoded
      split at encoded
      · assumption
      · cases encoded
    rw [encodeUtf8_ascii known] at equal
    exact encodeUtf8_injective (scalars equal) (scalars (encodeUtf8_ascii known))
      (equal.trans (encodeUtf8_ascii known).symm)
  · intro equal
    rw [equal]

theorem dumpsAscii_obj_head (members : List (Text × Raw)) :
    ∃ c ∈ ['"', '\x7d'], ∃ rest, dumpsAscii (.obj members) = ofChar '\x7b' :: ofChar c :: rest := by
  rw [dumpsAscii_obj]
  cases sortKeys members with
  | nil => exact ⟨'\x7d', by decide, [], rfl⟩
  | cons m rest =>
    rw [List.map_cons, CanonicalInjective.join_cons]
    exact ⟨'"', by decide, _, rfl⟩

theorem loads_ascii {py : Interpreter} {members : List (Text × Raw)} (formed : wellFormed (.obj members) = true)
    (known : readable py (.obj members) = true) (proper : isScalar (.obj members) = true) :
    loads py (asciiBytes (.obj members)) = .ok (ordered (.obj members)) := by
  rw [loads, decodeBytes_obj (dumpsAscii_obj_head members) (encodeUtf8_ascii formed)]
  exact decode_ascii known proper

/-- What is written of an object, as canonical JSON or in ASCII, is read back as the object with its keys in
order. That object is written as the same bytes and read back as itself. -/
theorem json_round_trip {py : Interpreter} {members : List (Text × Raw)} (formed : wellFormed (.obj members) = true)
    (known : readable py (.obj members) = true) (proper : isScalar (.obj members) = true) :
    ∃ bytes sorted, canonicalJsonBytes (.obj members) = some bytes ∧ loads py bytes = .ok (.obj sorted) ∧
      loads py (asciiBytes (.obj members)) = .ok (.obj sorted) ∧
      canonicalJsonBytes (.obj sorted) = some bytes ∧ ordered (.obj sorted) = .obj sorted := by
  have written := canonicalJsonBytes_getD proper
  have again := (OrderedJson.canonical_ordered (.obj members)).trans written
  have read := loads_canonical known written
  have read' := loads_canonical (OrderedJson.readable_ordered _ known) again
  refine ⟨_, sortKeys (orderedMembers members), written, read, loads_ascii formed known proper, again, ?_⟩
  rw [read, Except.ok.injEq] at read'
  exact read'.symm

theorem json_round_trip_text : ∃ bytes sorted,
    canonicalJsonBytes (.obj [(text "b", .str (text "é")), (text "a", .int 7)]) = some bytes ∧
      loads ⟨fun _ => ("NaN", none), fun _ => .error .unicodeDecodeError⟩ bytes = .ok (.obj sorted) := by
  obtain ⟨bytes, sorted, written, read, -⟩ := @json_round_trip
    ⟨fun _ => ("NaN", none), fun _ => .error .unicodeDecodeError⟩
    [(text "b", .str (text "é")), (text "a", .int 7)] (by decide +kernel) (by decide +kernel) (by decide +kernel)
  exact ⟨bytes, sorted, written, read⟩

end Mirage.AsciiJson
