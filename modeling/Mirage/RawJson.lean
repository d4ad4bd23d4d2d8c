import Mirage.JsonValue
import Mirage.PythonText

/-! JSON values whose texts are Python texts, as `json.loads` returns them for any input,
and `canonical_json_bytes` of envelope.py on them. -/

namespace Mirage
open PythonText

inductive Raw where
  | null
  | bool (value : Bool)
  | int (value : Int)
  | float (repr : String) (integral : Option Int)
  | str (value : Text)
  | arr (items : List Raw)
  | obj (members : List (Text × Raw))

namespace Raw

def member (name : Text) : List (Text × Raw) → Option Raw
  | [] => none
  | (other, value) :: rest => if other = name then some value else member name rest

/-- `value.get(name)` on a dictionary; nothing on any other value. -/
def get? : Raw → String → Option Raw
  | obj members, name => member (text name) members
  | _, _ => none

def setMember (name : Text) (value : Raw) : List (Text × Raw) → List (Text × Raw)
  | [] => [(name, value)]
  | (other, old) :: rest =>
    if other = name then (name, value) :: rest else (other, old) :: setMember name value rest

def set : Raw → String → Raw → Raw
  | obj members, name, inner => obj (setMember (text name) inner members)
  | other, _, _ => other

def escapePoint (p : CodePoint) : Text :=
  if p.val < 0x80 then (Json.escapeChar (toChar p)).map ofChar else [p]

def quote (t : Text) : Text := ofChar '"' :: (t.flatMap escapePoint ++ [ofChar '"'])

def memberText (m : Text × Text) : Text := quote m.1 ++ ofChar ':' :: m.2

def sortMembers (members : List (Text × Text)) : List (Text × Text) :=
  members.insertionSort fun a b => a.1 ≤ b.1

def join (parts : List Text) : Text := [ofChar ','].intercalate parts

mutual
/-- `json.dumps(obj, sort_keys=True, separators=(",", ":"), ensure_ascii=False)`. -/
def dumps : Raw → Text
  | null => text "null"
  | bool true => text "true"
  | bool false => text "false"
  | int n => text (toString n)
  | float repr _ => text repr
  | str t => quote t
  | arr items => ofChar '[' :: (join (dumpsItems items) ++ [ofChar ']'])
  | obj members =>
    ofChar '\x7b' :: (join ((sortMembers (dumpsMembers members)).map memberText) ++ [ofChar '\x7d'])
def dumpsItems : List Raw → List Text
  | [] => []
  | item :: rest => dumps item :: dumpsItems rest
def dumpsMembers : List (Text × Raw) → List (Text × Text)
  | [] => []
  | (name, value) :: rest => (name, dumps value) :: dumpsMembers rest
end

/-- `canonical_json_bytes`; nothing where it raises `UnicodeEncodeError`. -/
def canonicalJsonBytes (v : Raw) : Option ByteArray := encodeUtf8 (dumps v)

mutual
def isScalar : Raw → Bool
  | str t => scalar t
  | arr items => scalarItems items
  | obj members => scalarMembers members
  | _ => true
def scalarItems : List Raw → Bool
  | [] => true
  | item :: rest => isScalar item && scalarItems rest
def scalarMembers : List (Text × Raw) → Bool
  | [] => true
  | (name, value) :: rest => scalar name && isScalar value && scalarMembers rest
end

theorem member_setMember (name other : Text) (value : Raw) (members : List (Text × Raw)) :
    member other (setMember name value members) =
      if other = name then some value else member other members := by
  induction members with
  | nil => simp [setMember, member, eq_comm]
  | cons head rest ih =>
    obtain ⟨key, old⟩ := head
    by_cases found : key = name
    · subst found
      rw [setMember, if_pos rfl, member, member]
      by_cases same : key = other
      · simp [same]
      · rw [if_neg same, if_neg same, if_neg (Ne.symm same)]
    · rw [setMember, if_neg found, member, member, ih]
      by_cases same : key = other
      · subst same
        simp [found]
      · rw [if_neg same, if_neg same]

theorem get?_set_self {v : Raw} {name : String} {old : Raw} (found : v.get? name = some old)
    (value : Raw) : (v.set name value).get? name = some value := by
  cases v with
  | obj members => rw [set, get?, member_setMember, if_pos rfl]
  | _ => cases found

theorem get?_set (v : Raw) {name other : String} (value : Raw) (different : text other ≠ text name) :
    (v.set name value).get? other = v.get? other := by
  cases v with
  | obj members => rw [set, get?, member_setMember, if_neg different, get?]
  | _ => rfl

theorem mem_of_member {name : Text} {members : List (Text × Raw)} {value : Raw}
    (found : member name members = some value) : (name, value) ∈ members := by
  induction members with
  | nil => cases found
  | cons head rest ih =>
    obtain ⟨key, old⟩ := head
    rw [member] at found
    split at found
    next same =>
      cases found
      rw [same]
      exact List.mem_cons_self
    next => exact List.mem_cons_of_mem _ (ih found)

theorem member_of_mem {name : Text} {members : List (Text × Raw)} {value : Raw}
    (unique : (members.map Prod.fst).Nodup) (mem : (name, value) ∈ members) :
    member name members = some value := by
  induction members with
  | nil => cases mem
  | cons head rest ih =>
    obtain ⟨key, old⟩ := head
    rw [List.map_cons, List.nodup_cons] at unique
    rw [member]
    rcases List.mem_cons.mp mem with here | later
    · cases here
      rw [if_pos rfl]
    · have different : key ≠ name := by
        rintro rfl
        exact unique.1 (List.mem_map.mpr ⟨(key, value), later, rfl⟩)
      rw [if_neg different, ih unique.2 later]

theorem exists_member {name : Text} {members : List (Text × Raw)} (mem : name ∈ members.map Prod.fst) :
    ∃ value, member name members = some value := by
  induction members with
  | nil => cases mem
  | cons head rest ih =>
    obtain ⟨key, value⟩ := head
    rw [member]
    by_cases same : key = name
    · exact ⟨value, if_pos same⟩
    · rw [if_neg same]
      rcases List.mem_cons.mp mem with here | later
      · exact absurd here.symm same
      · exact ih later

/-! A value can be written as UTF-8 exactly if no text in it has a surrogate. -/

theorem scalar_escapePoint (p : CodePoint) : scalar (escapePoint p) = !isSurrogate p := by
  unfold escapePoint
  split
  next ascii =>
    have proper : isSurrogate p = false := by
      rw [isSurrogate, Bool.and_eq_false_iff, decide_eq_false_iff_not]
      omega
    rw [scalar_map_ofChar, proper, Bool.not_false]
  next => simp [scalar]

theorem scalar_escapes (t : Text) : scalar (t.flatMap escapePoint) = scalar t := by
  induction t with
  | nil => rfl
  | cons p t ih =>
    rw [List.flatMap_cons, scalar_append, scalar_escapePoint, ih, scalar, scalar, List.all_cons]

theorem scalar_cons_ofChar (c : Char) (t : Text) : scalar (ofChar c :: t) = scalar t := by
  rw [scalar, List.all_cons, isSurrogate_ofChar, Bool.not_false, Bool.true_and, scalar]

theorem scalar_quote (t : Text) : scalar (quote t) = scalar t := by
  rw [quote, scalar_cons_ofChar, scalar_append, scalar_escapes, scalar_cons_ofChar]
  exact Bool.and_true _

theorem scalar_join (parts : List Text) : scalar (join parts) = parts.all scalar := by
  induction parts with
  | nil => rfl
  | cons part rest ih =>
    cases rest with
    | nil => simp [join, List.intercalate]
    | cons next rest =>
      rw [join, List.intercalate_cons_cons, scalar_append, scalar_append, scalar_cons_ofChar]
      rw [join] at ih
      rw [ih, List.all_cons]
      simp [scalar]

theorem scalar_memberText (m : Text × Text) :
    scalar (memberText m) = (scalar m.1 && scalar m.2) := by
  rw [memberText, scalar_append, scalar_quote, scalar_cons_ofChar]

theorem scalar_text (s : String) : scalar (text s) = true := scalar_map_ofChar s.toList

theorem scalar_sortedMembers (members : List (Text × Text)) :
    ((sortMembers members).map memberText).all scalar =
      members.all fun m => scalar m.1 && scalar m.2 := by
  rw [List.all_map, sortMembers, (List.perm_insertionSort _ members).all_eq]
  congr 1
  funext m
  exact scalar_memberText m

mutual
theorem scalar_dumps : (v : Raw) → scalar (dumps v) = isScalar v
  | null | bool true | bool false | int _ | float _ _ => by simp only [dumps, scalar_text, isScalar]
  | str t => by rw [dumps, scalar_quote, isScalar]
  | arr items => by
    rw [dumps, scalar_cons_ofChar, scalar_append, scalar_join, scalar_dumpsItems items, isScalar,
      scalar_cons_ofChar]
    exact Bool.and_true _
  | obj members => by
    rw [dumps, scalar_cons_ofChar, scalar_append, scalar_join, scalar_sortedMembers,
      scalar_dumpsMembers members, isScalar, scalar_cons_ofChar]
    exact Bool.and_true _
theorem scalar_dumpsItems : (items : List Raw) → (dumpsItems items).all scalar = scalarItems items
  | [] => rfl
  | item :: rest => by
    rw [dumpsItems, List.all_cons, scalar_dumps item, scalar_dumpsItems rest, scalarItems]
theorem scalar_dumpsMembers : (members : List (Text × Raw)) →
    ((dumpsMembers members).all fun m => scalar m.1 && scalar m.2) = scalarMembers members
  | [] => rfl
  | (name, value) :: rest => by
    rw [dumpsMembers, List.all_cons, scalar_dumps value, scalar_dumpsMembers rest, scalarMembers]
end

theorem canonicalJsonBytes_eq_none_iff (v : Raw) :
    canonicalJsonBytes v = none ↔ isScalar v = false := by
  rw [canonicalJsonBytes, encodeUtf8_eq_none_iff, scalar_dumps]

example : dumps (obj [(text "b", arr [int 1, null]), (text "a", str (text "x\""))]) =
    text "\x7b\"a\":\"x\\\"\",\"b\":[1,null]\x7d" := by decide

end Raw
end Mirage
