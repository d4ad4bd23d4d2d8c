import Mathlib.Data.List.Sort

/-! JSON values as `json.loads` returns them, and their deterministic text
`json.dumps(obj, sort_keys=True, separators=(",", ":"), ensure_ascii=False)`. -/

namespace Mirage

inductive Json where
  | null
  | bool (value : Bool)
  | int (value : Int)
  | float (repr : String) (integral : Option Int)
  | str (value : String)
  | arr (items : List Json)
  | obj (members : List (String × Json))

namespace Json

def member (name : String) : List (String × Json) → Option Json
  | [] => none
  | (other, value) :: rest => if other = name then some value else member name rest

/-- `value.get(name)` on a dictionary; nothing on any other value. -/
def get? : Json → String → Option Json
  | obj members, name => member name members
  | _, _ => none

def setMember (name : String) (value : Json) : List (String × Json) → List (String × Json)
  | [] => [(name, value)]
  | (other, old) :: rest =>
    if other = name then (name, value) :: rest else (other, old) :: setMember name value rest

def set : Json → String → Json → Json
  | obj members, name, value => obj (setMember name value members)
  | other, _, _ => other

theorem member_setMember (name other : String) (value : Json) (members : List (String × Json)) :
    member other (setMember name value members) =
      if other = name then some value else member other members := by
  induction members with
  | nil => simp [setMember, member, eq_comm]
  | cons head rest ih =>
    obtain ⟨key, old⟩ := head
    simp only [setMember]
    split
    · rename_i h
      subst h
      simp only [member, eq_comm (a := key)]
      split <;> simp_all
    · rename_i h
      simp only [member, ih]
      by_cases hk : key = other
      · subst hk
        simp [h]
      · simp [hk]

theorem get?_set (j : Json) {name other : String} (value : Json) (different : other ≠ name) :
    (j.set name value).get? other = j.get? other := by
  cases j <;> simp [set, get?, member_setMember, different]

def isText : Option Json → String → Bool
  | some (str s), text => s = text
  | _, _ => false

theorem isText_iff {value : Option Json} {text : String} :
    isText value text = true ↔ value = some (str text) := by
  rcases value with _ | (_ | _ | _ | _ | _ | _ | _) <;> simp [isText]

def hexDigit (n : ℕ) : Char := "0123456789abcdef".toList.getD n '0'

def escapeChar (c : Char) : List Char :=
  if c = '"' then ['\\', '"']
  else if c = '\\' then ['\\', '\\']
  else if c = '\n' then ['\\', 'n']
  else if c = '\r' then ['\\', 'r']
  else if c = '\t' then ['\\', 't']
  else if c.toNat = 8 then ['\\', 'b']
  else if c.toNat = 12 then ['\\', 'f']
  else if c.toNat < 32 then ['\\', 'u', '0', '0', hexDigit (c.toNat / 16), hexDigit (c.toNat % 16)]
  else [c]

def quote (s : String) : String :=
  String.ofList ('"' :: (s.toList.flatMap escapeChar ++ ['"']))

def sortMembers (members : List (String × String)) : List (String × String) :=
  members.insertionSort fun a b => a.1 ≤ b.1

mutual
def canonical : Json → String
  | null => "null"
  | bool true => "true"
  | bool false => "false"
  | int n => toString n
  | float repr _ => repr
  | str s => quote s
  | arr items => "[" ++ ",".intercalate (canonicalItems items) ++ "]"
  | obj members => "\x7b" ++ ",".intercalate
      ((sortMembers (canonicalMembers members)).map fun m => quote m.1 ++ ":" ++ m.2) ++ "\x7d"
def canonicalItems : List Json → List String
  | [] => []
  | item :: rest => canonical item :: canonicalItems rest
def canonicalMembers : List (String × Json) → List (String × String)
  | [] => []
  | (name, value) :: rest => (name, canonical value) :: canonicalMembers rest
end

example : (obj [("b", arr [int 1, null]), ("a", str "x\"")]).canonical =
    "\x7b\"a\":\"x\\\"\",\"b\":[1,null]\x7d" := by decide

end Json
end Mirage
