import Mirage.PythonValues

/-! The part of JSON Schema 2020-12 that the contracts use, read as the `jsonschema`
library reads it: `type: integer` admits floats with an integral value and no booleans,
lengths count code points, and `pattern` is searched with `re`, so that its final `$` also
matches before one trailing newline. -/

namespace Mirage

inductive Schema where
  | string (minLength maxLength : Option ℕ) (pattern : Option (String → Bool))
      (enum : Option (List String))
  | integer (minimum maximum : Option Int)
  | number (minimum maximum : Option ℚ)
  | boolean
  | array (items : Schema) (minItems maxItems : Option ℕ)
  | anyObject
  /-- `additionalProperties: false`. -/
  | object (required : List String) (properties : List (String × Schema))
  | nullable (inner : Schema)

namespace Schema

def anchored (body : List Char → Bool) (s : String) : Bool :=
  body s.toList ||
    match s.toList.reverse with
    | '\n' :: rest => body rest.reverse
    | _ => false

def stringAdmits (minLength maxLength : Option ℕ) (pattern : Option (String → Bool))
    (enum : Option (List String)) (s : String) : Bool :=
  minLength.all (· ≤ s.length) && maxLength.all (s.length ≤ ·) && pattern.all (· s) &&
    enum.all (s ∈ ·)

def integerAdmits (minimum maximum : Option Int) (n : Int) : Bool :=
  minimum.all (· ≤ n) && maximum.all (n ≤ ·)

def numberAdmits (minimum maximum : Option ℚ) (n : Json.Num) : Bool :=
  minimum.all (fun q => !n.lt (.finite q)) && maximum.all (fun q => !(Json.Num.finite q).lt n)

mutual
def rejected : Schema → List String → Json → List (List String)
  | string lo hi pattern enum, path, .str s =>
    if stringAdmits lo hi pattern enum s then [] else [path]
  | string .., path, _ => [path]
  | integer lo hi, path, .int n => if integerAdmits lo hi n then [] else [path]
  | integer lo hi, path, .float _ (some n) => if integerAdmits lo hi n then [] else [path]
  | integer .., path, _ => [path]
  | number lo hi, path, .int n => if numberAdmits lo hi (.finite n) then [] else [path]
  | number lo hi, path, .float repr integral =>
    if numberAdmits lo hi (Json.floatNum repr integral) then [] else [path]
  | number .., path, _ => [path]
  | boolean, _, .bool _ => []
  | boolean, path, _ => [path]
  | array items lo hi, path, .arr values =>
    (if lo.all (· ≤ values.length) && hi.all (values.length ≤ ·) then [] else [path]) ++
      values.zipIdx.flatMap fun (value, i) => rejected items (path ++ [toString i]) value
  | array .., path, _ => [path]
  | anyObject, _, .obj _ => []
  | anyObject, path, _ => [path]
  | object required properties, path, .obj members =>
    (if required.all (fun name => (Json.member name members).isSome) &&
        members.all (fun m => m.1 ∈ properties.map Prod.fst) then [] else [path]) ++
      rejectedProperties properties path members
  | object .., path, _ => [path]
  | nullable _, _, .null => []
  | nullable inner, path, value => rejected inner path value
def rejectedProperties : List (String × Schema) → List String → List (String × Json) →
    List (List String)
  | [], _, _ => []
  | (name, schema) :: rest, path, members =>
    (match Json.member name members with
      | none => []
      | some value => rejected schema (path ++ [name]) value) ++
      rejectedProperties rest path members
end

theorem member_of_rejectedProperties {properties : List (String × Schema)} {path : List String}
    {members : List (String × Json)} (accepted : rejectedProperties properties path members = [])
    {name : String} {schema : Schema} (hp : (name, schema) ∈ properties) {value : Json}
    (hv : Json.member name members = some value) : rejected schema (path ++ [name]) value = [] := by
  induction properties with
  | nil => cases hp
  | cons head rest ih =>
    obtain ⟨other, inner⟩ := head
    simp only [rejectedProperties, List.append_eq_nil_iff] at accepted
    rcases List.mem_cons.mp hp with h | h
    · cases h
      simpa [hv] using accepted.1
    · exact ih accepted.2 h

/-- An accepted object has every required member, and the member is accepted
by the schema of its name. -/
theorem required_of_rejected {required : List String} {properties : List (String × Schema)}
    {path : List String} {value : Json}
    (accepted : rejected (object required properties) path value = [])
    {name : String} {schema : Schema} (hr : name ∈ required) (hp : (name, schema) ∈ properties) :
    ∃ inner, value.get? name = some inner ∧ rejected schema (path ++ [name]) inner = [] := by
  cases value with
  | obj members =>
    simp only [rejected, List.append_eq_nil_iff] at accepted
    obtain ⟨whole, parts⟩ := accepted
    have present : (Json.member name members).isSome := by
      by_contra absent
      have : ¬ (required.all (fun name => (Json.member name members).isSome)) = true := by
        rw [List.all_eq_true]
        exact fun h => absent (h name hr)
      simp [this] at whole
    obtain ⟨inner, hi⟩ := Option.isSome_iff_exists.mp present
    exact ⟨inner, hi, member_of_rejectedProperties parts hp hi⟩
  | _ => simp [rejected] at accepted

theorem string_of_rejected {lo hi : Option ℕ} {pattern : Option (String → Bool)}
    {enum : Option (List String)} {path : List String} {value : Json}
    (accepted : rejected (string lo hi pattern enum) path value = []) :
    ∃ s, value = .str s ∧ stringAdmits lo hi pattern enum s = true := by
  cases value with
  | str s =>
    refine ⟨s, rfl, ?_⟩
    by_contra h
    simp [rejected, h] at accepted
  | _ => simp [rejected] at accepted

end Schema
end Mirage
