import Mirage.PythonValues
import Mathlib.Tactic.NormNum

/-! The comparator engine of the fingerprint checklist: `run_fingerprint_check` over a
baseline and the observed checks, and the scoring rule of `FingerprintReport`. -/

namespace Mirage.Fingerprint
open Json

structure CheckResult where
  checkName : String
  comparator : Json
  level : Json
  expected : Json
  observed : Option Json
  passed : Bool

structure FingerprintReport where
  targetId : Json
  baselineVersion : Json
  results : List CheckResult

namespace FingerprintReport

def mustChecks (r : FingerprintReport) : List CheckResult :=
  r.results.filter fun c => isText (some c.level) "MUST"

def shouldChecks (r : FingerprintReport) : List CheckResult :=
  r.results.filter fun c => isText (some c.level) "SHOULD"

def allMustPassed (r : FingerprintReport) : Bool := r.mustChecks.all CheckResult.passed

def shouldPassed (r : FingerprintReport) : ℕ := r.shouldChecks.countP CheckResult.passed

def shouldPassRatio (r : FingerprintReport) : ℚ :=
  if r.shouldChecks.isEmpty then 1 else r.shouldPassed / r.shouldChecks.length

def shouldPassThreshold : ℚ := 3 / 4

def passed (r : FingerprintReport) : Bool :=
  r.allMustPassed && r.shouldPassRatio ≥ shouldPassThreshold

def failedMustChecks (r : FingerprintReport) : List String :=
  (r.mustChecks.filter fun c => !c.passed).map CheckResult.checkName

end FingerprintReport

/-- `re.compile(pattern).fullmatch`; nothing where the pattern is not one. -/
abbrev Compile := String → Option (String → Bool)

def getOr (value : Json) (name : String) (default : Json) : Option Json :=
  match value with
  | .obj members => some ((member name members).getD default)
  | _ => none

def compareExact : Json → Json → Option Bool
  | .obj [], _ => some true
  | .obj fields, .obj observed =>
    some (fields.all fun field => pyEq ((member field.1 observed).getD .null) field.2)
  | _, _ => none

def baselineField (observed : Json) (field : String × Json) : Option Bool := do
  let value ← getOr observed field.1 .null
  match field.2 with
  | .arr items =>
    let expected ← asSet (.arr items)
    let found ← asSet (if value.isTrue then value else .arr [])
    return sameSet expected found
  | other => return pyEq value other

def compareBaselineMatch : Json → Json → Option Bool
  | .obj fields, observed => (fields.mapM (baselineField observed)).map fun fields => fields.all id
  | _, _ => none

def compareRequiredSubset (expected observed : Json) : Option Bool := do
  let required ← asSet (← getOr expected "required" (.arr []))
  let installed ← asSet (← getOr observed "installed" (.arr []))
  let missing := required.filter fun item => !inSet item installed
  if missing.isEmpty then return true
  -- the evidence lists the missing items in order
  if sortable missing then return false
  none

def compareNoFilePredatesDate (expected observed : Json) : Option Bool := do
  let _ ← getOr expected "fictional_hire_date" .null
  let offenders ← getOr observed "files_predating_hire_date" (.arr [])
  match offenders with
  | .arr items => return items.isEmpty
  | .str files => return files = ""
  -- the evidence counts and slices the offenders
  | other => if other.isTrue then none else return true

def wildcard (pattern : String) : String :=
  String.ofList (pattern.toList.flatMap fun c => if c = '*' then ['.', '*'] else [c])

def compiled (compile : Compile) : Json → Option (String → Bool)
  | .str pattern => compile (wildcard pattern)
  | _ => none

def forbidden (allowed : List Json) (regexes : List (String → Bool)) (process : Json) : Option Bool :=
  if !process.hashable then none
  else if inSet process allowed then some false
  else
    match process, regexes with
    | .str name, _ => some (regexes.any fun fullmatch => fullmatch name)
    | _, [] => some false
    | _, _ => none

def compareAllowedSetForbiddenPatterns (compile : Compile) (expected observed : Json) :
    Option Bool := do
  let patterns ← getOr expected "forbidden_patterns" (.arr [])
  let allowed ← asSet (← getOr expected "allowed" (.arr []))
  let running ← getOr observed "running" (.arr [])
  let regexes ← (← iterated patterns).mapM (compiled compile)
  let hits ← (← iterated running).mapM (forbidden allowed regexes)
  return hits.all fun hit => !hit

/-- `expected.get(name) if name in expected else expected.get(other)`. -/
def bound (expected : Json) (name other : String) : Option Json :=
  match expected.get? name with
  | some value => some value
  | none => getOr expected other .null

def compareRange (expected observed : Json) : Option Bool := do
  let value ← getOr observed "value" .null
  let lo ← bound expected "min" "min_hours"
  let hi ← bound expected "max" "max_hours"
  match value with
  | .null => return false
  | value =>
    let above ← match lo with
      | .null => some true
      | lo => pyLe lo value
    if !above then return false
    match hi with
    | .null => return true
    | hi => pyLe value hi

def comparators (compile : Compile) : Json → Option (Json → Json → Option Bool)
  | .str "exact" => some compareExact
  | .str "baseline_match" => some compareBaselineMatch
  | .str "required_subset" => some compareRequiredSubset
  | .str "no_file_predates_date" => some compareNoFilePredatesDate
  | .str "allowed_set_forbidden_patterns" => some (compareAllowedSetForbiddenPatterns compile)
  | .str "range" => some compareRange
  | _ => none

def runCheck (compile : Compile) (observed : Json) (entry : String × Json) : Option CheckResult := do
  let comparator ← entry.2.get? "comparator"
  let expected ← entry.2.get? "expected"
  let level ← entry.2.get? "level"
  match ← getOr observed entry.1 .null with
  | .null => return ⟨entry.1, comparator, level, expected, none, false⟩
  | value =>
    let compare ← comparators compile comparator
    let passed ← compare expected value
    return ⟨entry.1, comparator, level, expected, some value, passed⟩

def runFingerprintCheck (compile : Compile) (baseline observed : Json) : Option FingerprintReport := do
  let results ← match ← baseline.get? "checks" with
    | .obj checks => checks.mapM (runCheck compile observed)
    | _ => none
  let targetId ← baseline.get? "target_id"
  let baselineVersion ← baseline.get? "baseline_version"
  return ⟨targetId, baselineVersion, results⟩

/-- The scoring rule in whole numbers: every MUST check, and three in four of
the SHOULD checks. -/
theorem passed_iff (r : FingerprintReport) :
    r.passed = true ↔ (∀ c ∈ r.mustChecks, c.passed = true) ∧
      3 * r.shouldChecks.length ≤ 4 * r.shouldPassed := by
  have must : r.allMustPassed = true ↔ ∀ c ∈ r.mustChecks, c.passed = true := List.all_eq_true
  have should : r.shouldPassRatio ≥ FingerprintReport.shouldPassThreshold ↔
      3 * r.shouldChecks.length ≤ 4 * r.shouldPassed := by
    rw [FingerprintReport.shouldPassRatio]
    cases listed : r.shouldChecks with
    | nil => norm_num [FingerprintReport.shouldPassThreshold, FingerprintReport.shouldPassed, listed]
    | cons head rest =>
      have positive : (0 : ℚ) < ((head :: rest).length : ℚ) := by exact_mod_cast Nat.succ_pos _
      rw [List.isEmpty_cons, if_neg Bool.false_ne_true, ge_iff_le,
        FingerprintReport.shouldPassThreshold, le_div_iff₀ positive, div_mul_eq_mul_div,
        div_le_iff₀ four_pos, mul_comm _ (4 : ℚ)]
      exact_mod_cast Iff.rfl
  rw [FingerprintReport.passed, Bool.and_eq_true, decide_eq_true_iff, must, should]

end Mirage.Fingerprint
