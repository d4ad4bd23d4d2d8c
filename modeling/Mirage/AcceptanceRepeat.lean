import Mirage.AcceptanceSoundness
import Mirage.TrustAnchor
import Mathlib.Data.List.Perm.Subperm

/-! Two Profile B runs with a teardown and a reprovision between them, as
scripts/acceptance-repeat judges them: `validate_completed_run` over whatever a run
directory holds, with the record checks of `package_profile_b_result`. -/

namespace Mirage.AcceptanceRepeat
open PythonText Raw RowLocks SignedPackage
open AcceptanceSoundness (Accepted)
open ExportSoundness (dictGet_eq_get? dictGet_of_get?)

def requirementIds : List Text :=
  ["NUM-01", "NUM-02", "NUM-03", "NUM-04", "NUM-05", "NUM-06", "NUM-07", "NUM-08", "NUM-09", "NUM-10",
    "NUM-11", "NUM-12", "NUM-13", "NUM-14", "NUM-15", "NUM-16", "NUM-17", "NUM-18", "NUM-19", "NUM-20",
    "NUM-21", "NUM-22", "NUM-23", "NUM-24", "NUM-25"].map text

def scenarioSteps : List Raw := (List.range 36).map fun n => .int (n + 1)

def supportingNames : List Text :=
  ["test-command-log.txt", "environment-inventory.json", "performance-results.json", "failure-results.json",
    "security-results.json", "load-results.json", "installer-results.json", "teardown-results.json"].map text

def requiredFields : List String :=
  ["requirement_id", "description", "target", "measured_value", "unit", "environment", "profile",
    "start_time", "end_time", "evidence", "result", "limitation"]

def scenarioFields : List String :=
  ["step", "description", "environment", "profile", "start_time", "end_time", "evidence", "result", "limitation"]

def allowed : List Text := ["PASS", "FAIL", "NOT_RUN", "BLOCKED"].map text

def rules : List (String × (Json.Num → Bool)) :=
  [("NUM-01", fun m => m.lt (.finite 3)), ("NUM-02", fun m => m.lt (.finite 2)),
    ("NUM-03", fun m => (Json.Num.finite 15).le m), ("NUM-04", fun m => m.eq (.finite 0)),
    ("NUM-05", fun m => m.eq (.finite 0)), ("NUM-06", fun m => (Json.Num.finite 1000).le m),
    ("NUM-07", fun m => m.le (.finite 10)), ("NUM-08", fun m => m.le (.finite 16384)),
    ("NUM-09", fun m => m.le (.finite 4000)), ("NUM-11", fun m => m.eq (.finite 250)),
    ("NUM-12", fun m => m.lt (.finite 30)), ("NUM-13", fun m => m.eq (.finite 100)),
    ("NUM-14", fun m => m.eq (.finite 20)), ("NUM-15", fun m => m.lt (.finite 3)),
    ("NUM-16", fun m => m.lt (.finite 10)), ("NUM-17", fun m => m.lt (.finite 60)),
    ("NUM-18", fun m => m.le (.finite 30)), ("NUM-19", fun m => m.le (.finite 90)),
    ("NUM-21", fun m => m.eq (.finite 100)), ("NUM-22", fun m => m.eq (.finite 0)),
    ("NUM-23", fun m => m.eq (.finite 0)), ("NUM-24", fun m => m.eq (.finite 0)),
    ("NUM-25", fun m => m.eq (.finite 0))]

def floatBound : ℕ := 2 ^ 1024 - 2 ^ 970

def numberOf : Raw → Except Raised (Option Json.Num)
  | .bool _ => .ok none
  | .int n => if n.natAbs < floatBound then .ok (some (.finite n)) else .error .overflowError
  | value => .ok (number value)

def measurementPasses (requirementId : Text) (value : Raw) : Except Raised Bool :=
  if requirementId = text "NUM-10" then
    match value with
    | .bool b => .ok b
    | _ => .ok false
  else if requirementId = text "NUM-20" then
    match value with
    | .obj members => do
      let messages ← numberOf ((member (text "messages_threshold") members).getD .null)
      let seconds ← numberOf ((member (text "seconds_threshold") members).getD .null)
      return messages.any (fun m => m.le (.finite 10000)) && seconds.any fun s => s.le (.finite 30)
    | _ => .ok false
  else do
    let measured ← numberOf value
    return measured.any fun m => (rules.find? fun rule => text rule.1 = requirementId).any fun rule => rule.2 m

inductive EvidencePath where
  | absolute
  | elsewhere
  | file
  deriving DecidableEq

structure RunDir where
  /-- `acceptance-results.json`, as `read_text` reads it. -/
  results : Option (Except Raised Text)
  /-- `acceptance-package.zip`. -/
  package : Option Package
  evidence : Text → Except Raised EvidencePath
  supporting : Text → Bool
  finish : Except Raised Unit

def valueError (message : Text) : Raised := ⟨.valueError, text "ValueError", message⟩

section
variable (lib : Platform)

def forAll {α : Type} (f : α → Except Raised Unit) : List α → Except Raised Unit
  | [] => .ok ()
  | x :: xs => do
    f x
    forAll f xs

/-- `[item.get(name) for item in rows]`, each value being usable. -/
def column (usable : Raw → Bool) (name : String) : List Raw → Except Raised (List Raw)
  | [] => .ok []
  | row :: rest => do
    let value := (← dictGet row name).getD .null
    require (usable value) .typeError
    let values ← column usable name rest
    return value :: values

def hashable : Raw → Bool
  | .arr _ => false
  | .obj _ => false
  | _ => true

/-- `{item.get("requirement_id") for item in numeric} != expected_ids`, the lengths being compared too. -/
def sameIds (values : List Raw) : Bool :=
  values.length = requirementIds.length && values.all (fun v => requirementIds.any fun id => isText id (some v)) &&
    requirementIds.all fun id => values.any fun v => isText id (some v)

def numericPassed : Option Raw → Except Raised Bool
  | some (.arr rows) =>
    if rows.length ≠ requirementIds.length then .ok false
    else do
      let ids ← column hashable "requirement_id" rows
      if !sameIds ids then return false
      else
        let found ← column (fun _ => true) "result" rows
        return found.all fun v => isText (text "PASS") (some v)
  | _ => .ok false

def scenarioPassed : Option Raw → Except Raised Bool
  | some (.arr rows) =>
    if rows.length ≠ scenarioSteps.length then .ok false
    else do
      let steps ← column (fun _ => true) "step" rows
      if !equalsItems steps scenarioSteps then return false
      else
        let found ← column (fun _ => true) "result" rows
        return found.all fun v => isText (text "PASS") (some v)
  | _ => .ok false

def validateEvidence (dir : RunDir) (label : Text) : Option Raw → Except Raised Unit
  | some (.arr (item :: items)) => forAll checkItem (item :: items)
  | _ => .error (valueError (text "PASS has no evidence files: " ++ label))
where
  checkItem : Raw → Except Raised Unit
    | .str (p :: t) => do
      match ← dir.evidence (p :: t) with
      | .absolute => .error (valueError (text "PASS evidence path must be relative: " ++ label ++ text ": " ++ p :: t))
      | .elsewhere =>
        .error (valueError (text "PASS evidence file is missing or outside input: " ++ label ++ text ": " ++ p :: t))
      | .file => .ok ()
    | _ => .error (valueError (text "PASS has an invalid evidence path: " ++ label))

def hasFields (fields : List String) (record : Raw) : Bool := fields.all fun name => (record.get? name).isSome

def valueOf (record : Raw) (name : String) : Raw := (record.get? name).getD .null

def checkResult (record : Raw) (message : Text) : Except Raised Unit := do
  require (hashable (valueOf record "result")) .typeError
  require (allowed.any fun r => isText r (record.get? "result")) (valueError message)

def checkNumeric (dir : RunDir) (record : Raw) : Except Raised Unit := do
  let label := strOf lib.printable (valueOf record "requirement_id")
  require (hasFields requiredFields record) (valueError (text "incomplete numeric result: " ++ label))
  checkResult record (text "invalid result: " ++ strOf lib.printable (valueOf record "result"))
  if isText (text "PASS") (record.get? "result") then do
    require (!equals .null (valueOf record "measured_value")) (valueError (text "PASS has no measurement: " ++ label))
    let passes ← measurementPasses label (valueOf record "measured_value")
    require passes (valueError (text "PASS measurement does not satisfy target: " ++ label ++ text "=" ++
      reprOf lib.printable (valueOf record "measured_value")))
    validateEvidence dir label (record.get? "evidence")
  else .ok ()

def checkScenario (dir : RunDir) (record : Raw) : Except Raised Unit := do
  let step := strOf lib.printable (valueOf record "step")
  require (hasFields scenarioFields record) (valueError (text "incomplete scenario result at step " ++ step))
  checkResult record (text "invalid scenario result at step " ++ step)
  if isText (text "PASS") (record.get? "result") then
    validateEvidence dir (text "scenario step " ++ step) (record.get? "evidence")
  else .ok ()

/-- `package_profile_b_result`, to the end of its checks and then `finish`. -/
def packageProfileBResult (dir : RunDir) : Except Raised Unit := do
  let file ← present dir.results ⟨.osError, text "FileNotFoundError", []⟩
  let result ← JsonLoads.loadsText lib.toInterpreter (← file)
  let profile ← dictGet result "profile"
  require (isText (text "PROFILE_B") profile) (valueError (text "Profile B input must declare profile=PROFILE_B"))
  let numeric ← dictGet result "numeric_results"
  let scenario ← dictGet result "scenario_results"
  match numeric, scenario with
  | some (.arr numericRows), some (.arr scenarioRows) => do
    let ids ← column hashable "requirement_id" numericRows
    require (sameIds ids) (valueError (text "Profile B input must contain exactly one row for every numeric target"))
    let steps ← column (fun _ => true) "step" scenarioRows
    require (equalsItems steps scenarioSteps)
      (valueError (text "Profile B input must contain ordered scenario steps 1..36"))
    forAll (checkNumeric lib dir) numericRows
    forAll (checkScenario lib dir) scenarioRows
    require (supportingNames.all dir.supporting) (valueError (text "Profile B input is missing supporting evidence: " ++
      reprList lib.printable (supportingNames.filter fun name => !dir.supporting name)))
    dir.finish
  | _, _ => .error (valueError (text "Profile B input requires numeric_results and scenario_results"))

/-- `acceptance-results.json` as parsed, and the error where there is none. -/
def loadResults (dir : RunDir) : Except Raised (List Text × Raw) :=
  match dir.results with
  | none => .ok ([text "missing acceptance-results.json"], .obj [])
  | some file => do
    let result ← JsonLoads.loadsText lib.toInterpreter (← file)
    return ([], result)

def packageErrors (trust : Trust) (dir : RunDir) : Except Raised (List Text) :=
  match dir.package with
  | none => .ok [text "missing acceptance-package.zip"]
  | some package => do
    let verification ← AcceptancePackage.verifyAcceptancePackage lib package none trust
    return if verification.valid then []
      else verification.errors.map fun e => text "package verification: " ++ e

/-- The exceptions that `validate_completed_run` reports as an error. -/
def caught : List ExceptionClass := [.osError, .valueError, .jsonDecodeError, .keyError, .typeError]

def firstErrors (trust : Trust) (dir : RunDir) : Except Raised (List Text) := do
  let (missing, result) ← loadResults lib dir
  let numeric ← dictGet result "numeric_results"
  let scenario ← dictGet result "scenario_results"
  let profile ← dictGet result "profile"
  let outcome ← dictGet result "result"
  let numericOk ← numericPassed numeric
  let scenarioOk ← scenarioPassed scenario
  let unverified ← packageErrors lib trust dir
  return missing ++ check (isText (text "PROFILE_B") profile) (text "result profile is not PROFILE_B") ++
    check (isText (text "PASS") outcome) (text "result is not PASS") ++
    check numericOk (text "numeric targets are not exactly 25 PASS rows") ++
    check scenarioOk (text "scenario is not exactly ordered steps 1..36 with PASS") ++ unverified

def recordErrors (dir : RunDir) : Except Raised (List Text) :=
  match packageProfileBResult lib dir with
  | .ok () => .ok []
  | .error exc =>
    if exc.kind ∈ caught then
      .ok [text "strict Profile B record validation: " ++ exc.name ++ text ": " ++ exc.message]
    else .error exc

def validateCompletedRun (trust : Trust) (dir : RunDir) : Except Raised (List Text) := do
  let errors ← firstErrors lib trust dir
  if errors ≠ [] then return errors else recordErrors lib dir

structure Repetition where
  returncode1 : ℤ
  dir1 : RunDir
  teardown : ℤ
  provision : ℤ
  returncode2 : ℤ
  dir2 : RunDir

/-- The entries of `records`, as far as `accepted` reads them. -/
inductive Record where
  | run (returncode : ℤ) (valid : Bool)
  | betweenRuns (returncode : ℤ)

def runRecord (trust : Trust) (returncode : ℤ) (dir : RunDir) : Except Raised Record := do
  if returncode = 0 then
    let errors ← validateCompletedRun lib trust dir
    return .run returncode errors.isEmpty
  else return .run returncode false

def records (trust : Trust) (r : Repetition) : Except Raised (List Record) := do
  let first ← runRecord lib trust r.returncode1 r.dir1
  match first with
  | .run 0 true =>
    if r.teardown ≠ 0 then return [first, .betweenRuns r.teardown]
    else if r.provision ≠ 0 then return [first, .betweenRuns r.teardown, .betweenRuns r.provision]
    else do
      let second ← runRecord lib trust r.returncode2 r.dir2
      return [first, .betweenRuns r.teardown, .betweenRuns r.provision, second]
  | _ => return [first]

def passing : Record → Bool
  | .run returncode valid => returncode = 0 && valid
  | .betweenRuns _ => false

def betweenCode : Record → Option ℤ
  | .run _ _ => none
  | .betweenRuns returncode => some returncode

def accepted (trust : Trust) (r : Repetition) : Except Raised Bool := do
  let found ← records lib trust r
  return (found.filter passing).length = 2 && (found.filterMap betweenCode).length = 2 &&
    (found.filterMap betweenCode).all fun code => code = 0

def rowsFor (id : Text) (rows : List Raw) : List Raw := rows.filter fun row => isText id (some (valueOf row "requirement_id"))

/-- A result set of Profile B: one PASS row for each numeric target, with a
measurement that meets it, and the ordered PASS steps. -/
structure Meets (result : Raw) : Prop where
  profile : isText (text "PROFILE_B") (result.get? "profile") = true
  numeric : ∃ rows, result.get? "numeric_results" = some (.arr rows) ∧ ∀ id ∈ requirementIds, ∃ row,
    rowsFor id rows = [row] ∧ isText (text "PASS") (row.get? "result") = true ∧
      measurementPasses id (valueOf row "measured_value") = .ok true
  scenario : ∃ rows, result.get? "scenario_results" = some (.arr rows) ∧
    equalsItems (rows.map fun row => valueOf row "step") scenarioSteps = true ∧
    ∀ row ∈ rows, isText (text "PASS") (row.get? "result") = true

def Rests (trust : Trust) (dir : RunDir) : Prop :=
  ∃ archive content result, dir.package = some (.ok archive) ∧ Accepted lib (.ok archive) none trust ∧
    read archive (text "acceptance-results.json") = .ok content ∧
    JsonLoads.loads lib.toInterpreter content = .ok result ∧ Meets result

def Evidenced (dir : RunDir) (row : Raw) : Prop :=
  ∃ items, row.get? "evidence" = some (.arr items) ∧ items ≠ [] ∧
    ∀ item ∈ items, ∃ p t, item = .str (p :: t) ∧ dir.evidence (p :: t) = .ok .file

structure Beside (dir : RunDir) : Prop where
  passed : ∃ t result numeric scenario, dir.results = some (.ok t) ∧
    JsonLoads.loadsText lib.toInterpreter t = .ok result ∧ Meets result ∧
    isText (text "PASS") (result.get? "result") = true ∧
    result.get? "numeric_results" = some (.arr numeric) ∧ result.get? "scenario_results" = some (.arr scenario) ∧
    numeric.length = requirementIds.length ∧
    (∀ row ∈ numeric, hasFields requiredFields row = true ∧ Evidenced dir row) ∧
    ∀ row ∈ scenario, hasFields scenarioFields row = true ∧ Evidenced dir row
  supported : ∀ name ∈ supportingNames, dir.supporting name = true
  finished : dir.finish = .ok ()

def Verified (trust : Trust) (dir : RunDir) : Prop :=
  ∃ package, dir.package = some package ∧ Accepted lib package none trust

def Valid (trust : Trust) (dir : RunDir) : Prop := validateCompletedRun lib trust dir = .ok []

end

section
variable {lib : Platform} {trust : Trust} {dir : RunDir}

theorem isText_iff {t : Text} {v : Raw} : isText t (some v) = true ↔ v = .str t := by
  cases v with
  | str s =>
    rw [isText, decide_eq_true_eq]
    exact ⟨fun same => congrArg _ same, fun same => by cases same; rfl⟩
  | _ => exact ⟨fun held => (by cases held), fun same => (by cases same)⟩

theorem runRecord_passing {returncode : ℤ} {record : Record} (read : runRecord lib trust returncode dir = .ok record) :
    (∃ valid, record = .run returncode valid) ∧ (passing record = true ↔ returncode = 0 ∧ Valid lib trust dir) := by
  rw [runRecord] at read
  split at read
  next zero =>
    obtain ⟨errors, validated, done⟩ := bind_eq_ok.mp read
    cases done
    refine ⟨⟨_, rfl⟩, ?_⟩
    rw [passing, Bool.and_eq_true, decide_eq_true_eq, List.isEmpty_iff, Valid, validated]
    exact and_congr_right fun _ => ⟨fun clean => by rw [clean], fun clean => Except.ok.inj clean⟩
  next failed =>
    cases read
    refine ⟨⟨_, rfl⟩, fun held => ?_, fun held => absurd held.1 failed⟩
    rw [passing, Bool.and_false] at held
    cases held

theorem runRecord_valid {returncode : ℤ} (zero : returncode = 0) (valid : Valid lib trust dir) :
    runRecord lib trust returncode dir = .ok (.run 0 true) := by
  rw [runRecord, if_pos zero, show validateCompletedRun lib trust dir = .ok [] from valid, zero]
  rfl

theorem accepted_iff (r : Repetition) : accepted lib trust r = .ok true ↔
    (r.returncode1 = 0 ∧ Valid lib trust r.dir1) ∧ r.teardown = 0 ∧ r.provision = 0 ∧
      r.returncode2 = 0 ∧ Valid lib trust r.dir2 := by
  constructor
  · intro done
    rw [accepted, records] at done
    obtain ⟨found, ran, done⟩ := bind_eq_ok.mp done
    obtain ⟨first, firstRan, ran⟩ := bind_eq_ok.mp ran
    obtain ⟨⟨valid, rfl⟩, firstIff⟩ := runRecord_passing firstRan
    have judged := Except.ok.inj done
    rw [Bool.and_eq_true, Bool.and_eq_true, decide_eq_true_eq, decide_eq_true_eq] at judged
    obtain ⟨⟨two, between⟩, _⟩ := judged
    split at ran
    next same =>
      rw [Record.run.injEq] at same
      obtain ⟨zero, rfl⟩ := same
      rw [zero] at firstIff ran
      have firstValid := (firstIff.mp rfl).2
      split at ran
      next =>
        cases ran
        cases between
      next torn =>
        split at ran
        next =>
          cases ran
          cases two
        next provisioned =>
          obtain ⟨second, secondRan, ran⟩ := bind_eq_ok.mp ran
          cases ran
          obtain ⟨⟨valid', rfl⟩, secondIff⟩ := runRecord_passing secondRan
          have passed : passing (.run r.returncode2 valid') = true := by
            by_contra failed
            rw [Bool.not_eq_true] at failed
            have rest : [Record.run 0 true, .betweenRuns r.teardown, .betweenRuns r.provision,
                .run r.returncode2 valid'].filter passing =
              .run 0 true :: [Record.run r.returncode2 valid'].filter passing := rfl
            rw [rest, List.filter_cons, failed] at two
            cases two
          exact ⟨⟨zero, firstValid⟩, not_not.mp torn, not_not.mp provisioned, secondIff.mp passed⟩
    next =>
      cases ran
      cases between
  · rintro ⟨⟨zero, valid⟩, torn, provisioned, zero', valid'⟩
    rw [accepted, records, runRecord_valid zero valid, runRecord_valid zero' valid', torn, provisioned]
    rfl

section
variable (lib : Platform) (trust : Trust)

/-- The file beside the package passes and the package verifies, but the results
inside it are not such results. -/
def Overlooked (dir : RunDir) : Prop := Beside lib dir ∧ Verified lib trust dir ∧ ¬Rests lib trust dir

structure Clean (r : Repetition) : Prop where
  codes : r.returncode1 = 0 ∧ r.teardown = 0 ∧ r.provision = 0 ∧ r.returncode2 = 0
  first : Beside lib r.dir1 ∧ Verified lib trust r.dir1
  second : Beside lib r.dir2 ∧ Verified lib trust r.dir2

end

end

/-! A run whose package carries no results at all. -/

def rowOf (names : List String) (value : String → Raw) : Raw := .obj (names.map fun name => (text name, value name))

end Mirage.AcceptanceRepeat
