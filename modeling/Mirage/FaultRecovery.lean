import Mirage.Effects
import Mirage.RawValues
import Mathlib.Data.List.Infix

/-! `run_profile_b_scenario` of resilience.py. A recipe gives a command for each stage;
the commands are handed to `subprocess.run` one after the other, and what comes of them is
not up to the program. -/

namespace Mirage.FaultRecovery
open Effects PythonText

structure FailureScenario where
  testId : Text
  name : Text
  preconditions : List Text
  trigger : Text
  detectionMechanism : Text
  expectedAlert : Text
  expectedSafeState : Text
  expectedDataBehaviour : Text
  recoveryProcedure : Text
  labCommand : Text
  locallyExecutable : Bool

inductive Fault where
  | osError (message : Text)
  | subprocessError (message : Text)
  | runtimeError (message : Text)
  | other (raised : Raised)

/-- `except (OSError, subprocess.SubprocessError, RuntimeError) as exc`, with `str(exc)`. -/
def Fault.caught : Fault → Option Text
  | osError message | subprocessError message | runtimeError message => some message
  | other _ => none

structure Completed where
  returncode : Int
  stdout : Text
  stderr : Text

inductive Record where
  | ended (stage : Text) (argv : Raw) (returncode : Int) (expectedExitCodes : Raw) (accepted : Bool)
      (stdout stderr : Text)
  | raised (stage error : Text)

structure Harness where
  records : List Record
  triggerAttempted : Bool
  failed : Bool

abbrev Step (α : Type) := Act Fault Harness String α

def keyError : Fault := .other .keyError

def lift {α : Type} (value : Except Raised α) : Step α := look fun _ => value.mapError .other

def modify (f : Harness → Harness) : Step Unit := fun h => ⟨.ok (), f h, []⟩

def stageOf (configured : List (Text × Raw)) (stage : String) : Except Raised Raw :=
  match Raw.member (text stage) configured with
  | some spec => .ok spec
  | none => .error .keyError

def argvOf (spec : Raw) : Except Raised Raw :=
  match spec.get? "argv" with
  | some argv => .ok argv
  | none => .error .keyError

/-- `max(1, min(int(spec.get("timeout_seconds", 60)), 900))`; `ofText` is `int` on a text. -/
def timeoutOf (ofText : Text → Option Int) (spec : Raw) : Except Raised Int := do
  let seconds ← Raw.toInt ofText ((spec.get? "timeout_seconds").getD (.int 60))
  pure (max 1 (min seconds 900))

def expectedExitCodes (spec : Raw) : Raw := (spec.get? "expected_exit_codes").getD (.arr [.int 0])

def acceptedBy (returncode : Int) : Raw → Except Raised Bool
  | .arr items => .ok (items.any (Raw.equals (.int returncode)))
  | .obj _ => .ok false
  | _ => .error .typeError

def lastPart (output : Text) : Text := output.drop (output.length - 4000)

section
variable (ofText : Text → Option Int) (run : String → Raw → Int → Except Fault Completed)
  (configured : List (Text × Raw))

def start (stage : String) (argv : Raw) (timeout : Int) : Step Completed := fun h =>
  ⟨run stage argv timeout, h, [stage]⟩

def recorded (stage : String) (argv allowed : Raw) (completed : Completed) (accepted : Bool)
    (h : Harness) : Harness :=
  { h with
    records := h.records ++ [.ended (text stage) argv completed.returncode allowed accepted
      (lastPart completed.stdout) (lastPart completed.stderr)] }

def refuse (stage : String) (returncode : Int) : Step Unit := do
  modify fun h => { h with failed := true }
  raise (.runtimeError (text (stage ++ " returned " ++ toString returncode)))

def execute (stage : String) : Step Unit := do
  let spec ← lift (stageOf configured stage)
  let argv ← lift (argvOf spec)
  let timeout ← lift (timeoutOf ofText spec)
  let completed ← start run stage argv timeout
  let accepted ← lift (acceptedBy completed.returncode (expectedExitCodes spec))
  modify (recorded stage argv (expectedExitCodes spec) completed accepted)
  if accepted then pure () else refuse stage completed.returncode

/-- `except` of the three classes: the harness has failed, and goes on. -/
def except (stage : String) (m : Step Unit) : Step Unit := fun h =>
  match (m h).result with
  | .ok _ => m h
  | .error fault =>
    match fault.caught with
    | some message =>
      ⟨.ok (), { (m h).state with
        failed := true, records := (m h).state.records ++ [.raised (text stage) message] }, (m h).log⟩
    | none => m h

/-- `try … finally`: an exception of the second part takes the place of one of the first. -/
def withCleanup (m cleanup : Step Unit) : Step Unit := fun h =>
  ⟨(cleanup (m h).state).result.bind fun _ => (m h).result, (cleanup (m h).state).state,
    (m h).log ++ (cleanup (m h).state).log⟩

def ifAttempted (m : Step Unit) : Step Unit := fun h =>
  if h.triggerAttempted then m h else ⟨.ok (), h, []⟩

def attempt : Step Unit := do
  execute ofText run configured "precheck"
  modify fun h => { h with triggerAttempted := true }
  execute ofText run configured "trigger"
  execute ofText run configured "detect"

def harness : Step Unit := do
  withCleanup (except "harness" (attempt ofText run configured))
    (ifAttempted (except "recovery-harness" (execute ofText run configured "recover")))
  ifAttempted (except "verification-harness" (execute ofText run configured "verify"))

end

/-! The validation of the recipe. -/

def scenario (scenarios : List FailureScenario) (testId : Text) : Except Raised FailureScenario :=
  match scenarios.find? fun value => value.testId = testId with
  | some value => .ok value
  | none => .error .valueError

def isWord : Raw → Bool
  | .str item => !item.isEmpty
  | _ => false

def unreplaced : Raw → Bool
  | .str item => decide (text "REPLACE_ME" <:+: item)
  | _ => false

def validStage (value : Raw) : Bool :=
  match value.get? "argv" with
  | some (.arr argv) => !argv.isEmpty && argv.all isWord && !argv.any unreplaced
  | _ => false

def configuredOf (recipe : Raw) (testId : Text) : Except Raised (List (Text × Raw)) :=
  match (recipe.get? "scenarios").getD (.obj []) with
  | .obj scenarios =>
    match Raw.member testId scenarios with
    | some (.obj configured) => .ok configured
    | _ => .error .valueError
  | _ => .error .attributeError

def isSchema (recipe : Raw) : Bool :=
  ((recipe.get? "schema_version").getD .null).equals (.str (text "mirage.failure-recipe/1.0"))

def checkedStages (configured : List (Text × Raw)) : Except Raised (List (Text × Raw)) :=
  if configured.all fun stage => validStage stage.2 then .ok configured else .error .valueError

def checkedRecipe (testId : Text) (recipe : Raw) : Except Raised (List (Text × Raw)) :=
  match recipe with
  | .obj _ =>
    if !isSchema recipe then .error .valueError else (configuredOf recipe testId).bind checkedStages
  | _ => .error .attributeError

def validated (scenarios : List FailureScenario) (testId : Text) (recipe : Raw) (confirmation : Text) :
    Except Raised (FailureScenario × List (Text × Raw)) := do
  let definition ← scenario scenarios testId
  if confirmation ≠ text "FAULT " ++ testId ++ text " PROFILE_B" then .error .valueError
  else
    let configured ← checkedRecipe testId recipe
    pure (definition, configured)

inductive Result where
  | pass
  | fail
  deriving DecidableEq

structure Report where
  definition : FailureScenario
  commands : List Record
  result : Result

def idle : Harness := ⟨[], false, false⟩

def runProfileBScenario (ofText : Text → Option Int) (scenarios : List FailureScenario)
    (run : String → Raw → Int → Except Fault Completed) (testId : Text) (recipe : Raw)
    (confirmation : Text) : Done Fault Harness String Report :=
  match validated scenarios testId recipe confirmation with
  | .error raised => ⟨.error (.other raised), idle, []⟩
  | .ok (definition, configured) =>
    let done := harness ofText run configured idle
    ⟨done.result.map fun _ =>
      ⟨definition, done.state.records, if done.state.failed then .fail else .pass⟩, done.state, done.log⟩

section
variable (ofText : Text → Option Int) (run : String → Raw → Int → Except Fault Completed)
  (configured : List (Text × Raw))

def Startable (stage : String) : Prop :=
  ∃ spec timeout, stageOf configured stage = .ok spec ∧ timeoutOf ofText spec = .ok timeout

def Accepted (stage : String) : Prop :=
  ∃ spec argv timeout completed, stageOf configured stage = .ok spec ∧ argvOf spec = .ok argv ∧
    timeoutOf ofText spec = .ok timeout ∧ run stage argv timeout = .ok completed ∧
      acceptedBy completed.returncode (expectedExitCodes spec) = .ok true

def Commanded : Prop := ∀ stage spec, stageOf configured stage = .ok spec → ∃ argv, argvOf spec = .ok argv

inductive Executes (stage : String) (h : Harness) : Done Fault Harness String Unit → Prop where
  | missing (raised : Raised) (not : ¬ Startable ofText configured stage) :
      Executes stage h ⟨.error (.other raised), h, []⟩
  | failed (fault : Fault) (h' : Harness) (startable : Startable ofText configured stage)
      (not : ¬ Accepted ofText run configured stage)
      (attempted : h'.triggerAttempted = h.triggerAttempted)
      (failed : h.failed = true → h'.failed = true) : Executes stage h ⟨.error fault, h', [stage]⟩
  | accepted (h' : Harness) (startable : Startable ofText configured stage)
      (accepted : Accepted ofText run configured stage)
      (attempted : h'.triggerAttempted = h.triggerAttempted) (failed : h'.failed = h.failed) :
      Executes stage h ⟨.ok (), h', [stage]⟩

end

section
variable {ofText : Text → Option Int} {run : String → Raw → Int → Except Fault Completed}
  {configured : List (Text × Raw)}

theorem lift_ok {α β : Type} {value : Except Raised α} {a : α} (read : value = .ok a) (g : α → Step β)
    (h : Harness) : (lift value >>= g) h = g a h := by
  rw [lift, look_bind_ok (a := a) (by rw [read]; rfl)]

theorem lift_error {α β : Type} {value : Except Raised α} {e : Raised} (raised : value = .error e)
    (g : α → Step β) (h : Harness) : (lift value >>= g) h = ⟨.error (.other e), h, []⟩ := by
  rw [lift, look_bind_error (e := .other e) (by rw [raised]; rfl)]

theorem execute_spec (commanded : Commanded configured) (stage : String) (h : Harness) :
    Executes ofText run configured stage h (execute ofText run configured stage h) := by
  unfold execute
  cases present : stageOf configured stage with
  | error e =>
    rw [lift_error rfl]
    refine .missing e ?_
    rintro ⟨spec, timeout, found, -⟩
    rw [present] at found
    cases found
  | ok spec =>
    obtain ⟨argv, words⟩ := commanded stage spec present
    rw [lift_ok rfl, lift_ok words]
    cases limited : timeoutOf ofText spec with
    | error e =>
      rw [lift_error rfl]
      refine .missing e ?_
      rintro ⟨spec', timeout, found, limited'⟩
      cases present.symm.trans found
      rw [limited] at limited'
      cases limited'
    | ok timeout =>
      have startable : Startable ofText configured stage := ⟨spec, timeout, present, limited⟩
      rw [lift_ok rfl]
      cases ran : run stage argv timeout with
      | error fault =>
        rw [bind_of_error (m := start run stage argv timeout) (by rw [start, ran])]
        refine .failed fault h startable ?_ rfl id
        rintro ⟨spec', argv', timeout', completed, found, words', limited', ran', -⟩
        cases present.symm.trans found
        cases words.symm.trans words'
        cases limited.symm.trans limited'
        rw [ran] at ran'
        cases ran'
      | ok completed =>
        rw [bind_of_ok (m := start run stage argv timeout) (by rw [start, ran])]
        -- an exit code that cannot be compared, or is not accepted, or is
        have decided : Accepted ofText run configured stage →
            acceptedBy completed.returncode (expectedExitCodes spec) = .ok true := by
          rintro ⟨spec', argv', timeout', completed', found, words', limited', ran', accepted⟩
          cases present.symm.trans found
          cases words.symm.trans words'
          cases limited.symm.trans limited'
          cases ran.symm.trans ran'
          exact accepted
        cases code : acceptedBy completed.returncode (expectedExitCodes spec) with
        | error e =>
          rw [lift_error rfl]
          refine .failed _ h startable (fun accepted => ?_) rfl id
          rw [decided accepted] at code
          cases code
        | ok accepted =>
          rw [lift_ok rfl]
          cases accepted with
          | false =>
            refine .failed _ _ startable (fun accepted => ?_) rfl fun _ => rfl
            rw [decided accepted] at code
            cases code
          | true =>
            exact .accepted _ startable ⟨spec, argv, timeout, completed, present, words, limited, ran, code⟩
              rfl rfl

structure Keeps (m : Step Unit) : Prop where
  attempted : ∀ h, (m h).state.triggerAttempted = h.triggerAttempted
  failed : ∀ h, h.failed = true → (m h).state.failed = true

theorem keeps_execute (commanded : Commanded configured) (stage : String) :
    Keeps (execute ofText run configured stage) := by
  constructor <;> intro h
  · have spec : Executes ofText run configured stage h _ := execute_spec commanded stage h
    cases ended : execute ofText run configured stage h with
    | mk result state log =>
      rw [ended] at spec
      cases spec with
      | missing => rfl
      | failed _ _ _ _ attempted => exact attempted
      | accepted _ _ _ attempted => exact attempted
  · intro before
    have spec : Executes ofText run configured stage h _ := execute_spec commanded stage h
    cases ended : execute ofText run configured stage h with
    | mk result state log =>
      rw [ended] at spec
      cases spec with
      | missing => exact before
      | failed _ _ _ _ _ failed => exact failed before
      | accepted _ _ _ _ failed => exact failed.trans before

theorem execute_log (commanded : Commanded configured) (stage name : String) (h : Harness) :
    name ∈ (execute ofText run configured stage h).log ↔
      name = stage ∧ Startable ofText configured stage := by
  have spec : Executes ofText run configured stage h _ := execute_spec commanded stage h
  cases ended : execute ofText run configured stage h with
  | mk result state log =>
    rw [ended] at spec
    cases spec with
    | missing _ not => simp [not]
    | failed _ _ startable => simp [startable]
    | accepted _ startable => simp [startable]

theorem execute_ok (commanded : Commanded configured) (stage : String) (h : Harness) :
    (execute ofText run configured stage h).result = .ok () ↔ Accepted ofText run configured stage := by
  have spec : Executes ofText run configured stage h _ := execute_spec commanded stage h
  cases ended : execute ofText run configured stage h with
  | mk result state log =>
    rw [ended] at spec
    cases spec with
    | missing _ not =>
      refine ⟨fun same => (nomatch same), fun accepted => absurd ?_ not⟩
      obtain ⟨spec, -, timeout, -, found, -, limited, -⟩ := accepted
      exact ⟨spec, timeout, found, limited⟩
    | failed _ _ _ not => exact ⟨fun same => (nomatch same), fun accepted => absurd accepted not⟩
    | accepted _ _ accepted => exact ⟨fun _ => accepted, fun _ => rfl⟩

theorem execute_accepted (commanded : Commanded configured) {stage : String}
    (accepted : Accepted ofText run configured stage) (h : Harness) :
    (execute ofText run configured stage h).log = [stage] := by
  have spec : Executes ofText run configured stage h _ := execute_spec commanded stage h
  cases ended : execute ofText run configured stage h with
  | mk result state log =>
    rw [ended] at spec
    cases spec with
    | missing _ not =>
      obtain ⟨spec, -, timeout, -, found, -, limited, -⟩ := accepted
      exact absurd ⟨spec, timeout, found, limited⟩ not
    | failed => rfl
    | accepted => rfl

theorem except_log (stage : String) (m : Step Unit) (h : Harness) :
    (except stage m h).log = (m h).log := by
  unfold except
  split
  · rfl
  · split <;> rfl

theorem keeps_except {m : Step Unit} (keeps : Keeps m) (stage : String) : Keeps (except stage m) := by
  constructor <;> intro h
  · unfold except
    split
    · exact keeps.attempted h
    · split
      · exact keeps.attempted h
      · exact keeps.attempted h
  · intro before
    unfold except
    split
    · exact keeps.failed h before
    · split
      · rfl
      · exact keeps.failed h before

theorem except_clean {stage : String} {m : Step Unit} {h : Harness}
    (ok : (except stage m h).result = .ok ()) (clean : (except stage m h).state.failed = false) :
    (m h).result = .ok () ∧ except stage m h = m h := by
  cases ran : (m h).result with
  | ok u => exact ⟨rfl, by rw [except, ran]⟩
  | error fault =>
    cases caught : fault.caught with
    | some message =>
      simp only [except, ran, caught] at clean
      cases clean
    | none =>
      simp only [except, ran, caught] at ok
      cases ok

theorem ifAttempted_true {m : Step Unit} {h : Harness} (attempted : h.triggerAttempted = true) :
    ifAttempted m h = m h := if_pos attempted

theorem keeps_ifAttempted {m : Step Unit} (keeps : Keeps m) : Keeps (ifAttempted m) := by
  constructor <;> intro h
  · unfold ifAttempted
    split
    · exact keeps.attempted h
    · rfl
  · intro before
    unfold ifAttempted
    split
    · exact keeps.failed h before
    · exact before

theorem keeps_bind {m : Step Unit} {g : Unit → Step Unit} (first : Keeps m) (rest : ∀ u, Keeps (g u)) :
    Keeps (m >>= g) := by
  constructor <;> intro h
  · cases ran : (m h).result with
    | ok u =>
      rw [bind_ok ran]
      exact ((rest u).attempted _).trans (first.attempted h)
    | error fault =>
      rw [bind_error ran]
      exact first.attempted h
  · intro before
    cases ran : (m h).result with
    | ok u =>
      rw [bind_ok ran]
      exact (rest u).failed _ (first.failed h before)
    | error fault =>
      rw [bind_error ran]
      exact first.failed h before

theorem mem_log_bind {α β : Type} {m : Step α} {g : α → Step β} {h : Harness} {name : String} :
    name ∈ ((m >>= g) h).log ↔
      name ∈ (m h).log ∨ ∃ a, (m h).result = .ok a ∧ name ∈ (g a (m h).state).log := by
  cases ran : (m h).result with
  | ok a =>
    rw [bind_ok ran]
    simp
  | error fault =>
    rw [bind_error ran]
    simp

theorem attempt_attempted (commanded : Commanded configured) :
    (attempt ofText run configured idle).state.triggerAttempted = true ↔
      Accepted ofText run configured "precheck" := by
  have keeps (stage : String) : Keeps (execute ofText run configured stage) := keeps_execute commanded stage
  rw [← execute_ok commanded "precheck" idle]
  unfold attempt
  cases ran : (execute ofText run configured "precheck" idle).result with
  | ok u =>
    rw [bind_ok ran, bind_of_ok (m := modify _) rfl]
    refine ⟨fun _ => rfl, fun _ => ?_⟩
    exact (keeps_bind (keeps "trigger") fun _ => keeps "detect").attempted _
  | error fault =>
    rw [bind_error ran]
    have attempted := (keeps "precheck").attempted idle
    refine ⟨fun due => ?_, fun same => (nomatch same)⟩
    rw [attempted] at due
    cases due

theorem mem_attempt (commanded : Commanded configured) (name : String) :
    name ∈ (attempt ofText run configured idle).log ↔
      name = "precheck" ∧ Startable ofText configured "precheck" ∨
        Accepted ofText run configured "precheck" ∧
          (name = "trigger" ∧ Startable ofText configured "trigger" ∨
            Accepted ofText run configured "trigger" ∧
              name = "detect" ∧ Startable ofText configured "detect") := by
  have started (stage : String) (h : Harness) : name ∈ (execute ofText run configured stage h).log ↔
      name = stage ∧ Startable ofText configured stage := execute_log commanded stage name h
  have ended (stage : String) (h : Harness) : (execute ofText run configured stage h).result = .ok () ↔
      Accepted ofText run configured stage := execute_ok commanded stage h
  simp only [attempt, mem_log_bind, started, ended, modify, exists_const, List.not_mem_nil, false_or,
    true_and]

def later (ofText : Text → Option Int) (run : String → Raw → Int → Except Fault Completed)
    (configured : List (Text × Raw)) (name stage : String) : Step Unit :=
  ifAttempted (except name (execute ofText run configured stage))

theorem keeps_later (commanded : Commanded configured) (name stage : String) :
    Keeps (later ofText run configured name stage) :=
  keeps_ifAttempted (keeps_except (keeps_execute commanded stage) name)

theorem mem_later (commanded : Commanded configured) (name stage started : String) (h : Harness) :
    started ∈ (later ofText run configured name stage h).log ↔
      h.triggerAttempted = true ∧ started = stage ∧ Startable ofText configured stage := by
  unfold later ifAttempted
  split
  next attempted => rw [except_log, execute_log commanded, attempted, eq_self, true_and]
  next not => simp [not]

theorem harness_parts : harness ofText run configured =
    withCleanup (except "harness" (attempt ofText run configured))
      (later ofText run configured "recovery-harness" "recover") >>= fun _ =>
        later ofText run configured "verification-harness" "verify" := rfl

theorem mem_harness (commanded : Commanded configured) {name : String} (other : name ≠ "verify") :
    name ∈ (harness ofText run configured idle).log ↔
      name ∈ (attempt ofText run configured idle).log ∨
        Accepted ofText run configured "precheck" ∧ name = "recover" ∧
          Startable ofText configured "recover" := by
  have attempted : (except "harness" (attempt ofText run configured) idle).state.triggerAttempted =
      (attempt ofText run configured idle).state.triggerAttempted := by
    unfold except
    split
    · rfl
    · split <;> rfl
  rw [harness_parts, mem_log_bind, withCleanup, List.mem_append, except_log, mem_later commanded,
    attempted, attempt_attempted commanded]
  simp only [mem_later commanded, other, false_and, and_false, exists_const, or_false]

theorem later_clean (commanded : Commanded configured) {name stage : String} {h : Harness}
    (attempted : h.triggerAttempted = true)
    (ok : (later ofText run configured name stage h).result = .ok ())
    (clean : (later ofText run configured name stage h).state.failed = false) :
    Accepted ofText run configured stage ∧ (later ofText run configured name stage h).log = [stage] := by
  rw [later, ifAttempted_true attempted] at ok clean
  obtain ⟨ran, -⟩ := except_clean ok clean
  have accepted := (execute_ok commanded stage h).mp ran
  refine ⟨accepted, ?_⟩
  rw [later, ifAttempted_true attempted, except_log, execute_accepted commanded accepted]

theorem Keeps.clean {m : Step Unit} (keeps : Keeps m) {h : Harness}
    (clean : (m h).state.failed = false) : h.failed = false := by
  by_contra failed
  rw [keeps.failed h (Bool.not_eq_false _ ▸ failed)] at clean
  cases clean

theorem attempt_clean (commanded : Commanded configured)
    (ok : (attempt ofText run configured idle).result = .ok ()) :
    (attempt ofText run configured idle).log = ["precheck", "trigger", "detect"] ∧
      ∀ stage ∈ ["precheck", "trigger", "detect"], Accepted ofText run configured stage := by
  have ended (stage : String) (h : Harness) : (execute ofText run configured stage h).result = .ok () ↔
      Accepted ofText run configured stage := execute_ok commanded stage h
  have accepted : Accepted ofText run configured "precheck" ∧ Accepted ofText run configured "trigger" ∧
      Accepted ofText run configured "detect" := by
    unfold attempt at ok
    cases prechecked : (execute ofText run configured "precheck" idle).result with
    | error fault =>
      rw [bind_error prechecked] at ok
      cases ok
    | ok u =>
      rw [bind_ok prechecked, bind_of_ok (m := modify _) rfl] at ok
      generalize { (execute ofText run configured "precheck" idle).state with
        triggerAttempted := true } = h at ok
      cases triggered : (execute ofText run configured "trigger" h).result with
      | error fault =>
        rw [bind_error triggered] at ok
        cases ok
      | ok u' =>
        rw [bind_ok triggered] at ok
        exact ⟨(ended _ _).mp prechecked, (ended _ _).mp triggered, (ended _ _).mp ok⟩
  obtain ⟨precheck, trigger, detect⟩ := accepted
  refine ⟨?_, by simp [precheck, trigger, detect]⟩
  unfold attempt
  rw [bind_ok ((ended "precheck" _).mpr precheck), bind_of_ok (m := modify _) rfl,
    bind_ok ((ended "trigger" _).mpr trigger), execute_accepted commanded precheck,
    execute_accepted commanded trigger, execute_accepted commanded detect]
  rfl

def stages : List String := ["precheck", "trigger", "detect", "recover", "verify"]

theorem harness_clean (commanded : Commanded configured)
    (ok : (harness ofText run configured idle).result = .ok ())
    (clean : (harness ofText run configured idle).state.failed = false) :
    (harness ofText run configured idle).log = stages ∧
      ∀ stage ∈ stages, Accepted ofText run configured stage := by
  rw [harness_parts] at ok clean ⊢
  cases cleaned : (withCleanup (except "harness" (attempt ofText run configured))
      (later ofText run configured "recovery-harness" "recover") idle).result with
  | error fault =>
    rw [bind_error cleaned] at ok
    cases ok
  | ok u =>
    rw [bind_ok cleaned] at ok clean ⊢
    have first := cleaned
    simp only [withCleanup] at first ok clean ⊢
    generalize tried : except "harness" (attempt ofText run configured) idle = before at *
    generalize recovered : later ofText run configured "recovery-harness" "recover" before.state = after
      at *
    have unfailed : after.state.failed = false := (keeps_later commanded _ _).clean clean
    have unfailed' : before.state.failed = false := by
      rw [← recovered] at unfailed
      exact (keeps_later commanded _ _).clean unfailed
    have recoverOk : after.result = .ok () := by
      cases ended : after.result with
      | ok u => rfl
      | error fault =>
        rw [ended] at first
        cases first
    have tryOk : before.result = .ok () := by
      rw [recoverOk] at first
      exact first
    rw [← tried] at tryOk unfailed'
    obtain ⟨attemptOk, same⟩ := except_clean tryOk unfailed'
    obtain ⟨log, accepted⟩ := attempt_clean commanded attemptOk
    have attempted : before.state.triggerAttempted = true := by
      rw [← tried, same]
      exact (attempt_attempted commanded).mpr (accepted "precheck" List.mem_cons_self)
    rw [← recovered] at unfailed recoverOk
    obtain ⟨recover, recoverLog⟩ := later_clean commanded attempted recoverOk unfailed
    have attempted' : after.state.triggerAttempted = true := by
      rw [← recovered]
      exact ((keeps_later commanded _ _).attempted _).trans attempted
    obtain ⟨verify, verifyLog⟩ := later_clean commanded attempted' ok clean
    refine ⟨?_, ?_⟩
    · rw [verifyLog, ← recovered, recoverLog, ← tried, same, log]
      rfl
    · intro stage mem
      rcases List.mem_append.mp (show stage ∈ ["precheck", "trigger", "detect"] ++ ["recover", "verify"]
        from mem) with early | late
      · exact accepted stage early
      · rcases List.mem_cons.mp late with rfl | last
        · exact recover
        · rw [List.mem_singleton.mp last]
          exact verify

end

/-- A started trigger is followed by the start of the recovery, and the result
is PASS for five accepted stages only. -/
structure Recovers (ofText : Text → Option Int) (run : String → Raw → Int → Except Fault Completed)
    (configured : List (Text × Raw)) (done : Done Fault Harness String Report) : Prop where
  recovery : "trigger" ∈ done.log → "recover" ∈ done.log
  passed : ∀ report, done.result = .ok report → report.result = .pass →
    done.log = stages ∧ ∀ stage ∈ stages, Accepted ofText run configured stage

theorem member_mem {name : Text} {value : Raw} {members : List (Text × Raw)}
    (found : Raw.member name members = some value) : ∃ member ∈ members, member.2 = value := by
  induction members with
  | nil => cases found
  | cons head rest ih =>
    rw [Raw.member] at found
    split at found
    · cases found
      exact ⟨head, List.mem_cons_self, rfl⟩
    · obtain ⟨m, mem, same⟩ := ih found
      exact ⟨m, List.mem_cons_of_mem head mem, same⟩

theorem checkedRecipe_all {testId : Text} {recipe : Raw} {configured : List (Text × Raw)}
    (valid : checkedRecipe testId recipe = .ok configured) :
    (configured.all fun stage => validStage stage.2) = true := by
  unfold checkedRecipe at valid
  split at valid
  next members =>
    split at valid
    · cases valid
    · cases given : configuredOf (.obj members) testId with
      | error e =>
        rw [given] at valid
        cases valid
      | ok configured' =>
        rw [given] at valid
        replace valid : checkedStages configured' = .ok configured := valid
        unfold checkedStages at valid
        split at valid
        next all =>
          cases valid
          exact all
        next => cases valid
  next => cases valid

theorem validated_checked {scenarios : List FailureScenario} {testId : Text} {recipe : Raw}
    {confirmation : Text} {definition : FailureScenario} {configured : List (Text × Raw)}
    (valid : validated scenarios testId recipe confirmation = .ok (definition, configured)) :
    checkedRecipe testId recipe = .ok configured := by
  unfold validated at valid
  cases found : scenario scenarios testId with
  | error e =>
    rw [found] at valid
    cases valid
  | ok definition' =>
    rw [found] at valid
    by_cases confirmed : confirmation ≠ text "FAULT " ++ testId ++ text " PROFILE_B"
    · simp only [Except.bind, bind, if_pos confirmed, reduceCtorEq] at valid
    · cases checked : checkedRecipe testId recipe with
      | error e =>
        simp only [Except.bind, bind, if_neg confirmed, checked, reduceCtorEq] at valid
      | ok configured' =>
        simp only [Except.bind, bind, if_neg confirmed, checked, pure, Except.pure, Except.ok.injEq,
          Prod.mk.injEq] at valid
        rw [valid.2]

theorem commanded_of_validated {scenarios : List FailureScenario} {testId : Text} {recipe : Raw}
    {confirmation : Text} {definition : FailureScenario} {configured : List (Text × Raw)}
    (valid : validated scenarios testId recipe confirmation = .ok (definition, configured)) :
    Commanded configured := by
  have all := checkedRecipe_all (validated_checked valid)
  intro stage spec present
  unfold stageOf at present
  split at present
  next value found =>
    cases present
    obtain ⟨m, mem, rfl⟩ := member_mem found
    have checked := List.all_eq_true.mp all m mem
    unfold validStage at checked
    unfold argvOf
    split at checked
    next argv words => exact ⟨_, by rw [words]⟩
    next => cases checked
  next => cases present

/-- For a recipe that passes the validation, a started trigger is followed by the
recovery exactly if the recipe has a recovery that can be started, or the
trigger is not started: its precheck is not accepted, or it cannot be. -/
theorem recovers_iff (ofText : Text → Option Int) (scenarios : List FailureScenario)
    (run : String → Raw → Int → Except Fault Completed) (testId : Text) (recipe : Raw)
    (confirmation : Text) (definition : FailureScenario) (configured : List (Text × Raw))
    (valid : validated scenarios testId recipe confirmation = .ok (definition, configured)) :
    Recovers ofText run configured
        (runProfileBScenario ofText scenarios run testId recipe confirmation) ↔
      (Startable ofText configured "recover" ∨
        ¬ (Accepted ofText run configured "precheck" ∧ Startable ofText configured "trigger")) := by
  have commanded := commanded_of_validated valid
  have started (name : String) (other : name ≠ "verify") :
      name ∈ (harness ofText run configured idle).log ↔
        name ∈ (attempt ofText run configured idle).log ∨
          Accepted ofText run configured "precheck" ∧ name = "recover" ∧
            Startable ofText configured "recover" := mem_harness commanded other
  have ran : runProfileBScenario ofText scenarios run testId recipe confirmation =
      ⟨(harness ofText run configured idle).result.map fun _ =>
        ⟨definition, (harness ofText run configured idle).state.records,
          if (harness ofText run configured idle).state.failed then .fail else .pass⟩,
        (harness ofText run configured idle).state, (harness ofText run configured idle).log⟩ := by
    rw [runProfileBScenario, valid]
  have trigger : "trigger" ∈ (harness ofText run configured idle).log ↔
      Accepted ofText run configured "precheck" ∧ Startable ofText configured "trigger" := by
    rw [started "trigger" (by decide), mem_attempt commanded]
    simp only [String.reduceEq, false_and, and_false, or_false, false_or, true_and]
  have recover : "recover" ∈ (harness ofText run configured idle).log ↔
      Accepted ofText run configured "precheck" ∧ Startable ofText configured "recover" := by
    rw [started "recover" (by decide), mem_attempt commanded]
    simp only [String.reduceEq, false_and, and_false, or_false, false_or, true_and]
  have recovery : ("trigger" ∈ (harness ofText run configured idle).log →
      "recover" ∈ (harness ofText run configured idle).log) ↔
        (Startable ofText configured "recover" ∨
          ¬ (Accepted ofText run configured "precheck" ∧ Startable ofText configured "trigger")) := by
    rw [trigger, recover, or_comm, ← imp_iff_not_or]
    exact ⟨fun held due => (held due).2, fun held due => ⟨due.1, held due⟩⟩
  rw [ran, ← recovery]
  refine ⟨Recovers.recovery, fun held => ⟨held, fun report given passed => ?_⟩⟩
  cases ended : (harness ofText run configured idle).result with
  | error fault =>
    rw [ended] at given
    cases given
  | ok u =>
    rw [ended] at given
    cases given
    refine harness_clean commanded ended ?_
    by_contra failed
    rw [Bool.not_eq_false] at failed
    simp only [failed, if_true, reduceCtorEq] at passed

def elasticsearch : FailureScenario where
  testId := text "FAIL-01"
  name := text "Elasticsearch unavailable"
  preconditions := [text "queue available"]
  trigger := text "deny Elasticsearch connection"
  detectionMechanism := text "elastic_index_failure_total and health probe"
  expectedAlert := text "search dependency degraded"
  expectedSafeState := text "workflow continues; search visibly degraded"
  expectedDataBehaviour := text "buffer then idempotently replay"
  recoveryProcedure := text "restore Elasticsearch; replay bulk queue; compare event IDs"
  labCommand := text ("scripts/run-failure-scenario FAIL-01 --profile-b --recipe " ++
    "config/failure-profile-b.json --confirm 'FAULT FAIL-01 PROFILE_B'")
  locallyExecutable := true

def sampleStage : Raw := .obj [(text "argv", .arr [.str (text "true")])]

def recipeOf (configured : List (Text × Raw)) : Raw :=
  .obj [ (text "schema_version", .str (text "mirage.failure-recipe/1.0")),
    (text "scenarios", .obj [(text "FAIL-01", .obj configured)]) ]

def withoutRecovery : List (Text × Raw) :=
  [(text "precheck", sampleStage), (text "trigger", sampleStage)]

def allStages : List (Text × Raw) := stages.map fun stage => (text stage, sampleStage)

def succeeding (_ : String) (_ : Raw) (_ : Int) : Except Fault Completed := .ok ⟨0, [], []⟩

def sampleConfirmation : Text := text "FAULT FAIL-01 PROFILE_B"

theorem recipe_recovers :
    Recovers (fun _ => none) succeeding allStages (runProfileBScenario (fun _ => none) [elasticsearch]
        succeeding (text "FAIL-01") (recipeOf allStages) sampleConfirmation) ↔
      (Startable (fun _ => none) allStages "recover" ∨
        ¬ (Accepted (fun _ => none) succeeding allStages "precheck" ∧
          Startable (fun _ => none) allStages "trigger")) :=
  recovers_iff (fun _ => none) [elasticsearch] succeeding (text "FAIL-01") (recipeOf allStages)
    sampleConfirmation elasticsearch allStages rfl

/-- The trigger runs, `detect` is missing, and so is the recovery. -/
theorem trigger_unrecovered : ¬ ∀ (ofText : Text → Option Int) (scenarios : List FailureScenario)
    (run : String → Raw → Int → Except Fault Completed) (testId : Text) (recipe : Raw)
    (confirmation : Text) (definition : FailureScenario) (configured : List (Text × Raw)),
    validated scenarios testId recipe confirmation = .ok (definition, configured) →
      Recovers ofText run configured
        (runProfileBScenario ofText scenarios run testId recipe confirmation) := by
  intro always
  have recovers := always (fun _ => none) [elasticsearch] succeeding (text "FAIL-01")
    (recipeOf withoutRecovery) sampleConfirmation elasticsearch withoutRecovery rfl
  have log : (runProfileBScenario (fun _ => none) [elasticsearch] succeeding (text "FAIL-01")
      (recipeOf withoutRecovery) sampleConfirmation).log = ["precheck", "trigger"] := by decide +kernel
  have recovered := recovers.recovery (by rw [log]; exact List.mem_cons_of_mem _ List.mem_cons_self)
  rw [log] at recovered
  simp at recovered

end Mirage.FaultRecovery
