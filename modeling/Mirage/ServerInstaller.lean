import Mirage.EventRun
import Mathlib

/-! The server installer of server_installer.py: the plan of each operation, what `_execute` chooses to do
for a step, and `ServerInstaller.run` over a journal that all runs of a host share. What a step finds on
the host comes with the run. -/

namespace Mirage.ServerInstaller
open EventRun

inductive Operation where
  | install
  | validate
  | upgrade
  | rollback
  | repair
  | status
  | uninstall
  deriving DecidableEq

inductive StepId where
  | preflight
  | capacity
  | clock
  | dns
  | ports
  | docker
  | compose
  | firewall
  | directories
  | configuration
  | secretReferences
  | tls
  | images
  | sbom
  | pythonPackage
  | deploy
  | migrations
  | nats
  | elastic
  | keycloak
  | stepCa
  | administrator
  | enrolment
  | health
  | synthetic
  | report
  | releaseVerify
  | rollback
  | uninstall
  | inventory
  deriving DecidableEq

structure InstallStep where
  number : ℕ
  stepId : StepId
  description : String
  command : Option (List String)
  destructive : Bool

structure RawStep where
  stepId : StepId
  description : String
  command : Option (List String)

def mirageScript (arguments : List String) : Option (List String) := some (".venv/bin/python" :: arguments)

def composeProduction (arguments : List String) : Option (List String) :=
  some (["docker", "compose", "--env-file", ".env", "-f", "infra/compose/docker-compose.production.yml"] ++
    arguments)

def common : List RawStep :=
  [⟨.preflight, "Validate Ubuntu OS and architecture", none⟩,
    ⟨.capacity, "Validate CPU, RAM, disk, and filesystem", none⟩,
    ⟨.clock, "Validate clock synchronisation", some ["timedatectl", "show"]⟩,
    ⟨.dns, "Validate configured service DNS", none⟩,
    ⟨.ports, "Validate required ports", none⟩,
    ⟨.docker, "Install or validate Docker Engine", some ["docker", "version"]⟩,
    ⟨.compose, "Install or validate Docker Compose", some ["docker", "compose", "version"]⟩,
    ⟨.firewall, "Validate host firewall policy", some ["ufw", "status"]⟩,
    ⟨.directories, "Create protected directories and ownership", none⟩,
    ⟨.configuration, "Validate configuration", mirageScript ["scripts/validate-config"]⟩,
    ⟨.secretReferences, "Validate secret references and refuse any development-only Compose setting",
      mirageScript ["scripts/validate-production-compose"]⟩,
    ⟨.tls, "Bootstrap TLS and CA references", none⟩,
    ⟨.images, "Verify container image digests", none⟩,
    ⟨.sbom, "Verify package SBOM hashes", none⟩]

section
variable (executable : String)

/-- The steps of an installation; `executable` is `sys.executable`. -/
def install : List RawStep :=
  [⟨.pythonPackage, "Install the bundled Mirage Python wheel into a dedicated venv",
      some [executable, "scripts/install-mirage-package"]⟩,
    ⟨.deploy, "Deploy the Compose control plane", composeProduction ["up", "-d"]⟩,
    ⟨.migrations, "Apply PostgreSQL migrations", mirageScript ["scripts/migrate", "up"]⟩,
    ⟨.nats, "Create NATS streams", mirageScript ["scripts/provision-nats-streams"]⟩,
    ⟨.elastic, "Create Elastic templates and data streams", mirageScript ["scripts/provision-elastic-templates"]⟩,
    ⟨.keycloak, "Create Keycloak realm and roles", mirageScript ["scripts/bootstrap-keycloak-realm"]⟩,
    ⟨.stepCa, "Create step-ca provisioners", mirageScript ["scripts/bootstrap-step-ca-provisioners"]⟩,
    ⟨.administrator, "Create initial administrator using protected input", none⟩,
    ⟨.enrolment, "Create one-time agent enrolment token", none⟩,
    ⟨.health, "Verify deployment health", mirageScript ["scripts/mirage-health"]⟩,
    ⟨.synthetic, "Run synthetic transaction", none⟩,
    ⟨.report, "Generate signed installation report", mirageScript ["scripts/generate-install-report"]⟩]

def operationSpecific : Operation → List RawStep
  | .validate => []
  | .status => [⟨.health, "Report installed service status", composeProduction ["ps"]⟩]
  | .install => install executable
  | .repair => (install executable).drop 6
  | .upgrade =>
    ⟨.releaseVerify, "Verify new release package", mirageScript ["scripts/verify-release"]⟩ :: install executable
  | .rollback =>
    [⟨.rollback, "Restore the recorded prior release",
        mirageScript ["scripts/rollback-server", "--execute-internal"]⟩,
      ⟨.health, "Verify rolled-back service health", mirageScript ["scripts/mirage-health"]⟩]
  | .uninstall =>
    [⟨.uninstall, "Remove services while preserving configured evidence", composeProduction ["down"]⟩,
      ⟨.inventory, "Verify service removal and evidence preservation",
        mirageScript ["scripts/inventory-aws", "--local-only"]⟩]

def destructive (operation : Operation) : Bool := operation = .rollback || operation = .uninstall

def serverPlan (operation : Operation) : List InstallStep :=
  ((common ++ operationSpecific executable operation).zipIdx 1).map fun value =>
    { number := value.2
      stepId := value.1.stepId
      description := value.1.description
      command := value.1.command
      destructive := destructive operation && (value.1.stepId = .rollback || value.1.stepId = .uninstall) }

end

structure PackageFile where
  path : String
  content : Option ByteArray
  deriving DecidableEq

structure Installer where
  executable : String
  root : String
  environment : String
  config : String
  package : Option PackageFile
  deriving DecidableEq

def Installer.release (i : Installer) : Option ByteArray := i.package.bind PackageFile.content

/-- What `platform`, `/etc/os-release`, `shutil` and the resolver say of the host. -/
structure Machine where
  system : String
  osId : Option String
  versionId : String
  machine : String
  freeBytes : ℕ
  configIsFile : Bool
  localhostResolves : Bool
  deriving DecidableEq

def relaxedEnvironments : List String := ["development", "local", "test"]

def preflight (m : Machine) (i : Installer) : List String :=
  (if m.system ≠ "Linux" then ["server installation requires Ubuntu Linux"]
    else
      (if m.osId = some "ubuntu" then []
        else ["server installation requires Ubuntu, found " ++ m.osId.getD "unknown"]) ++
      (if m.versionId = "" ∨ m.versionId ∈ ["22.04", "24.04"] then []
        else ["unsupported Ubuntu version: " ++ m.versionId])) ++
  (if m.machine ∈ ["x86_64", "aarch64"] then [] else ["unsupported architecture: " ++ m.machine]) ++
  (if m.freeBytes < 20 * 1024 ^ 3 then ["at least 20 GiB free disk is required"] else []) ++
  (if m.configIsFile then [] else ["configuration does not exist: " ++ i.config]) ++
  (if m.localhostResolves then [] else ["local DNS resolution failed"]) ++
  match i.package with
  | some ⟨path, none⟩ => ["air-gapped release package does not exist: " ++ path]
  | _ => []

inductive Action where
  | validateClock
  | ensureDocker
  | configureFirewall
  | runCommand (command : List String)
  | runProtectedRecipe (environmentName : String)
  | verifyRelease (package : Option PackageFile)
  | verifyReleaseInventory (kind : StepId) (package : Option PackageFile)
  | generateInstallReport
  | checkPorts (collisions : Bool)
  | internalCheck (stepId : StepId)
  deriving DecidableEq

def internalCheck (i : Installer) (operation : Operation) (stepId : StepId) : Action :=
  match stepId with
  | .ports => .checkPorts (operation = .install || operation = .validate)
  | .images => .verifyReleaseInventory .images i.package
  | .sbom => .verifyReleaseInventory .sbom i.package
  | _ => .internalCheck stepId

def execute (i : Installer) (operation : Operation) (step : InstallStep) : Action :=
  match step.stepId with
  | .clock => .validateClock
  | .docker => .ensureDocker
  | .compose => .runCommand ["docker", "compose", "version"]
  | .configuration => .runCommand ([i.executable, i.root ++ "/scripts/validate-config", i.config] ++
      if i.environment ∈ relaxedEnvironments then [] else ["--strict"])
  | .releaseVerify => .verifyRelease i.package
  | .report => .generateInstallReport
  | .tls => .runProtectedRecipe "MIRAGE_TLS_BOOTSTRAP_RECIPE"
  | .administrator => .runProtectedRecipe "MIRAGE_ADMIN_BOOTSTRAP_RECIPE"
  | .enrolment => .runProtectedRecipe "MIRAGE_ENROLMENT_RECIPE"
  | .synthetic => .runProtectedRecipe "MIRAGE_SYNTHETIC_RECIPE"
  | .rollback => .runProtectedRecipe "MIRAGE_ROLLBACK_RECIPE"
  | .firewall => .configureFirewall
  | stepId =>
    match step.command with
    | none => internalCheck i operation stepId
    | some command => .runCommand (if command.head? = some ".venv/bin/python" then i.executable :: command.tail
        else command)

structure StepResult where
  stepId : StepId
  passed : Bool
  detail : String
  deriving DecidableEq

structure Record where
  operation : Operation
  environment : String
  package : Option ByteArray
  results : List StepResult
  deriving DecidableEq

/-- A call of `run`. -/
structure Call where
  installer : Installer
  machine : Machine
  operation : Operation
  dryRun : Bool
  confirmation : Option String
  readable : Bool
  outcome : StepId → Except String String
  recorded : StepId → Bool

def perform (c : Call) (step : InstallStep) : Except String String :=
  match execute c.installer c.operation step with
  | .internalCheck .preflight => .ok "Ubuntu/architecture/configuration/package preflight validated"
  | .checkPorts false => .ok "required-port collision check skipped for installed-service operation"
  | .verifyRelease none => .error "RuntimeError: upgrade requires --package"
  | .verifyReleaseInventory .images none => .error "RuntimeError: images verification requires --package"
  | .verifyReleaseInventory .sbom none => .error "RuntimeError: sbom verification requires --package"
  | _ => c.outcome step.stepId

def stepResult (c : Call) (step : InstallStep) : StepResult :=
  match perform c step with
  | .ok detail => ⟨step.stepId, true, detail⟩
  | .error detail => ⟨step.stepId, false, detail⟩

/-- A step that a run executed: what it did, whether it passed, and whether the journal says so. -/
structure Executed where
  stepId : StepId
  action : Action
  passed : Bool
  recorded : Bool
  deriving DecidableEq

structure Progress where
  journal : Option Record
  executed : List Executed
  returned : Bool

def resultsOf (journal : Option Record) : List StepResult := journal.elim [] Record.results

def completedSteps (results : List StepResult) : List StepId :=
  (results.filter StepResult.passed).map StepResult.stepId

def performSteps (c : Call) (completed : List StepId) (journal : Option Record) (results : List StepResult) :
    List InstallStep → Progress
  | [] => ⟨journal, [], true⟩
  | step :: rest =>
    if step.stepId ∈ completed then performSteps c completed journal results rest
    else
      let result := stepResult c step
      let results := results ++ [result]
      let record : Record := ⟨c.operation, c.installer.environment, c.installer.release, results⟩
      let executed : Executed :=
        ⟨step.stepId, execute c.installer c.operation step, result.passed, c.recorded step.stepId⟩
      if c.recorded step.stepId = false then ⟨journal, [executed], false⟩
      else if result.passed = false then ⟨some record, [executed], false⟩
      else
        let later := performSteps c completed (some record) results rest
        { later with executed := executed :: later.executed }

structure Attempt where
  call : Call
  executed : List Executed
  returned : Bool

structure World where
  journal : Option Record
  attempts : List Attempt

def start : World := ⟨none, []⟩

def starts (c : Call) : Bool :=
  (!destructive c.operation || c.confirmation = some ("mirage:" ++ c.installer.environment)) &&
    (preflight c.machine c.installer).isEmpty && c.readable

def dryRunSteps (c : Call) : List InstallStep := serverPlan c.installer.executable c.operation

def progress (journal : Option Record) (c : Call) : Progress :=
  if starts c then
    performSteps c (completedSteps (resultsOf journal)) journal (resultsOf journal)
      (serverPlan c.installer.executable c.operation)
  else ⟨journal, [], false⟩

/-- `ServerInstaller.run`; a dry run only reports its plan. -/
def run (w : World) (c : Call) : World :=
  if c.dryRun then w
  else
    let done := progress w.journal c
    ⟨done.journal, w.attempts ++ [⟨c, done.executed, done.returned⟩]⟩

/-! What a run owes to its plan. -/

def sameJob (c d : Call) : Prop := c.operation = d.operation ∧ c.installer.release = d.installer.release

def Resumed (c : Call) (a : Attempt) (since : List Attempt) : Prop :=
  sameJob a.call c ∧ a.returned = false ∧ ∀ b ∈ since, sameJob b.call c → b.returned = false

def PassedEarlier (attempts : List Attempt) (c : Call) (stepId : StepId) : Prop :=
  ∃ before a since, attempts = before ++ a :: since ∧ Resumed c a since ∧
    ∃ e ∈ a.executed, e.stepId = stepId ∧ e.passed = true

def PerformsPlan (attempts : List Attempt) (a : Attempt) : Prop :=
  ∀ step ∈ serverPlan a.call.installer.executable a.call.operation,
    (∃ e ∈ a.executed, e.stepId = step.stepId ∧
      e.action = execute a.call.installer a.call.operation step ∧ e.passed = true) ∨
    PassedEarlier attempts a.call step.stepId

def Sound (w : World) : Prop :=
  ∀ before a since, w.attempts = before ++ a :: since → a.returned = true → PerformsPlan before a

def admitted (w : World) (c : Call) : Prop :=
  c.dryRun = false → starts c = true → ∀ step ∈ serverPlan c.installer.executable c.operation,
    ∀ before a since, w.attempts = before ++ a :: since →
      (∃ e ∈ a.executed, e.stepId = step.stepId ∧ e.passed = true ∧ e.recorded = true) → Resumed c a since

def Inv (w : World) : Prop :=
  ∀ stepId ∈ completedSteps (resultsOf w.journal), ∃ a ∈ w.attempts, ∃ e ∈ a.executed,
    e.stepId = stepId ∧ e.passed = true ∧ e.recorded = true

section
variable {c : Call} {w : World} {journal : Option Record} {results : List StepResult}
  {completed : List StepId} {steps : List InstallStep}

theorem mem_completedSteps {stepId : StepId} : stepId ∈ completedSteps results ↔
    ∃ r ∈ results, r.stepId = stepId ∧ r.passed = true := by
  rw [completedSteps, List.mem_map]
  constructor
  · rintro ⟨r, mem, same⟩
    obtain ⟨mem, passed⟩ := List.mem_filter.mp mem
    exact ⟨r, mem, same, passed⟩
  · rintro ⟨r, mem, same, passed⟩
    exact ⟨r, List.mem_filter.mpr ⟨mem, passed⟩, same⟩

theorem stepResult_stepId (step : InstallStep) : (stepResult c step).stepId = step.stepId := by
  unfold stepResult
  split <;> rfl

theorem performSteps_returned (returned : (performSteps c completed journal results steps).returned = true) :
    ∀ step ∈ steps, step.stepId ∉ completed →
      ∃ e ∈ (performSteps c completed journal results steps).executed, e.stepId = step.stepId ∧
        e.action = execute c.installer c.operation step ∧ e.passed = true := by
  induction steps generalizing journal results with
  | nil => exact fun step mem => (by cases mem)
  | cons first rest ih =>
    rw [performSteps] at returned ⊢
    split at returned
    next known =>
      rw [if_pos known]
      intro step mem fresh
      rcases List.mem_cons.mp mem with rfl | mem
      · exact absurd known fresh
      · exact ih returned step mem fresh
    next unknown =>
      rw [if_neg unknown]
      dsimp only at returned ⊢
      split at returned
      next => cases returned
      next written =>
        rw [if_neg written]
        split at returned
        next => cases returned
        next passed =>
          rw [if_neg passed]
          intro step mem fresh
          rcases List.mem_cons.mp mem with rfl | mem
          · exact ⟨_, List.mem_cons_self, rfl, rfl, Bool.not_eq_false _ ▸ passed⟩
          · obtain ⟨e, executed, facts⟩ := ih returned step mem fresh
            exact ⟨e, List.mem_cons_of_mem _ executed, facts⟩

theorem performSteps_journal (same : resultsOf journal = results) {stepId : StepId}
    (mem : stepId ∈ completedSteps (resultsOf (performSteps c completed journal results steps).journal)) :
    stepId ∈ completedSteps results ∨ ∃ e ∈ (performSteps c completed journal results steps).executed,
      e.stepId = stepId ∧ e.passed = true ∧ e.recorded = true := by
  induction steps generalizing journal results with
  | nil =>
    rw [← same]
    exact .inl mem
  | cons first rest ih =>
    rw [performSteps] at mem ⊢
    split at mem
    next known =>
      rw [if_pos known]
      exact ih same mem
    next unknown =>
      rw [if_neg unknown]
      dsimp only at mem ⊢
      -- the result of the step joins the journal's
      have joins : stepId ∈ completedSteps (results ++ [stepResult c first]) →
          stepId ∈ completedSteps results ∨ stepId = first.stepId ∧ (stepResult c first).passed = true := by
        intro mem
        obtain ⟨r, mem, named, passed⟩ := mem_completedSteps.mp mem
        rcases List.mem_append.mp mem with old | new
        · exact .inl (mem_completedSteps.mpr ⟨r, old, named, passed⟩)
        · rw [List.mem_singleton.mp new] at named passed
          exact .inr ⟨named.symm.trans (stepResult_stepId first), passed⟩
      split at mem
      next unwritten =>
        rw [if_pos unwritten]
        exact .inl (same ▸ mem)
      next written =>
        rw [if_neg written]
        rw [Bool.not_eq_false] at written
        split at mem
        next failed =>
          rw [if_pos failed]
          rcases joins mem with old | ⟨-, passed⟩
          · exact .inl old
          · rw [failed] at passed
            cases passed
        next passed =>
          rw [if_neg passed]
          rcases ih rfl mem with here | ⟨e, executed, facts⟩
          · rcases joins here with old | ⟨named, passed⟩
            · exact .inl old
            · exact .inr ⟨_, List.mem_cons_self, named.symm, passed, written⟩
          · exact .inr ⟨e, List.mem_cons_of_mem _ executed, facts⟩

theorem run_inv (inv : Inv w) (c : Call) : Inv (run w c) := by
  rw [run]
  split
  · exact inv
  intro stepId mem
  dsimp only at mem ⊢
  rw [progress] at mem ⊢
  have earlier : stepId ∈ completedSteps (resultsOf w.journal) → ∀ a : Attempt, ∃ b ∈ w.attempts ++ [a],
      ∃ e ∈ b.executed, e.stepId = stepId ∧ e.passed = true ∧ e.recorded = true := by
    intro known a
    obtain ⟨b, listed, found⟩ := inv stepId known
    exact ⟨b, List.mem_append_left _ listed, found⟩
  split at mem
  next begun =>
    rw [if_pos begun]
    rcases performSteps_journal rfl mem with known | ⟨e, executed, facts⟩
    · exact earlier known _
    · exact ⟨_, List.mem_append_right _ List.mem_cons_self, e, executed, facts⟩
  next refused =>
    rw [if_neg refused]
    exact earlier mem _

theorem starts_of_returned (returned : (progress journal c).returned = true) : starts c = true := by
  rw [progress] at returned
  split at returned
  next begun => exact begun
  next => cases returned

theorem sound_concat {attempts : List Attempt} {a : Attempt} {journal journal' : Option Record}
    (sound : Sound ⟨journal, attempts⟩) (own : a.returned = true → PerformsPlan attempts a) :
    Sound ⟨journal', attempts ++ [a]⟩ := by
  intro before b since parts returned
  rcases List.eq_nil_or_concat since with rfl | ⟨front, last, rfl⟩
  · obtain ⟨rfl, same⟩ := List.append_inj' parts rfl
    cases same
    exact own returned
  · rw [List.concat_eq_append, ← List.cons_append, ← List.append_assoc] at parts
    exact sound before b front (List.append_inj' parts rfl).1 returned

theorem run_sound (inv : Inv w) (sound : Sound w) (ok : admitted w c) : Sound (run w c) := by
  rw [run]
  split
  · exact sound
  rename_i real
  refine sound_concat sound fun returned step planned => ?_
  dsimp only at returned planned ⊢
  have begun := starts_of_returned returned
  rw [progress, if_pos begun] at returned ⊢
  by_cases known : step.stepId ∈ completedSteps (resultsOf w.journal)
  · obtain ⟨a, listed, e, executed, named, passed, recorded⟩ := inv step.stepId known
    obtain ⟨before, since, parts⟩ := List.append_of_mem listed
    have resumed := ok (Bool.not_eq_true _ ▸ real) begun step planned before a since parts
      ⟨e, executed, named, passed, recorded⟩
    exact .inr ⟨before, a, since, parts, resumed, e, executed, named, passed⟩
  · exact .inl (performSteps_returned returned step planned known)

/-- Over every sequence of calls on one journal. -/
theorem performs_own_plan (calls : List Call) (along : Along run admitted start calls) :
    Throughout run Sound start calls := by
  refine throughout_of_along (I := fun w => Inv w ∧ Sound w) (fun w c both ok => ?_) (fun w both => both.2) ?_ along
  · exact ⟨run_inv both.1 c, run_sound both.1 both.2 ok⟩
  · refine ⟨fun stepId mem => (by cases mem), fun before a since parts => ?_⟩
    exact absurd parts.symm (List.append_ne_nil_of_right_ne_nil before (List.cons_ne_nil a since))

end

def sampleMachine : Machine := ⟨"Linux", some "ubuntu", "24.04", "x86_64", 2 ^ 40, true, true⟩

def sampleInstaller (path : String) (content : ByteArray) : Installer :=
  ⟨"/usr/bin/python3", "/opt/mirage", "production", "/opt/mirage/config/production.yaml",
    some ⟨path, some content⟩⟩

def sampleCall (operation : Operation) (installer : Installer) (failing : List StepId) : Call where
  installer := installer
  machine := sampleMachine
  operation := operation
  dryRun := false
  confirmation := none
  readable := true
  outcome stepId := if stepId ∈ failing then .error "RuntimeError: command failed" else .ok "command completed"
  recorded _ := true

def firstRelease : Installer := sampleInstaller "/media/release-1.zip" "release 1".toUTF8

def secondRelease : Installer := sampleInstaller "/media/release-2.zip" "release 2".toUTF8

def interrupted : Call := sampleCall .install firstRelease [.deploy]

def resumedRun : List Call := [interrupted, sampleCall .install firstRelease []]

theorem resumed_performs : Throughout run Sound start resumedRun := by
  refine performs_own_plan resumedRun ⟨?_, ?_, trivial⟩
  · intro _ _ step _ before a since parts
    exact absurd parts.symm (List.append_ne_nil_of_right_ne_nil before (List.cons_ne_nil a since))
  · intro _ _ step _ before a since parts _
    have failed : (progress none interrupted).returned = false := by decide +kernel
    obtain ⟨rfl, same⟩ := List.append_eq_singleton_iff.mp parts.symm |>.resolve_right fun h => (by cases h.2)
    cases same
    exact ⟨⟨rfl, rfl⟩, failed, fun b mem => (by cases mem)⟩

def upgradeRun : List Call := [sampleCall .install firstRelease [], sampleCall .upgrade secondRelease []]

theorem upgradeRun_executed : (EventRun.run run start upgradeRun).attempts.map
    (fun a => (a.returned, a.executed.map Executed.stepId)) =
      [(true, (serverPlan "/usr/bin/python3" .install).map InstallStep.stepId), (true, [.releaseVerify])] := by
  decide +kernel

/-- The new release is not deployed. -/
theorem upgrade_skips_deployment : ¬ Throughout run Sound start upgradeRun := by
  intro throughout
  have sound := throughout_last throughout
  have executed := upgradeRun_executed
  obtain ⟨first, second, parts⟩ : ∃ first second,
      (EventRun.run run start upgradeRun).attempts = [first, second] ∧ first.call = sampleCall .install firstRelease [] ∧ second.call = sampleCall .upgrade secondRelease [] :=
    ⟨_, _, rfl, rfl, rfl⟩
  obtain ⟨parts, installed, upgraded⟩ := parts
  rw [parts] at executed
  simp only [List.map_cons, List.map_nil, List.cons.injEq, Prod.mk.injEq, and_true] at executed
  obtain ⟨-, returned, only⟩ := executed
  have planned : ∃ step ∈ serverPlan "/usr/bin/python3" .upgrade, step.stepId = .deploy := by decide
  obtain ⟨step, planned, deploys⟩ := planned
  have performs := sound [first] second [] parts returned step (upgraded ▸ planned)
  rw [deploys] at performs
  rcases performs with ⟨e, mem, named, -⟩ | ⟨before, a, since, earlier, ⟨same, -⟩, -⟩
  · have listed := List.mem_map_of_mem (f := Executed.stepId) mem
    rw [only, named] at listed
    exact absurd listed (by decide)
  · obtain ⟨rfl, alone⟩ := List.append_eq_singleton_iff.mp earlier.symm |>.resolve_right fun h => (by cases h.2)
    cases alone
    have operations := same.1
    rw [installed, upgraded] at operations
    cases operations

end Mirage.ServerInstaller
