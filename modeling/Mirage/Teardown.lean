import Mirage.EventRun
import Mirage.KeyedTable
import Mirage.SignedPackage

/-! `TeardownWorkflow`: twenty-five steps in order, a journal that is written behind each
of them, and executions that read it and go on. -/

namespace Mirage.Teardown
open EventRun PythonText

inductive TeardownStep where
  | blockAnalystDirectives
  | blockDirectMessages
  | blockAiMutations
  | blockArtifactDeployments
  | markCaseConcluding
  | drainQueues
  | recordRemainingGaps
  | captureFinalSnapshot
  | captureFinalFingerprint
  | verifyRequiredEvidence
  | generateFinalReport
  | generateFinalManifest
  | signReportAndManifest
  | independentlyVerifyExport
  | revokeSandboxCertificate
  | revokeTemporaryAgentCertificates
  | terminateSandboxSessions
  | destroySandbox
  | removeTemporaryComputeAndVolumes
  | removeTemporaryCredentialsAndTokens
  | removeTemporaryPublicEndpoints
  | preserveEvidenceResources
  | runInventory
  | confirmNoDisallowedResources
  | markCaseDestroyed
  deriving DecidableEq

def teardownSteps : List TeardownStep :=
  [.blockAnalystDirectives, .blockDirectMessages, .blockAiMutations, .blockArtifactDeployments,
    .markCaseConcluding, .drainQueues, .recordRemainingGaps, .captureFinalSnapshot, .captureFinalFingerprint,
    .verifyRequiredEvidence, .generateFinalReport, .generateFinalManifest, .signReportAndManifest,
    .independentlyVerifyExport, .revokeSandboxCertificate, .revokeTemporaryAgentCertificates,
    .terminateSandboxSessions, .destroySandbox, .removeTemporaryComputeAndVolumes,
    .removeTemporaryCredentialsAndTokens, .removeTemporaryPublicEndpoints, .preserveEvidenceResources,
    .runInventory, .confirmNoDisallowedResources, .markCaseDestroyed]

def TeardownStep.text : TeardownStep → String
  | blockAnalystDirectives => "block_analyst_directives"
  | blockDirectMessages => "block_direct_messages"
  | blockAiMutations => "block_ai_mutations"
  | blockArtifactDeployments => "block_artifact_deployments"
  | markCaseConcluding => "mark_case_concluding"
  | drainQueues => "drain_queues"
  | recordRemainingGaps => "record_remaining_gaps"
  | captureFinalSnapshot => "capture_final_snapshot"
  | captureFinalFingerprint => "capture_final_fingerprint"
  | verifyRequiredEvidence => "verify_required_evidence"
  | generateFinalReport => "generate_final_report"
  | generateFinalManifest => "generate_final_manifest"
  | signReportAndManifest => "sign_report_and_manifest"
  | independentlyVerifyExport => "independently_verify_export"
  | revokeSandboxCertificate => "revoke_sandbox_certificate"
  | revokeTemporaryAgentCertificates => "revoke_temporary_agent_certificates"
  | terminateSandboxSessions => "terminate_sandbox_sessions"
  | destroySandbox => "destroy_sandbox"
  | removeTemporaryComputeAndVolumes => "remove_temporary_compute_and_volumes"
  | removeTemporaryCredentialsAndTokens => "remove_temporary_credentials_and_tokens"
  | removeTemporaryPublicEndpoints => "remove_temporary_public_endpoints"
  | preserveEvidenceResources => "preserve_evidence_resources"
  | runInventory => "run_inventory"
  | confirmNoDisallowedResources => "confirm_no_disallowed_resources"
  | markCaseDestroyed => "mark_case_destroyed"

structure CloudResource where
  resourceId : String
  project : String
  environment : String
  caseId : Option String
  resourceType : String
  temporary : Bool
  protectedEvidence : Bool
  active : Bool
  deriving DecidableEq

structure EvidenceGapOverride where
  reason : Text
  missingItems : List Text
  actor : Text
  policyDecisionId : Text
  policyAllows : Bool
  deriving DecidableEq

/-- `EvidenceGapOverride.validate`; the error is the text of the `ValueError`. -/
def EvidenceGapOverride.validate (o : EvidenceGapOverride) : Except String Unit :=
  if SignedPackage.strip o.reason = [] ∨ o.missingItems = [] ∨ SignedPackage.strip o.actor = [] then
    .error "override requires reason, missing items, and actor"
  else if o.policyDecisionId = [] ∨ o.policyAllows = false then
    .error "override requires an ALLOW policy decision"
  else .ok ()

def inventory (project environment : String) (caseId : Option String) (resources : List CloudResource) :
    Except String (List CloudResource) :=
  if project ≠ "mirage" ∨ environment = "" then
    .error "exact Project=mirage and Environment filters are required"
  else .ok (resources.filter fun item => item.active && item.project == project &&
    item.environment == environment && (caseId.isNone || item.caseId == caseId))

def deactivated (resource : CloudResource) : CloudResource := { resource with active := false }

theorem deactivated_resourceId (resource : CloudResource) :
    (deactivated resource).resourceId = resource.resourceId := rfl

abbrev Resources := KeyedTable CloudResource.resourceId

def deactivate (resources : Resources) (resourceId : String) : Resources :=
  resources.update resourceId deactivated deactivated_resourceId

/-- The arguments of `TeardownWorkflow`, which requires an environment and a case. -/
structure Workflow where
  environment : String
  caseId : String
  requiredEvidenceVerified : Bool
  exportVerified : Bool
  queueDrainSucceeds : Bool
  finalSnapshotSucceeds : Bool
  certificateRevocationSucceeds : Bool
  inventoryComplete : Bool
  override : Option EvidenceGapOverride
  named : environment ≠ "" ∧ caseId ≠ ""

inductive CaseState where
  | engaging | concluding | destroyed
  deriving DecidableEq

inductive AuditEntry where
  | evidenceGapDetected
  | evidenceGapOverride (o : EvidenceGapOverride)
  deriving DecidableEq

/-- `self.state`, which is written with the journal. -/
structure TeardownState where
  caseState : CaseState
  directivesAllowed : Bool
  messagesAllowed : Bool
  aiMutationsAllowed : Bool
  artifactDeploymentsAllowed : Bool
  revokedIdentities : List String
  audit : List AuditEntry
  deriving DecidableEq

def initialState : TeardownState := ⟨.engaging, true, true, true, true, [], []⟩

inductive StepResult where
  | pass | blocked
  deriving DecidableEq

structure Entry where
  number : ℕ
  step : TeardownStep
  result : StepResult
  detail : String
  deriving DecidableEq

structure Journal where
  entries : List Entry
  state : TeardownState
  deriving DecidableEq

def TeardownStep.number (s : TeardownStep) : ℕ := teardownSteps.idxOf s + 1

def passed (entries : List Entry) : List TeardownStep :=
  (entries.filter fun entry => entry.result = .pass).map Entry.step

def resourceTypes : TeardownStep → List String
  | .destroySandbox => ["sandbox"]
  | .removeTemporaryComputeAndVolumes => ["compute", "volume"]
  | .removeTemporaryCredentialsAndTokens => ["credential", "token"]
  | .removeTemporaryPublicEndpoints => ["public_endpoint"]
  | _ => []

def isRemoval (s : TeardownStep) : Bool := !(resourceTypes s).isEmpty

def disallowed (resource : CloudResource) : Bool := resource.temporary && !resource.protectedEvidence

def Workflow.inventory (w : Workflow) (resources : Resources) : Except String (List CloudResource) :=
  Teardown.inventory "mirage" w.environment (some w.caseId) resources.rows

def removals (w : Workflow) (resources : Resources) (s : TeardownStep) : Except String (List CloudResource) :=
  (w.inventory resources).map fun items => items.filter fun item =>
    item.resourceType ∈ resourceTypes s && disallowed item

def revoke (identity : String) (state : TeardownState) : TeardownState :=
  if identity ∈ state.revokedIdentities then state
  else { state with revokedIdentities := state.revokedIdentities ++ [identity] }

def blocked {α : Type} (message : String) : Except String α := .error ("TeardownBlocked: " ++ message)

def valueError {α : Type} (message : String) : Except String α := .error ("ValueError: " ++ message)

def recordGaps (w : Workflow) (state : TeardownState) : Except String TeardownState :=
  if w.requiredEvidenceVerified then .ok state
  else match w.override with
    | none => .ok { state with audit := state.audit ++ [.evidenceGapDetected] }
    | some o =>
      match o.validate with
      | .error message => valueError message
      | .ok () => .ok { state with audit := state.audit ++ [.evidenceGapOverride o] }

def apply (w : Workflow) (resources : Resources) (state : TeardownState) : TeardownStep → Except String TeardownState
  | .blockAnalystDirectives => .ok { state with directivesAllowed := false }
  | .blockDirectMessages => .ok { state with messagesAllowed := false }
  | .blockAiMutations => .ok { state with aiMutationsAllowed := false }
  | .blockArtifactDeployments => .ok { state with artifactDeploymentsAllowed := false }
  | .markCaseConcluding => .ok { state with caseState := .concluding }
  | .drainQueues => if w.queueDrainSucceeds then .ok state else blocked "queue drain failed"
  | .recordRemainingGaps => recordGaps w state
  | .captureFinalSnapshot => if w.finalSnapshotSucceeds then .ok state else blocked "final snapshot failed"
  | .verifyRequiredEvidence =>
    if w.requiredEvidenceVerified = false ∧ w.override = none then blocked "required evidence is not VERIFIED"
    else .ok state
  | .independentlyVerifyExport =>
    if w.exportVerified then .ok state else blocked "independent export verification failed"
  | .revokeSandboxCertificate =>
    if w.certificateRevocationSucceeds then .ok (revoke "sandbox-cert" state)
    else blocked "certificate revocation failed"
  | .revokeTemporaryAgentCertificates =>
    if w.certificateRevocationSucceeds then .ok (revoke "agent-cert" state)
    else blocked "certificate revocation failed"
  | .preserveEvidenceResources =>
    match w.inventory resources with
    | .error message => valueError message
    | .ok items =>
      if items.any CloudResource.protectedEvidence then .ok state
      else blocked "protected evidence allowlist is empty"
  | .runInventory => if w.inventoryComplete then .ok state else blocked "resource inventory is incomplete"
  | .confirmNoDisallowedResources =>
    match w.inventory resources with
    | .error message => valueError message
    | .ok items =>
      let remaining := items.filter disallowed
      if remaining = [] then .ok state
      else blocked ("temporary resources remain: " ++ ",".intercalate (remaining.map CloudResource.resourceId))
  | .markCaseDestroyed => .ok { state with caseState := .destroyed }
  | _ => .ok state

def passDetail : TeardownStep → String
  | .blockAnalystDirectives | .blockDirectMessages | .blockAiMutations | .blockArtifactDeployments =>
    "new operation blocked"
  | _ => "completed"

inductive Phase where
  | ready
  | removing (resourceIds : List String)
  | writing (result : StepResult) (detail : String)
  deriving DecidableEq

structure Execution where
  workflow : Workflow
  state : TeardownState
  entries : List Entry
  todo : List TeardownStep
  phase : Phase

structure Idle where
  workflow : Workflow
  state : TeardownState

/-- The world, with a history of what the executions did: the steps that they attempted
and those whose PASS they wrote, what came into being since the last confirmation, and
what `execute` answered. -/
structure World where
  resources : Resources
  journal : Option Journal
  idle : List Idle
  execution : Option Execution
  attempted : List TeardownStep
  performed : List (Workflow × TeardownStep)
  created : List CloudResource
  answers : List (Workflow × Except String (Option Journal))

def confirmation (w : Workflow) : String := "mirage:" ++ w.environment ++ ":" ++ w.caseId

def remaining (entries : List Entry) : List TeardownStep :=
  teardownSteps.filter fun s => s ∉ passed entries

/-- `execute` up to its loop: the journal's state takes the place of the memory. -/
def begin (w : World) (idle : Idle) : Execution :=
  match w.journal with
  | none => ⟨idle.workflow, idle.state, [], remaining [], .ready⟩
  | some journal => ⟨idle.workflow, journal.state, journal.entries, remaining journal.entries, .ready⟩

def execute (w : World) (workflowId : ℕ) (confirmed : String) : World :=
  match w.execution, w.idle[workflowId]? with
  | none, some idle =>
    if confirmed = confirmation idle.workflow then
      { w with idle := w.idle.eraseIdx workflowId, execution := some (begin w idle) }
    else w
  | _, _ => w

def leave (w : World) (x : Execution) : World :=
  { w with idle := w.idle ++ [⟨x.workflow, x.state⟩], execution := none }

def answer (w : World) (x : Execution) (result : Except String (Option Journal)) : World :=
  { leave w x with answers := w.answers ++ [(x.workflow, result)] }

def setPhase (w : World) (x : Execution) (phase : Phase) : World :=
  { w with execution := some { x with phase } }

/-- A step that deactivates nothing: `_apply`, or its exception. -/
def applyStep (w : World) (x : Execution) (s : TeardownStep) : World :=
  match apply x.workflow w.resources x.state s with
  | .error detail => setPhase w x (.writing .blocked detail)
  | .ok state =>
    { setPhase w { x with state } (.writing .pass (passDetail s)) with
      created := if s = .confirmNoDisallowedResources then [] else w.created }

def attempt (w : World) (x : Execution) (s : TeardownStep) : World :=
  if isRemoval s then
    match removals x.workflow w.resources s with
    | .error message => setPhase w x (.writing .blocked ("ValueError: " ++ message))
    | .ok items => setPhase w x (.removing (items.map CloudResource.resourceId))
  else applyStep w x s

def removeNext (w : World) (x : Execution) (s : TeardownStep) : List String → World
  | [] => setPhase w x (.writing .pass (passDetail s))
  | resourceId :: rest =>
    { setPhase w x (.removing rest) with resources := deactivate w.resources resourceId }

def write (w : World) (x : Execution) (s : TeardownStep) (result : StepResult) (detail : String) : World :=
  let entries := x.entries ++ [⟨s.number, s, result, detail⟩]
  let written := { w with journal := some ⟨entries, x.state⟩ }
  match result with
  | .pass =>
    { written with
      execution := some { x with entries, todo := x.todo.tail, phase := .ready }
      performed := w.performed ++ [(x.workflow, s)] }
  | .blocked => answer written x (.error ("TeardownBlocked: " ++ s.text ++ ": " ++ detail))

/-- One step of the execution; behind the last one `execute` answers the journal. -/
def advance (w : World) (x : Execution) : World :=
  match x.todo with
  | [] => answer w x (.ok w.journal)
  | s :: _ =>
    match x.phase with
    | .ready => attempt { w with attempted := w.attempted ++ [s] } x s
    | .removing resourceIds => removeNext w x s resourceIds
    | .writing result detail => write w x s result detail

def raise (w : World) (x : Execution) (detail : String) : World :=
  match x.todo, x.phase with
  | s :: _, .ready => setPhase { w with attempted := w.attempted ++ [s] } x (.writing .blocked detail)
  | _ :: _, .removing _ => setPhase w x (.writing .blocked detail)
  | _, _ => w

def create (w : World) (resource : CloudResource) : World :=
  match w.resources.insert resource with
  | none => w
  | some resources => { w with resources, created := w.created ++ [resource] }

inductive Action where
  | create (resource : CloudResource)
  | construct (workflow : Workflow)
  | execute (workflowId : ℕ) (confirmed : String)
  | advance
  | raise (detail : String)
  /-- The process ends, or the journal cannot be written. -/
  | interrupt

def step (w : World) : Action → World
  | .create resource => create w resource
  | .construct workflow => { w with idle := w.idle ++ [⟨workflow, initialState⟩] }
  | .execute workflowId confirmed => execute w workflowId confirmed
  | .advance => w.execution.elim w (advance w)
  | .raise detail => w.execution.elim w fun x => raise w x detail
  | .interrupt => w.execution.elim w (leave w)

structure Opening (w : World) : Prop where
  journal : w.journal = none
  idle : w.idle = []
  execution : w.execution = none
  attempted : w.attempted = []
  performed : w.performed = []
  answers : w.answers = []

def entriesOf (w : World) : List Entry := w.journal.elim [] Journal.entries

def done (w : World) : List TeardownStep := passed (entriesOf w)

theorem mem_teardownSteps (s : TeardownStep) : s ∈ teardownSteps := by
  cases s <;> decide

theorem teardownSteps_nodup : teardownSteps.Nodup := by decide

theorem passed_append (entries : List Entry) (entry : Entry) :
    passed (entries ++ [entry]) = passed entries ++ if entry.result = .pass then [entry.step] else [] := by
  unfold passed
  rw [List.filter_append, List.map_append]
  by_cases pass : entry.result = .pass <;> simp [pass]

theorem passed_remaining {entries : List Entry} (order : passed entries <+: teardownSteps) :
    passed entries ++ remaining entries = teardownSteps := by
  obtain ⟨rest, split⟩ := order
  have apart := teardownSteps_nodup
  rw [← split, List.nodup_append] at apart
  have none : (passed entries).filter (fun s => s ∉ passed entries) = [] :=
    List.filter_eq_nil_iff.mpr fun s mem => by simp [mem]
  have all : rest.filter (fun s => s ∉ passed entries) = rest :=
    List.filter_eq_self.mpr fun s mem => by simpa using fun earlier => apart.2.2 s earlier s mem rfl
  rw [remaining, ← split, List.filter_append, none, all, List.nil_append]

theorem mem_of_number_lt {front rest : List TeardownStep} {s earlier : TeardownStep}
    (order : front ++ s :: rest = teardownSteps) (before : earlier.number < s.number) : earlier ∈ front := by
  have apart := teardownSteps_nodup
  rw [← order, List.nodup_append] at apart
  have later : s ∉ front := fun mem => apart.2.2 s mem s List.mem_cons_self rfl
  by_contra absent
  rw [TeardownStep.number, TeardownStep.number, ← order, List.idxOf_append_of_notMem absent,
    List.idxOf_append_of_notMem later, List.idxOf_cons_self] at before
  omega

theorem caseInventory (w : Workflow) (resources : Resources) :
    w.inventory resources = .ok (resources.rows.filter fun item => item.active && item.project == "mirage" &&
      item.environment == w.environment && item.caseId == some w.caseId) := by
  rw [Workflow.inventory, Teardown.inventory, if_neg (by simpa using w.named.1)]
  simp only [Option.isNone_some, Bool.false_or]

/-! A case with a sandbox and its evidence. -/

def sandboxWorld : World where
  resources := ⟨[⟨"sandbox", "mirage", "test", some "CASE", "sandbox", true, false, true⟩,
    ⟨"evidence", "mirage", "test", some "CASE", "evidence", false, true, true⟩], by decide⟩
  journal := none
  idle := []
  execution := none
  attempted := []
  performed := []
  created := []
  answers := []

theorem opening_sandboxWorld : Opening sandboxWorld := ⟨rfl, rfl, rfl, rfl, rfl, rfl⟩

def caseWorkflow (requiredEvidenceVerified : Bool) (override : Option EvidenceGapOverride) : Workflow :=
  ⟨"test", "CASE", requiredEvidenceVerified, true, true, true, true, true, override, by decide⟩

def otherWorkflow : Workflow := ⟨"test", "OTHER", true, true, true, true, true, true, none, by decide⟩

end Mirage.Teardown
