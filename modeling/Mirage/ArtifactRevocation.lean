import Mirage.EventRun
import Mirage.SandboxActions

/-! Deploying and revoking artifacts: `deploy_artifact` and `revoke_artifact` of prompt2.py, and
`record_action_result`, which writes the same rows for the sandbox gateway. -/

namespace Mirage.ArtifactRevocation
open EventEnvelope AuditOutbox RowLocks SandboxActions EventRun

inductive Refusal where
  | http (status : ℕ) (detail : String)
  /-- 409 with the text of the failure. -/
  | conflict (failure : Failure)
  | raised (failure : Failure)

/-- The columns of `artifacts` that a deployment reads. -/
structure Deployable where
  sha256 : String
  approvedForDeployment : Bool
  scanStatus : String
  classification : String

/-- What the SELECTs of a deployment find. -/
structure DeployReads where
  existing : Option (String × String)
  activeDeployment : Option String
  artifact : Option Deployable
  caseExists : Bool
  sandbox : Option (String × Int)

structure DeployCall where
  caseId : String
  artifactId : String
  destination : String
  approvedDestination : Bool
  idempotencyKey : String
  reads : DeployReads
  deploymentId : String
  decisionId : String
  eventId : String
  now : String
  expiresAt : String
  downloadUrl : String
  actionId : String
  commandId : String
  stored : Bool

def policyDecisionV1 : Schema := .object ["decision_id", "case_id", "decision", "reason_codes", "policy_version"]
  [ ("decision_id", ulid), ("case_id", ulid), ("proposal_id", .nullable ulid),
    ("decision", oneOf ["ALLOW", "DENY", "REQUIRE_ANALYST_APPROVAL", "DEFER", "FALLBACK"]),
    ("reason_codes", .array (.string none none none none) (some 1) none), ("policy_version", sized 1 32) ]

def policyPayload (call : DeployCall) : Json :=
  .obj
    [ ("decision_id", .str call.decisionId), ("case_id", .str call.caseId), ("proposal_id", .null),
      ("decision", .str "ALLOW"), ("reason_codes", .arr [.str "ALLOW_APPROVED_CONTROLLED_ARTIFACT"]),
      ("policy_version", .str "artifact-deployment-1.0") ]

def announceDecision (digest : String → String) (call : DeployCall) (outbox : Outbox) : Except Refusal Outbox :=
  let event := buildEvent digest call.eventId call.now
    { eventType := "policy.decision", payload := policyPayload call,
      sourceId := "mirage-api.artifact-policy", sequence := 0, actorType := "SYSTEM",
      classification := "INTERNAL", caseId := some call.caseId, sessionId := none }
  match envelopeSchema.rejected [] event, policyDecisionV1.rejected [] (policyPayload call) with
  | [], [] => present (outbox.insert (outboxRow "policy.decision" event)) (.raised .database)
  | [], rejected => .error (.raised (.contract (.payloadValidation "policy.decision" rejected)))
  | rejected, _ => .error (.raised (.contract (.envelopeValidation rejected)))

def placeOpen (call : DeployCall) (sha256 sandboxId : String) (version : Int) : OpenCall where
  sandboxId := sandboxId
  caseId := call.caseId
  actionType := "PLACE_ARTIFACT"
  actionParams := .obj
    [ ("artifact_id", .str call.artifactId), ("destination", .str call.destination),
      ("download_url", .str call.downloadUrl), ("download_url_expires_at", .str call.expiresAt),
      ("expected_sha256", .str sha256) ]
  expectedStateVersion := version
  issuedBy := "ANALYST"
  policyDecisionId := some call.decisionId
  actionId := call.actionId
  commandId := call.commandId
  generatedPolicyDecisionId := call.decisionId
  stored := call.stored

def deploymentRow (call : DeployCall) (sha256 actionId : String) : DeploymentRow where
  deploymentId := call.deploymentId
  caseId := call.caseId
  artifactId := call.artifactId
  status := "PENDING"
  expectedSha256 := sha256
  observedSha256 := none
  sandboxActionId := some actionId
  rollbackActionId := none
  idempotencyKey := call.idempotencyKey

def deployArtifact (digest : String → String) (call : DeployCall) (db : Database) :
    Except Refusal (Database × String × String) := do
  require call.approvedDestination (.http 400 "destination is outside approved mutation roots")
  match call.reads.existing with
  | some known => pure (db, known)
  | none =>
    match call.reads.activeDeployment with
    | some other => .error (.http 409 ("artifact already has active deployment " ++ other))
    | none =>
      let artifact ← present call.reads.artifact (.http 404 "artifact not found")
      require (artifact.approvedForDeployment && artifact.scanStatus = "APPROVED")
        (.http 409 "artifact is not approved")
      require (artifact.classification ∈ ["INERT", "CONTROLLED"])
        (.http 409 "artifact classification is not deployable")
      require call.reads.caseExists (.http 404 "case not found")
      -- the primary key and `UNIQUE (case_id, idempotency_key)`
      require (db.deployments.all fun d => d.deploymentId ≠ call.deploymentId &&
        !(d.caseId = call.caseId && d.idempotencyKey = call.idempotencyKey)) (.raised .database)
      let outbox ← announceDecision digest call db.outbox
      let (sandboxId, version) ← present call.reads.sandbox (.http 409 "case has no active sandbox session")
      let (db, action) ← (openPendingAction (placeOpen call artifact.sha256 sandboxId version)
        (db.sandboxes.find sandboxId) { db with outbox }).mapError .raised
      pure ({ db with deployments := db.deployments ++ [deploymentRow call artifact.sha256 action.actionId] },
        call.deploymentId, "PENDING")

/-- The columns of the three relations that `revoke_artifact` joins. -/
structure Columns where
  deployments : List String
  actions : List String
  instances : List String

/-- A column that is not qualified names the column of the deployments only if no other relation has it; Postgres
refuses it otherwise. -/
def Columns.resolves (columns : Columns) (column : String) : Bool :=
  column ∈ columns.deployments && column ∉ columns.actions && column ∉ columns.instances

structure RevokeCall where
  caseId : String
  artifactId : String
  username : String
  decisionId : String
  actionId : String
  commandId : String
  correlationId : String
  stored : Bool

structure RevokeAnswer where
  status : String
  rollbackActionId : Option String

def active (call : RevokeCall) (db : Database) : List DeploymentRow :=
  db.deployments.filter fun d =>
    d.caseId = call.caseId && d.artifactId = call.artifactId && (d.status = "PENDING" || d.status = "DEPLOYED")

def journal (d : DeploymentRow) (db : Database) : Option (String × String × Int) := do
  let target ← d.sandboxActionId
  let action ← db.actions.find target
  let sandbox ← db.sandboxes.find action.sandboxId
  return (target, action.sandboxId, sandbox.stateVersion)

def rollbackParams (target : String) : Json := .obj [("target_action_id", .str target)]

def rollbackOpen (call : RevokeCall) (target sandboxId : String) (version : Int) : OpenCall where
  sandboxId := sandboxId
  caseId := call.caseId
  actionType := "ROLLBACK_ACTION"
  actionParams := rollbackParams target
  expectedStateVersion := version
  issuedBy := "ANALYST"
  policyDecisionId := some call.decisionId
  actionId := call.actionId
  commandId := call.commandId
  generatedPolicyDecisionId := call.decisionId
  stored := call.stored

/-- `UPDATE artifact_deployments … WHERE deployment_id = …`. -/
def updateDeployment (deploymentId : String) (f : DeploymentRow → DeploymentRow) (db : Database) : Database :=
  { db with deployments := db.deployments.map fun d => if d.deploymentId = deploymentId then f d else d }

def rollbackRefusal : Failure → Refusal
  | .sandboxNotFound sandboxId => .conflict (.sandboxNotFound sandboxId)
  | .stateVersionConflict sandboxId expected actual => .conflict (.stateVersionConflict sandboxId expected actual)
  | failure => .raised failure

theorem revoked_artifactId (status : String) (a : ArtifactRow) :
    ({ a with approvedForDeployment := false, deploymentStatus := some status } : ArtifactRow).artifactId = a.artifactId :=
  rfl

def finishRevocation (call : RevokeCall) (status : String) (rollback : Option String) (db : Database) :
    Except Refusal (Database × RevokeAnswer) := do
  require call.stored (.raised .database)
  pure ({ db with
      artifacts := db.artifacts.update call.artifactId
        (fun a => { a with approvedForDeployment := false, deploymentStatus := some status }) (revoked_artifactId status)
      audit := db.audit ++
        [⟨call.username, "ANALYST", "artifact.revoked", call.artifactId, "SUCCESS", call.correlationId,
          some (match rollback with
            | some id => "rollback action " ++ id ++ " queued"
            | none => "pending deployment revoked")⟩] },
    ⟨status, rollback⟩)

/-- The version that the SELECT sees may be stale when the row lock had to be waited for; the rollback is refused
then, like any other failure of the transaction. -/
def revokeArtifact (columns : Columns) (call : RevokeCall) (db : Database) :
    Except Refusal (Database × RevokeAnswer) := do
  require (["case_id", "artifact_id", "status"].all columns.resolves) (.raised .database)
  match active call db with
  | [] => finishRevocation call "REVOKED" none db
  | [d] =>
    if d.status = "DEPLOYED" then do
      let (target, sandboxId, version) ← present (journal d db)
        (.http 409 "deployed artifact has no recoverable sandbox action journal")
      let (db, rollback) ← (openPendingAction (rollbackOpen call target sandboxId version)
        (db.sandboxes.find sandboxId) db).mapError rollbackRefusal
      finishRevocation call "ROLLBACK_PENDING" (some rollback.actionId)
        (updateDeployment d.deploymentId
          (fun d => { d with status := "ROLLBACK_PENDING", rollbackActionId := some rollback.actionId }) db)
    else
      finishRevocation call "REVOKED" none
        (updateDeployment d.deploymentId (fun d => { d with status := "REVOKED" }) db)
  | _ => .error (.http 409 "multiple active deployments require operator reconciliation")

structure State where
  db : Database
  /-- The place actions that succeeded on the sandbox. -/
  succeeded : List String
  revoked : List String

inductive Event where
  | deploy (call : DeployCall)
  | revoke (call : RevokeCall)
  /-- Another command of the gateway is opened. -/
  | command (call : OpenCall)
  /-- The sandbox carries out a place action, before its result is recorded or without that. -/
  | placed (actionId : String)
  | record (call : RecordCall)

def revokedIds (db : Database) : List String :=
  (db.deployments.filter fun d => d.status = "REVOKED").map DeploymentRow.deploymentId

def State.commit (s : State) (db : Database) : State := { s with db, revoked := revokedIds db ++ s.revoked }

def settle {ε α : Type} (s : State) : Except ε (Database × α) → State
  | .ok (db, _) => s.commit db
  | .error _ => s

def placesArtifact (call : RecordCall) : Bool :=
  call.action.actionType = .placeArtifact && call.status = "SUCCESS"

def reported (call : RecordCall) (s : State) : State :=
  if placesArtifact call then { s with succeeded := call.action.actionId :: s.succeeded } else s

def step (columns : Columns) (digest : String → String) (s : State) : Event → State
  | .deploy call => settle s (deployArtifact digest call s.db)
  | .revoke call => settle s (revokeArtifact columns call s.db)
  | .command call => settle s (openPendingAction call (s.db.sandboxes.find call.sandboxId) s.db)
  | .placed actionId => { s with succeeded := actionId :: s.succeeded }
  | .record call =>
    let s := reported call s
    settle s (recordActionResult digest call (s.db.sandboxes.find call.action.sandboxId) s.db)

def RollbackIssued (db : Database) (target : String) : Prop :=
  ∃ r ∈ db.actions.rows, r.actionType = .rollbackAction ∧ r.actionParams = rollbackParams target

structure Sound (s : State) : Prop where
  stays : ∀ d ∈ s.db.deployments, d.deploymentId ∈ s.revoked → d.status = "REVOKED"
  /-- An artifact is DEPLOYED by a deployment that never was REVOKED. -/
  artifact : ∀ a ∈ s.db.artifacts.rows, a.deploymentStatus = some "DEPLOYED" →
    ∃ d ∈ s.db.deployments, d.artifactId = a.artifactId ∧ d.status = "DEPLOYED" ∧ d.deploymentId ∉ s.revoked
  /-- What succeeded on the sandbox is not REVOKED without a rollback. -/
  rolledBack : ∀ d ∈ s.db.deployments, d.status = "REVOKED" →
    ∀ target, d.sandboxActionId = some target → target ∈ s.succeeded → RollbackIssued s.db target

structure Linked (s : State) : Prop where
  ids : (s.db.deployments.map DeploymentRow.deploymentId).Nodup
  known : ∀ d ∈ s.db.deployments, ∀ target, d.sandboxActionId = some target →
    target ∈ s.db.actions.rows.map ActionRow.actionId
  single : ∀ d ∈ s.db.deployments, ∀ d' ∈ s.db.deployments, ∀ target, d.sandboxActionId = some target →
    d'.sandboxActionId = some target → d = d'
  pending : ∀ d ∈ s.db.deployments, d.status = "ROLLBACK_PENDING" →
    ∀ target, d.sandboxActionId = some target → RollbackIssued s.db target
  seen : ∀ d ∈ s.db.deployments, d.status = "REVOKED" → d.deploymentId ∈ s.revoked
  kept : ∀ id ∈ s.revoked, id ∈ s.db.deployments.map DeploymentRow.deploymentId

/-- The steps that keep the promise: a place result meets no REVOKED row, a PENDING deployment is revoked only
before its action succeeds, and no action succeeds after that. -/
def Fine (s : State) : Event → Prop
  | .record call => call.action.actionType = .placeArtifact →
      ∀ d ∈ s.db.deployments, d.sandboxActionId = some call.action.actionId → d.status ≠ "REVOKED"
  | .revoke call => ∀ d ∈ active call s.db, d.status = "PENDING" →
      ∀ target, d.sandboxActionId = some target → target ∉ s.succeeded
  | .placed actionId => ∀ d ∈ s.db.deployments, d.sandboxActionId = some actionId → d.status = "REVOKED" →
      RollbackIssued s.db actionId
  | _ => True

/-! What the transactions do to the tables. -/

def Extends (db db' : Database) : Prop :=
  ∀ r ∈ db.actions.rows, ∃ r' ∈ db'.actions.rows,
    r'.actionId = r.actionId ∧ r'.actionType = r.actionType ∧ r'.actionParams = r.actionParams

theorem RollbackIssued.extends {db db' : Database} {target : String} (issued : RollbackIssued db target)
    (extended : Extends db db') : RollbackIssued db' target := by
  obtain ⟨r, mem, type, params⟩ := issued
  obtain ⟨r', mem', -, type', params'⟩ := extended r mem
  exact ⟨r', mem', type'.trans type, params'.trans params⟩

theorem Extends.known {db db' : Database} (extended : Extends db db') {id : String}
    (known : id ∈ db.actions.rows.map ActionRow.actionId) : id ∈ db'.actions.rows.map ActionRow.actionId := by
  obtain ⟨r, mem, rfl⟩ := List.mem_map.mp known
  obtain ⟨r', mem', same, -⟩ := extended r mem
  exact List.mem_map.mpr ⟨r', mem', same⟩

theorem extends_refl (db : Database) : Extends db db := fun r mem => ⟨r, mem, rfl, rfl, rfl⟩

theorem openPendingAction_tables {call : OpenCall} {row : Option SandboxRow} {db db' : Database} {a : PendingAction}
    (ran : openPendingAction call row db = .ok (db', a)) :
    db'.deployments = db.deployments ∧ db'.artifacts = db.artifacts ∧ Extends db db' ∧
      pendingRow a ∈ db'.actions.rows ∧ a.actionId ∉ db.actions.rows.map ActionRow.actionId ∧
      a.actionId = call.actionId ∧ a.actionParams = call.actionParams ∧
      actionTypeOf call.actionType = some a.actionType := by
  have opened := openPendingAction_spec ran
  simp only [openPendingAction, bind_eq_ok, require_eq_ok, present_eq_ok] at ran
  obtain ⟨-, -, -, -, actionType, known, -, -, -, -, -, -, actions, inserted, outbox, -, -, -, done⟩ := ran
  cases done
  obtain ⟨fresh, rows⟩ := KeyedTable.insert_eq_some inserted
  refine ⟨rfl, rfl, fun r mem => ⟨r, ?_, rfl, rfl, rfl⟩, ?_, opened.fresh, rfl, rfl, known⟩
  · rw [rows]
    exact List.mem_append_left _ mem
  · rw [rows]
    exact List.mem_append_right _ (List.mem_singleton.mpr rfl)

theorem recordActionResult_tables {digest : String → String} {call : RecordCall} {row : Option SandboxRow}
    {db db' : Database} {version : Int} (ran : recordActionResult digest call row db = .ok (db', version)) :
    db'.deployments = (artifactTablesAfter call db).deployments ∧
      db'.artifacts = (artifactTablesAfter call db).artifacts ∧ Extends db db' := by
  have recorded := recordActionResult_spec ran
  simp only [recordActionResult, bind_eq_ok, require_eq_ok] at ran
  obtain ⟨-, -, -, -, -, -, outbox, -, -, -, done⟩ := ran
  cases done
  refine ⟨rfl, rfl, fun r mem => ?_⟩
  rw [recorded.actions]
  refine ⟨_, List.mem_map_of_mem mem, ?_⟩
  split <;> exact ⟨rfl, rfl, rfl⟩

structure Change (s : State) (db : Database) (f : DeploymentRow → DeploymentRow) : Prop where
  rows : db.deployments = s.db.deployments.map f
  same : ∀ d, f d =
    { d with
      status := (f d).status
      observedSha256 := (f d).observedSha256
      rollbackActionId := (f d).rollbackActionId }
  actions : Extends s.db db
  stays : ∀ d ∈ s.db.deployments, d.status = "REVOKED" → (f d).status = "REVOKED"
  pending : ∀ d ∈ s.db.deployments, (f d).status = "ROLLBACK_PENDING" →
    ∀ target, d.sandboxActionId = some target → RollbackIssued db target
  rolledBack : ∀ d ∈ s.db.deployments, (f d).status = "REVOKED" →
    ∀ target, d.sandboxActionId = some target → target ∈ s.succeeded → RollbackIssued db target
  artifact : ∀ a ∈ db.artifacts.rows, a.deploymentStatus = some "DEPLOYED" →
    ∃ d ∈ s.db.deployments, d.artifactId = a.artifactId ∧ (f d).status = "DEPLOYED"

section
variable {s : State} {db : Database} {f : DeploymentRow → DeploymentRow}

theorem Change.deploymentId (change : Change s db f) (d : DeploymentRow) :
    (f d).deploymentId = d.deploymentId := by rw [change.same]

theorem Change.artifactId (change : Change s db f) (d : DeploymentRow) :
    (f d).artifactId = d.artifactId := by rw [change.same]

theorem Change.sandboxActionId (change : Change s db f) (d : DeploymentRow) :
    (f d).sandboxActionId = d.sandboxActionId := by rw [change.same]

theorem Change.origin (change : Change s db f) {d : DeploymentRow} (mem : d ∈ db.deployments) :
    ∃ e ∈ s.db.deployments, f e = d := by
  rw [change.rows] at mem
  exact List.mem_map.mp mem

end

theorem mem_revokedIds {db : Database} {id : String} :
    id ∈ revokedIds db ↔ ∃ d ∈ db.deployments, d.status = "REVOKED" ∧ d.deploymentId = id := by
  simp [revokedIds, and_assoc]

theorem Change.keeps {s : State} {db : Database} {f : DeploymentRow → DeploymentRow} (change : Change s db f)
    (linked : Linked s) (sound : Sound s) : Linked (s.commit db) ∧ Sound (s.commit db) := by
  have keys : db.deployments.map DeploymentRow.deploymentId = s.db.deployments.map DeploymentRow.deploymentId := by
    rw [change.rows, List.map_map]
    exact List.map_congr_left fun d _ => change.deploymentId d
  have ids : (db.deployments.map DeploymentRow.deploymentId).Nodup := keys ▸ linked.ids
  have stays : ∀ d ∈ db.deployments, d.deploymentId ∈ revokedIds db ++ s.revoked → d.status = "REVOKED" := by
    intro d mem revoked
    rcases List.mem_append.mp revoked with now | before
    · obtain ⟨d', mem', status, same⟩ := mem_revokedIds.mp now
      rw [← List.inj_on_of_nodup_map ids mem' mem same]
      exact status
    · obtain ⟨d, old, rfl⟩ := change.origin mem
      rw [change.deploymentId] at before
      exact change.stays d old (sound.stays d old before)
  refine ⟨⟨ids, ?_, ?_, ?_, ?_, ?_⟩, ⟨stays, ?_, ?_⟩⟩
  · intro d mem target place
    obtain ⟨d, old, rfl⟩ := change.origin mem
    rw [change.sandboxActionId] at place
    exact change.actions.known (linked.known d old target place)
  · intro d mem d' mem' target place place'
    obtain ⟨d, old, rfl⟩ := change.origin mem
    obtain ⟨d', old', rfl⟩ := change.origin mem'
    rw [change.sandboxActionId] at place place'
    rw [linked.single d old d' old' target place place']
  · intro d mem status target place
    obtain ⟨d, old, rfl⟩ := change.origin mem
    rw [change.sandboxActionId] at place
    exact change.pending d old status target place
  · intro d mem status
    exact List.mem_append_left _ (mem_revokedIds.mpr ⟨d, mem, status, rfl⟩)
  · intro id revoked
    rcases List.mem_append.mp revoked with now | before
    · obtain ⟨d, mem, -, rfl⟩ := mem_revokedIds.mp now
      exact List.mem_map_of_mem mem
    · change id ∈ db.deployments.map DeploymentRow.deploymentId
      rw [keys]
      exact linked.kept id before
  · intro a mem status
    obtain ⟨d, old, same, deployed⟩ := change.artifact a mem status
    have new : f d ∈ db.deployments := change.rows ▸ List.mem_map_of_mem old
    refine ⟨f d, new, (change.artifactId d).trans same, deployed, fun revoked => ?_⟩
    have clash := (stays _ new revoked).symm.trans deployed
    exact absurd clash (by decide)
  · intro d mem status target place succeeded
    obtain ⟨d, old, rfl⟩ := change.origin mem
    rw [change.sandboxActionId] at place
    exact change.rolledBack d old status target place succeeded

theorem Change.none {s : State} {db : Database} (linked : Linked s) (sound : Sound s)
    (rows : db.deployments = s.db.deployments) (actions : Extends s.db db)
    (artifact : ∀ a ∈ db.artifacts.rows, a.deploymentStatus = some "DEPLOYED" → a ∈ s.db.artifacts.rows) :
    Change s db id where
  rows := by rw [rows, List.map_id]
  same _ := rfl
  actions := actions
  stays _ _ status := status
  pending d mem status target place := (linked.pending d mem status target place).extends actions
  rolledBack d mem status target place succeeded :=
    (sound.rolledBack d mem status target place succeeded).extends actions
  artifact a mem status := by
    obtain ⟨d, old, same, deployed, -⟩ := sound.artifact a (artifact a mem status) status
    exact ⟨d, old, same, deployed⟩

theorem mem_update {t : KeyedTable ArtifactRow.artifactId} {k : String} {f : ArtifactRow → ArtifactRow}
    {keeps : ∀ r, (f r).artifactId = r.artifactId} {a : ArtifactRow} (mem : a ∈ (t.update k f keeps).rows) :
    (∃ r ∈ t.rows, a = f r ∧ r.artifactId = k) ∨ a ∈ t.rows ∧ a.artifactId ≠ k := by
  obtain ⟨r, old, rfl⟩ := List.mem_map.mp mem
  by_cases key : r.artifactId = k
  · exact .inl ⟨r, old, by rw [if_pos key], key⟩
  · exact .inr (by rw [if_neg key]; exact ⟨old, key⟩)

def placedRow (call : RecordCall) (status : String) (d : DeploymentRow) : DeploymentRow :=
  if d.sandboxActionId = some call.action.actionId then
    { d with
      status
      observedSha256 := if call.status = "SUCCESS" then some d.expectedSha256 else none
      rollbackActionId := call.rollbackActionId }
  else d

theorem placed_change {s : State} {db : Database} {call : RecordCall} {status : String} (linked : Linked s)
    (sound : Sound s) (outcome : status = "DEPLOYED" ∨ status = "FAILED")
    (rows : db.deployments = (placedArtifact call status ⟨s.db.deployments, s.db.artifacts⟩).deployments)
    (artifacts : db.artifacts = (placedArtifact call status ⟨s.db.deployments, s.db.artifacts⟩).artifacts)
    (actions : Extends s.db db)
    (fine : ∀ d ∈ s.db.deployments, d.sandboxActionId = some call.action.actionId → d.status ≠ "REVOKED") :
    Change s db (placedRow call status) := by
  have other : status ≠ "REVOKED" ∧ status ≠ "ROLLBACK_PENDING" := by
    rcases outcome with rfl | rfl <;> decide
  have mine : ∀ {d : DeploymentRow}, d.sandboxActionId = some call.action.actionId →
      (placedRow call status d).status = status := fun own => by rw [placedRow, if_pos own]
  have spared : ∀ {d : DeploymentRow}, d.sandboxActionId ≠ some call.action.actionId →
      placedRow call status d = d := fun other => by rw [placedRow, if_neg other]
  have unplaced : ∀ d : DeploymentRow, (placedRow call status d).status ≠ status → placedRow call status d = d :=
    fun d changed => spared fun own => changed (mine own)
  refine ⟨?_, ?_, actions, ?_, ?_, ?_, ?_⟩
  · rw [rows, placedArtifact]
    refine List.map_congr_left fun d _ => ?_
    simp only [placedRow]
  · intro d
    unfold placedRow
    split <;> rfl
  · intro d mem revoked
    rw [spared fun own => fine d mem own revoked]
    exact revoked
  · intro d mem pending target place
    rw [unplaced d (by rw [pending]; exact other.2.symm)] at pending
    exact (linked.pending d mem pending target place).extends actions
  · intro d mem revoked target place succeeded
    rw [unplaced d (by rw [revoked]; exact other.1.symm)] at revoked
    exact (sound.rolledBack d mem revoked target place succeeded).extends actions
  · intro a mem deployed
    rw [artifacts, placedArtifact] at mem
    dsimp only at mem
    split at mem
    · next r found =>
      have place : r.sandboxActionId = some call.action.actionId := by simpa using List.find?_some found
      have old := List.mem_of_find?_eq_some found
      obtain ⟨a, -, rfl, key⟩ | ⟨kept, apart⟩ := mem_update mem
      · exact ⟨r, old, key.symm, (mine place).trans (Option.some.inj deployed)⟩
      · obtain ⟨d, mem, same, status, -⟩ := sound.artifact a kept deployed
        refine ⟨d, mem, same, ?_⟩
        rw [spared fun own => apart (by rw [← same, linked.single d mem r old _ own place])]
        exact status
    · next none =>
      obtain ⟨d, old, same, status, -⟩ := sound.artifact a mem deployed
      have own := List.find?_eq_none.mp none d old
      refine ⟨d, old, same, ?_⟩
      rw [spared (by simpa using own)]
      exact status

def rolledBackRow (call : RecordCall) (status : String) (d : DeploymentRow) : DeploymentRow :=
  if d.rollbackActionId = some call.action.actionId ∧ d.status = "ROLLBACK_PENDING" then { d with status } else d

theorem rolledBack_change {s : State} {db : Database} {call : RecordCall} {status : String} (linked : Linked s)
    (sound : Sound s) (outcome : status = "REVOKED" ∨ status = "ROLLBACK_FAILED")
    (rows : db.deployments = (rolledBackArtifact call status ⟨s.db.deployments, s.db.artifacts⟩).deployments)
    (artifacts : db.artifacts = (rolledBackArtifact call status ⟨s.db.deployments, s.db.artifacts⟩).artifacts)
    (actions : Extends s.db db) : Change s db (rolledBackRow call status) := by
  have other : status ≠ "DEPLOYED" ∧ status ≠ "ROLLBACK_PENDING" := by
    rcases outcome with rfl | rfl <;> decide
  have spared : ∀ {d : DeploymentRow}, d.status ≠ "ROLLBACK_PENDING" → rolledBackRow call status d = d :=
    fun settled => by rw [rolledBackRow, if_neg fun own => settled own.2]
  refine ⟨?_, ?_, actions, ?_, ?_, ?_, ?_⟩
  · rw [rows, rolledBackArtifact]
    refine List.map_congr_left fun d _ => ?_
    simp only [rolledBackRow, Bool.and_eq_true, decide_eq_true_eq]
  · intro d
    unfold rolledBackRow
    split <;> rfl
  · intro d mem revoked
    rw [spared (by rw [revoked]; decide)]
    exact revoked
  · intro d mem pending target place
    unfold rolledBackRow at pending
    split at pending
    · exact absurd pending other.2
    · exact (linked.pending d mem pending target place).extends actions
  · intro d mem revoked target place succeeded
    unfold rolledBackRow at revoked
    split at revoked
    · next own => exact (linked.pending d mem own.2 target place).extends actions
    · exact (sound.rolledBack d mem revoked target place succeeded).extends actions
  · intro a mem deployed
    have before : a ∈ s.db.artifacts.rows := by
      rw [artifacts, rolledBackArtifact] at mem
      dsimp only at mem
      split at mem
      · obtain ⟨a, -, rfl, -⟩ | ⟨kept, -⟩ := mem_update mem
        · exact absurd (Option.some.inj deployed) other.1
        · exact kept
      · exact mem
    obtain ⟨d, old, same, status, -⟩ := sound.artifact a before deployed
    refine ⟨d, old, same, ?_⟩
    rw [spared (by rw [status]; decide)]
    exact status

theorem artifactTablesAfter_cases (call : RecordCall) (db : Database) :
    call.action.actionType = .placeArtifact ∧
        (∃ status, (status = "DEPLOYED" ∨ status = "FAILED") ∧
          artifactTablesAfter call db = placedArtifact call status ⟨db.deployments, db.artifacts⟩) ∨
      (∃ status, (status = "REVOKED" ∨ status = "ROLLBACK_FAILED") ∧
        artifactTablesAfter call db = rolledBackArtifact call status ⟨db.deployments, db.artifacts⟩) ∨
      artifactTablesAfter call db = ⟨db.deployments, db.artifacts⟩ := by
  unfold artifactTablesAfter
  dsimp only
  split
  · next type _ =>
    refine .inl ⟨type, _, ?_, rfl⟩
    split
    · exact .inl rfl
    · exact .inr rfl
  · refine .inr (.inl ⟨_, ?_, rfl⟩)
    split
    · exact .inl rfl
    · exact .inr rfl
  · exact .inr (.inr rfl)

theorem record_keeps {s : State} {digest : String → String} {call : RecordCall} {row : Option SandboxRow}
    {db : Database} {version : Int} (linked : Linked s) (sound : Sound s) (fine : Fine s (.record call))
    (ran : recordActionResult digest call row s.db = .ok (db, version)) :
    Linked (s.commit db) ∧ Sound (s.commit db) := by
  obtain ⟨rows, artifacts, actions⟩ := recordActionResult_tables ran
  obtain ⟨type, status, outcome, tables⟩ | ⟨status, outcome, tables⟩ | tables := artifactTablesAfter_cases call s.db
  · rw [tables] at rows artifacts
    exact (placed_change linked sound outcome rows artifacts actions (fine type)).keeps linked sound
  · rw [tables] at rows artifacts
    exact (rolledBack_change linked sound outcome rows artifacts actions).keeps linked sound
  · rw [tables] at rows artifacts
    exact (Change.none linked sound rows actions fun a mem _ => by rw [artifacts] at mem; exact mem).keeps
      linked sound

theorem revoked_change {s : State} {db : Database} {d : DeploymentRow} (status : String)
    (f : DeploymentRow → DeploymentRow) (linked : Linked s) (sound : Sound s) (mem : d ∈ s.db.deployments)
    (active : d.status ≠ "REVOKED") (new : ∀ e, f e = { e with status, rollbackActionId := (f e).rollbackActionId })
    (rows : db.deployments = s.db.deployments.map fun e => if e.deploymentId = d.deploymentId then f e else e)
    (artifacts : ∀ a ∈ db.artifacts.rows, a.deploymentStatus = some "DEPLOYED" →
      a ∈ s.db.artifacts.rows ∧ a.artifactId ≠ d.artifactId)
    (actions : Extends s.db db)
    (pending : status = "ROLLBACK_PENDING" → ∀ target, d.sandboxActionId = some target → RollbackIssued db target)
    (rolledBack : status = "REVOKED" → ∀ target, d.sandboxActionId = some target → target ∈ s.succeeded →
      RollbackIssued db target) :
    Change s db fun e => if e.deploymentId = d.deploymentId then f e else e := by
  have same : ∀ e ∈ s.db.deployments, e.deploymentId = d.deploymentId → e = d :=
    fun e old key => List.inj_on_of_nodup_map linked.ids old mem key
  refine ⟨rows, ?_, actions, ?_, ?_, ?_, ?_⟩
  · intro e
    split
    · rw [new]
    · rfl
  · intro e old revoked
    rw [if_neg fun key => active (same e old key ▸ revoked)]
    exact revoked
  · intro e old waits target place
    split at waits
    · next key =>
      rw [new] at waits
      exact pending waits target (same e old key ▸ place)
    · exact (linked.pending e old waits target place).extends actions
  · intro e old revoked target place succeeded
    split at revoked
    · next key =>
      rw [new] at revoked
      exact rolledBack revoked target (same e old key ▸ place) succeeded
    · exact (sound.rolledBack e old revoked target place succeeded).extends actions
  · intro a row deployed
    obtain ⟨kept, apart⟩ := artifacts a row deployed
    obtain ⟨e, old, artifact, status, -⟩ := sound.artifact a kept deployed
    refine ⟨e, old, artifact, ?_⟩
    rw [if_neg fun key => apart (by rw [← artifact, same e old key])]
    exact status

theorem finishRevocation_tables {call : RevokeCall} {status : String} {rollback : Option String} {db db' : Database}
    {answer : RevokeAnswer} (ran : finishRevocation call status rollback db = .ok (db', answer))
    (other : status ≠ "DEPLOYED") :
    db'.deployments = db.deployments ∧ db'.actions = db.actions ∧
      ∀ a ∈ db'.artifacts.rows, a.deploymentStatus = some "DEPLOYED" →
        a ∈ db.artifacts.rows ∧ a.artifactId ≠ call.artifactId := by
  simp only [finishRevocation, bind_eq_ok, require_eq_ok] at ran
  obtain ⟨-, -, done⟩ := ran
  cases done
  refine ⟨rfl, rfl, fun a mem deployed => ?_⟩
  dsimp only at mem
  obtain ⟨a, -, rfl, -⟩ | ⟨kept, apart⟩ := mem_update mem
  · exact absurd (Option.some.inj deployed) other
  · exact ⟨kept, apart⟩

theorem mapError_eq_ok {ε ε' α : Type} {x : Except ε α} {g : ε → ε'} {a : α} (ran : x.mapError g = .ok a) :
    x = .ok a := by
  cases x with
  | error e => cases ran
  | ok b =>
    cases ran
    rfl

theorem revoke_keeps {s : State} {columns : Columns} {call : RevokeCall} {db : Database} {answer : RevokeAnswer}
    (linked : Linked s) (sound : Sound s) (fine : Fine s (.revoke call))
    (ran : revokeArtifact columns call s.db = .ok (db, answer)) : Linked (s.commit db) ∧ Sound (s.commit db) := by
  simp only [revokeArtifact, bind_eq_ok, require_eq_ok] at ran
  obtain ⟨-, -, ran⟩ := ran
  split at ran
  · obtain ⟨rows, actions, artifacts⟩ := finishRevocation_tables ran (by decide)
    exact (Change.none linked sound rows (by rw [Extends, actions]; exact extends_refl s.db)
      fun a mem deployed => (artifacts a mem deployed).1).keeps linked sound
  · next d found =>
    have selected : d ∈ active call s.db := by simp [found]
    obtain ⟨mem, chosen⟩ := List.mem_filter.mp selected
    simp only [Bool.and_eq_true, Bool.or_eq_true, decide_eq_true_eq] at chosen
    obtain ⟨⟨-, artifact⟩, status⟩ := chosen
    have notRevoked : d.status ≠ "REVOKED" := by
      rcases status with status | status <;> rw [status] <;> decide
    split at ran
    · simp only [bind_eq_ok, present_eq_ok] at ran
      obtain ⟨⟨target, sandboxId, version⟩, journaled, ⟨opened, rollback⟩, rolling, ran⟩ := ran
      obtain ⟨rows, artifactRows, extended, added, -, -, params, type⟩ :=
        openPendingAction_tables (mapError_eq_ok rolling)
      obtain ⟨rows', actions', artifacts'⟩ := finishRevocation_tables ran (by decide)
      have place : d.sandboxActionId = some target := by
        simp only [journal, Option.bind_eq_bind, Option.bind_eq_some_iff] at journaled
        obtain ⟨found, place, _, -, _, -, same⟩ := journaled
        cases same
        exact place
      have issued : RollbackIssued db target := by
        refine ⟨pendingRow rollback, by rw [actions']; exact added, ?_, params⟩
        exact (Option.some.inj type).symm
      refine (revoked_change "ROLLBACK_PENDING"
        (fun d => { d with status := "ROLLBACK_PENDING", rollbackActionId := some rollback.actionId }) linked sound mem
        notRevoked (fun e => rfl) ?_ ?_ ?_ (fun _ target' place' => ?_)
        fun revoked => absurd revoked (by decide)).keeps linked sound
      · rw [rows', updateDeployment, rows]
      · intro a row deployed
        obtain ⟨kept, apart⟩ := artifacts' a row deployed
        exact ⟨by rw [← artifactRows]; exact kept, artifact ▸ apart⟩
      · rw [Extends, actions']
        exact extended
      · cases place.symm.trans place'
        exact issued
    · next undeployed =>
      obtain ⟨rows, actions, artifacts⟩ := finishRevocation_tables ran (by decide)
      have waits := status.resolve_right undeployed
      refine (revoked_change "REVOKED" (fun d => { d with status := "REVOKED" }) linked sound mem notRevoked
        (fun e => rfl) rows ?_ ?_ (fun pending => absurd pending (by decide))
        fun _ target place succeeded => ?_).keeps linked sound
      · intro a row deployed
        obtain ⟨kept, apart⟩ := artifacts a row deployed
        exact ⟨kept, artifact ▸ apart⟩
      · rw [Extends, actions]
        exact extends_refl s.db
      · exact absurd succeeded (fine d selected waits target place)
  · cases ran

theorem deployed_keeps {s : State} {db : Database} {row : DeploymentRow} {actionId : String} (linked : Linked s)
    (sound : Sound s) (rows : db.deployments = s.db.deployments ++ [row]) (status : row.status = "PENDING")
    (fresh : row.deploymentId ∉ s.db.deployments.map DeploymentRow.deploymentId)
    (place : row.sandboxActionId = some actionId) (freshAction : actionId ∉ s.db.actions.rows.map ActionRow.actionId)
    (added : actionId ∈ db.actions.rows.map ActionRow.actionId) (extended : Extends s.db db)
    (artifacts : db.artifacts = s.db.artifacts) : Linked (s.commit db) ∧ Sound (s.commit db) := by
  have mem_iff : ∀ {d : DeploymentRow}, d ∈ db.deployments ↔ d ∈ s.db.deployments ∨ d = row := by
    intro d
    rw [rows, List.mem_append, List.mem_singleton]
  have ids : (db.deployments.map DeploymentRow.deploymentId).Nodup := by
    rw [rows, List.map_append, List.map_singleton, List.nodup_append]
    exact ⟨linked.ids, List.nodup_singleton _, fun id mem id' mem' same => by
      rw [List.mem_singleton] at mem'
      exact fresh (mem' ▸ same ▸ mem)⟩
  have old : ∀ {d : DeploymentRow}, d ∈ db.deployments → d.status ≠ "PENDING" → d ∈ s.db.deployments :=
    fun mem other => (mem_iff.mp mem).resolve_right fun same => other (same ▸ status)
  have stays : ∀ d ∈ db.deployments, d.deploymentId ∈ revokedIds db ++ s.revoked → d.status = "REVOKED" := by
    intro d mem revoked
    rcases List.mem_append.mp revoked with now | before
    · obtain ⟨d', mem', status, same⟩ := mem_revokedIds.mp now
      rw [← List.inj_on_of_nodup_map ids mem' mem same]
      exact status
    · rcases mem_iff.mp mem with kept | rfl
      · exact sound.stays d kept before
      · exact absurd (linked.kept _ before) fresh
  have unused : ∀ d ∈ s.db.deployments, d.sandboxActionId ≠ some actionId :=
    fun d mem same => freshAction (linked.known d mem actionId same)
  refine ⟨⟨ids, ?_, ?_, ?_, ?_, ?_⟩, ⟨stays, ?_, ?_⟩⟩
  · intro d mem target same
    rcases mem_iff.mp mem with kept | rfl
    · exact extended.known (linked.known d kept target same)
    · cases place.symm.trans same
      exact added
  · intro d mem d' mem' target same same'
    rcases mem_iff.mp mem with kept | rfl <;> rcases mem_iff.mp mem' with kept' | rfl
    · exact linked.single d kept d' kept' target same same'
    · cases place.symm.trans same'
      exact absurd same (unused d kept)
    · cases place.symm.trans same
      exact absurd same' (unused d' kept')
    · rfl
  · intro d mem pending target same
    exact (linked.pending d (old mem (by rw [pending]; decide)) pending target same).extends extended
  · intro d mem revoked
    exact List.mem_append_left _ (mem_revokedIds.mpr ⟨d, mem, revoked, rfl⟩)
  · intro id revoked
    rcases List.mem_append.mp revoked with now | before
    · obtain ⟨d, mem, -, rfl⟩ := mem_revokedIds.mp now
      exact List.mem_map_of_mem mem
    · obtain ⟨d, mem, rfl⟩ := List.mem_map.mp (linked.kept id before)
      exact List.mem_map_of_mem (mem_iff.mpr (.inl mem))
  · intro a mem deployed
    change a ∈ db.artifacts.rows at mem
    rw [artifacts] at mem
    obtain ⟨d, kept, same, deployed, -⟩ := sound.artifact a mem deployed
    have new := mem_iff.mpr (.inl kept)
    refine ⟨d, new, same, deployed, fun revoked => ?_⟩
    exact absurd ((stays d new revoked).symm.trans deployed) (by decide)
  · intro d mem revoked target same succeeded
    exact (sound.rolledBack d (old mem (by rw [revoked]; decide)) revoked target same succeeded).extends extended

theorem deploy_keeps {s : State} {digest : String → String} {call : DeployCall} {db : Database}
    {answer : String × String} (linked : Linked s) (sound : Sound s)
    (ran : deployArtifact digest call s.db = .ok (db, answer)) : Linked (s.commit db) ∧ Sound (s.commit db) := by
  simp only [deployArtifact, bind_eq_ok, require_eq_ok] at ran
  obtain ⟨-, -, ran⟩ := ran
  split at ran
  · cases ran
    exact (Change.none linked sound rfl (extends_refl s.db) fun a mem _ => mem).keeps linked sound
  · split at ran
    · cases ran
    · simp only [bind_eq_ok, require_eq_ok, present_eq_ok] at ran
      obtain ⟨artifact, -, -, -, -, -, -, -, -, unique, outbox, -, ⟨sandboxId, version⟩, -, ⟨opened, action⟩, opening,
        done⟩ := ran
      obtain ⟨rows, artifacts, extended, added, fresh, -⟩ := openPendingAction_tables (mapError_eq_ok opening)
      cases done
      refine deployed_keeps linked sound (by rw [rows]) rfl ?_ rfl fresh (List.mem_map.mpr ⟨_, added, rfl⟩) extended
        artifacts
      intro taken
      obtain ⟨d, mem, same⟩ := List.mem_map.mp taken
      have other := List.all_eq_true.mp unique d mem
      simp only [Bool.and_eq_true, decide_eq_true_eq] at other
      exact other.1 same

theorem step_keeps {s : State} {columns : Columns} {digest : String → String} (e : Event) (linked : Linked s)
    (sound : Sound s) (fine : Fine s e) : Linked (step columns digest s e) ∧ Sound (step columns digest s e) := by
  cases e with
  | deploy call =>
    simp only [step]
    cases ran : deployArtifact digest call s.db with
    | error e => exact ⟨linked, sound⟩
    | ok done => exact deploy_keeps linked sound ran
  | revoke call =>
    simp only [step]
    cases ran : revokeArtifact columns call s.db with
    | error e => exact ⟨linked, sound⟩
    | ok done => exact revoke_keeps linked sound fine ran
  | command call =>
    simp only [step]
    cases ran : openPendingAction call (s.db.sandboxes.find call.sandboxId) s.db with
    | error e => exact ⟨linked, sound⟩
    | ok done =>
      obtain ⟨rows, artifacts, extended, -⟩ := openPendingAction_tables ran
      exact (Change.none linked sound rows extended fun a mem _ => by rw [artifacts] at mem; exact mem).keeps
        linked sound
  | placed actionId =>
    refine ⟨⟨linked.ids, linked.known, linked.single, linked.pending, linked.seen, linked.kept⟩,
      ⟨sound.stays, sound.artifact, fun d mem revoked target place succeeded => ?_⟩⟩
    rcases List.mem_cons.mp succeeded with rfl | before
    · exact fine d mem place revoked
    · exact sound.rolledBack d mem revoked target place before
  | record call =>
    have before : Linked (reported call s) ∧ Sound (reported call s) := by
      unfold reported
      split
      · next places =>
        have type : call.action.actionType = .placeArtifact := by
          simp only [placesArtifact, Bool.and_eq_true, decide_eq_true_eq] at places
          exact places.1
        refine ⟨⟨linked.ids, linked.known, linked.single, linked.pending, linked.seen, linked.kept⟩,
          ⟨sound.stays, sound.artifact, fun d mem revoked target place succeeded => ?_⟩⟩
        rcases List.mem_cons.mp succeeded with rfl | before
        · exact absurd revoked (fine type d mem place)
        · exact sound.rolledBack d mem revoked target place before
      · exact ⟨linked, sound⟩
    have same : (reported call s).db = s.db := by
      unfold reported
      split <;> rfl
    simp only [step]
    generalize reported call s = t at before same
    cases ran : recordActionResult digest call (t.db.sandboxes.find call.action.sandboxId) t.db with
    | error e => exact before
    | ok done => exact record_keeps before.1 before.2 (by rw [Fine, same]; exact fine) ran

def sampleSha256 : String := "e3b0c44298fc1c149afbf4c8996fb92427ae41e4649b934ca495991b7852b855"

def sampleState : State :=
  ⟨{ sampleDatabase with artifacts := ⟨[⟨"01ARZ3NDEKTSV4RRFFQ69G5FG1", none, none, true⟩], by decide⟩ }, [], []⟩

def State.statuses (s : State) : List String := s.db.deployments.map DeploymentRow.status

end Mirage.ArtifactRevocation
