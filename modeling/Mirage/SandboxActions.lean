import Mirage.AuditOutbox

/-! Sandbox actions: `ensure_sandbox_instance`, `open_pending_action` and
`record_action_result`, each one transaction. -/

namespace Mirage.SandboxActions
open EventEnvelope AuditOutbox RowLocks

inductive ActionType where
  | placeArtifact
  | moveArtifact
  | createDecoyDirectory
  | changeVisibleMetadata
  | displayMessage
  | enableDecoyService
  | disableDecoyService
  | requestSnapshot
  | rollbackAction
  | concludeSession
  | testFilePlacement
  | testMetadataUpdate
  | softReset
  | fullRebuild
  | cleanShutdown
  deriving DecidableEq

/-- `ALLOWED_ACTION_TYPES`, as the column's check lists them. -/
def actionTypeOf : String → Option ActionType
  | "PLACE_ARTIFACT" => some .placeArtifact
  | "MOVE_ARTIFACT" => some .moveArtifact
  | "CREATE_DECOY_DIRECTORY" => some .createDecoyDirectory
  | "CHANGE_VISIBLE_METADATA" => some .changeVisibleMetadata
  | "DISPLAY_MESSAGE" => some .displayMessage
  | "ENABLE_DECOY_SERVICE" => some .enableDecoyService
  | "DISABLE_DECOY_SERVICE" => some .disableDecoyService
  | "REQUEST_SNAPSHOT" => some .requestSnapshot
  | "ROLLBACK_ACTION" => some .rollbackAction
  | "CONCLUDE_SESSION" => some .concludeSession
  | "TEST_FILE_PLACEMENT" => some .testFilePlacement
  | "TEST_METADATA_UPDATE" => some .testMetadataUpdate
  | "SOFT_RESET" => some .softReset
  | "FULL_REBUILD" => some .fullRebuild
  | "CLEAN_SHUTDOWN" => some .cleanShutdown
  | _ => none

def ActionType.lower : ActionType → String
  | placeArtifact => "place_artifact"
  | moveArtifact => "move_artifact"
  | createDecoyDirectory => "create_decoy_directory"
  | changeVisibleMetadata => "change_visible_metadata"
  | displayMessage => "display_message"
  | enableDecoyService => "enable_decoy_service"
  | disableDecoyService => "disable_decoy_service"
  | requestSnapshot => "request_snapshot"
  | rollbackAction => "rollback_action"
  | concludeSession => "conclude_session"
  | testFilePlacement => "test_file_placement"
  | testMetadataUpdate => "test_metadata_update"
  | softReset => "soft_reset"
  | fullRebuild => "full_rebuild"
  | cleanShutdown => "clean_shutdown"

def ActionType.mutating : ActionType → Bool
  | requestSnapshot | concludeSession => false
  | _ => true

structure SandboxRow where
  sandboxId : String
  caseId : String
  stateVersion : Int

structure ActionRow where
  actionId : String
  commandId : String
  sandboxId : String
  caseId : String
  actionType : ActionType
  actionParams : Json
  expectedStateVersion : Int
  issuedBy : String
  policyDecisionId : String
  status : String
  outputTag : Option String
  rollbackActionId : Option String
  errorDetail : Option String

structure PendingAction where
  actionId : String
  commandId : String
  sandboxId : String
  caseId : String
  actionType : ActionType
  actionParams : Json
  expectedStateVersion : Int
  issuedBy : String
  policyDecisionId : String

structure DeploymentRow where
  deploymentId : String
  caseId : String
  artifactId : String
  status : String
  expectedSha256 : String
  observedSha256 : Option String
  sandboxActionId : Option String
  rollbackActionId : Option String
  idempotencyKey : String

structure ArtifactRow where
  artifactId : String
  deploymentStatus : Option String
  deployedAt : Option String
  approvedForDeployment : Bool

structure Database where
  sandboxes : KeyedTable SandboxRow.sandboxId
  actions : KeyedTable ActionRow.actionId
  audit : List AuditRow
  outbox : Outbox
  /-- Whether migration 0008 created the artifact tables. -/
  artifactTables : Bool
  deployments : List DeploymentRow
  artifacts : KeyedTable ArtifactRow.artifactId

structure OpenCall where
  sandboxId : String
  caseId : String
  actionType : String
  actionParams : Json
  expectedStateVersion : Int
  issuedBy : String
  policyDecisionId : Option String
  actionId : String
  commandId : String
  generatedPolicyDecisionId : String
  stored : Bool

structure RecordCall where
  action : PendingAction
  status : String
  outputTag : Option String
  rollbackActionId : Option String
  errorDetail : Option String
  eventId : String
  now : String
  stored : Bool

inductive Failure where
  | sandboxNotFound (sandboxId : String)
  | stateVersionConflict (sandboxId : String) (expectedVersion actualVersion : Int)
  | contract (error : ContractError)
  /-- A violated constraint, a lost connection, a failed commit. -/
  | database
  deriving DecidableEq

def policyDecisionOf (call : OpenCall) : String :=
  match call.policyDecisionId with
  | some id => if id = "" then call.generatedPolicyDecisionId else id
  | none => call.generatedPolicyDecisionId

def pendingAction (call : OpenCall) (actionType : ActionType) : PendingAction :=
  ⟨call.actionId, call.commandId, call.sandboxId, call.caseId, actionType, call.actionParams,
    call.expectedStateVersion, call.issuedBy, policyDecisionOf call⟩

def pendingRow (a : PendingAction) : ActionRow :=
  ⟨a.actionId, a.commandId, a.sandboxId, a.caseId, a.actionType, a.actionParams,
    a.expectedStateVersion, a.issuedBy, a.policyDecisionId, "PENDING", none, none, none⟩

def commandEnvelope (call : OpenCall) (a : PendingAction) : Json :=
  .obj
    [ ("command_id", .str a.commandId), ("command_type", .str "sandbox.command"),
      ("schema_version", .str "1.0"), ("case_id", .str a.caseId),
      ("sandbox_id", .str a.sandboxId), ("expected_state_version", .int a.expectedStateVersion),
      ("issued_by", .str a.issuedBy), ("policy_decision_id", .str a.policyDecisionId),
      ("params", .obj [("action_type", .str call.actionType), ("action_params", a.actionParams)]) ]

/-- A sandbox is inserted at the column's default version; a known one keeps
its case and its version. -/
def ensureSandboxInstance (sandboxId caseId : String) (stored : Bool) (row : Option SandboxRow)
    (db : Database) : Except Failure (Database × Int) := do
  require stored .database
  pure ({ db with sandboxes := db.sandboxes.upsert ⟨sandboxId, caseId, 0⟩ id fun _ => rfl },
    (row.map SandboxRow.stateVersion).getD 0)

def openPendingAction (call : OpenCall) (row : Option SandboxRow) (db : Database) :
    Except Failure (Database × PendingAction) := do
  let row ← present row (.sandboxNotFound call.sandboxId)
  require (row.stateVersion = call.expectedStateVersion)
    (.stateVersionConflict call.sandboxId call.expectedStateVersion row.stateVersion)
  let actionType ← present (actionTypeOf call.actionType) .database
  let a := pendingAction call actionType
  -- the checks and the unique index of `sandbox_actions`
  require (ulidPattern a.actionId && ulidPattern a.commandId && ulidPattern a.policyDecisionId)
    .database
  require (a.issuedBy ∈ ["AI", "ANALYST", "SYSTEM"]) .database
  require (db.actions.rows.all fun r => r.commandId ≠ a.commandId) .database
  let actions ← present (db.actions.insert (pendingRow a)) .database
  let outbox ← present (db.outbox.insert
    ⟨a.commandId, "sandbox.command", commandEnvelope call a⟩) .database
  require call.stored .database
  pure ({ db with actions, outbox }, a)

def RecordCall.advances (call : RecordCall) : Bool :=
  call.status = "SUCCESS" && call.action.actionType.mutating

def RecordCall.newVersion (call : RecordCall) : Int :=
  if call.advances then call.action.expectedStateVersion + 1 else call.action.expectedStateVersion

def completed (call : RecordCall) (r : ActionRow) : ActionRow :=
  { r with
    status := call.status
    outputTag := call.outputTag
    rollbackActionId := call.rollbackActionId
    errorDetail := call.errorDetail }

theorem completed_actionId (call : RecordCall) (r : ActionRow) :
    (completed call r).actionId = r.actionId := rfl

def withVersion (version : Int) (r : SandboxRow) : SandboxRow := { r with stateVersion := version }

theorem withVersion_sandboxId (version : Int) (r : SandboxRow) :
    (withVersion version r).sandboxId = r.sandboxId := rfl

/-- The statuses a completed row may have: with `completed_at` set, `PENDING`
violates the table's consistency check. -/
def completedStatuses : List String := ["SUCCESS", "FAILED", "REJECTED", "TIMEOUT", "ROLLED_BACK"]

def resultEvent (digest : String → String) (call : RecordCall) : Json :=
  buildEvent digest call.eventId call.now
    { eventType := "sandbox.command_result",
      payload := .obj
        [ ("command_id", .str call.action.commandId), ("command_type", .str "sandbox.command"),
          ("status", .str call.status),
          ("output_tag", .str (match call.outputTag with
            | some tag => if tag = "" then "REAL_OS_OUTPUT" else tag
            | none => "REAL_OS_OUTPUT")),
          ("journal_entry_id", .str call.action.actionId),
          ("rollback_action_id", optional call.rollbackActionId),
          ("error_detail", optional call.errorDetail) ],
      sourceId := "mirage-sandbox-gateway", sequence := call.newVersion, actorType := "SYSTEM",
      classification := "EVIDENCE", caseId := some call.action.caseId, sessionId := none }

def auditRow (call : RecordCall) : AuditRow :=
  ⟨"mirage-sandbox-gateway", "SYSTEM",
    "sandbox_action." ++ call.action.actionType.lower ++ "." ++ call.status.toLower,
    call.action.sandboxId, if call.status = "SUCCESS" then "SUCCESS" else "FAILURE",
    call.action.commandId, some (call.errorDetail.getD "")⟩

structure ArtifactTables where
  deployments : List DeploymentRow
  artifacts : KeyedTable ArtifactRow.artifactId

def placedArtifact (call : RecordCall) (status : String) (t : ArtifactTables) : ArtifactTables :=
  let mine := fun r : DeploymentRow => r.sandboxActionId = some call.action.actionId
  { deployments := t.deployments.map fun r =>
      if mine r then
        { r with
          status
          observedSha256 := if call.status = "SUCCESS" then some r.expectedSha256 else none
          rollbackActionId := call.rollbackActionId }
      else r
    artifacts := match t.deployments.find? mine with
      | some r => t.artifacts.update r.artifactId
          (fun artifact => { artifact with
            deploymentStatus := some status
            deployedAt := if call.status = "SUCCESS" then some call.now else artifact.deployedAt })
          fun _ => rfl
      | none => t.artifacts }

def rolledBackArtifact (call : RecordCall) (status : String) (t : ArtifactTables) :
    ArtifactTables :=
  let mine := fun r : DeploymentRow =>
    r.rollbackActionId = some call.action.actionId && r.status = "ROLLBACK_PENDING"
  { deployments := t.deployments.map fun r => if mine r then { r with status } else r
    artifacts := match t.deployments.find? mine with
      | some r => t.artifacts.update r.artifactId
          (fun artifact => { artifact with
            deploymentStatus := some status
            approvedForDeployment := false })
          fun _ => rfl
      | none => t.artifacts }

def artifactTablesAfter (call : RecordCall) (db : Database) : ArtifactTables :=
  let t : ArtifactTables := ⟨db.deployments, db.artifacts⟩
  match call.action.actionType, db.artifactTables with
  | .placeArtifact, true =>
    placedArtifact call (if call.status = "SUCCESS" then "DEPLOYED" else "FAILED") t
  | .rollbackAction, true =>
    rolledBackArtifact call (if call.status = "SUCCESS" then "REVOKED" else "ROLLBACK_FAILED") t
  | _, _ => t

/-- The update of the action row passes the table's checks. -/
def updatable (call : RecordCall) (db : Database) : Bool :=
  (db.actions.find call.action.actionId).isNone ||
    (call.status ∈ completedStatuses && call.outputTag.all (· ∈ outputTags) &&
      call.rollbackActionId.all fun id => (db.actions.find id).isSome)

def recordActionResult (digest : String → String) (call : RecordCall) (row : Option SandboxRow)
    (db : Database) : Except Failure (Database × Int) := do
  require (updatable call db) .database
  require (!call.advances || call.newVersion < 2 ^ 31) .database
  require (!call.advances || row.any fun r => r.stateVersion = call.action.expectedStateVersion)
    (.stateVersionConflict call.action.sandboxId call.action.expectedStateVersion
      (call.newVersion - 1))
  let outbox ← announce digest .contract .database "sandbox.command_result"
    (resultEvent digest call) db.outbox
  require call.stored .database
  let tables := artifactTablesAfter call db
  pure ({ db with
      actions := db.actions.update call.action.actionId (completed call) (completed_actionId call)
      sandboxes := if call.advances then
          db.sandboxes.update call.action.sandboxId (withVersion call.newVersion)
            (withVersion_sandboxId call.newVersion)
        else db.sandboxes
      outbox
      audit := db.audit ++ [auditRow call]
      deployments := tables.deployments
      artifacts := tables.artifacts },
    call.newVersion)

section
variable {digest : String → String}

theorem ensureSandboxInstance_spec {sandboxId caseId : String} {stored : Bool} {row : Option SandboxRow}
    {db db' : Database} {version : Int}
    (ran : ensureSandboxInstance sandboxId caseId stored row db = .ok (db', version)) :
    db' = { db with sandboxes := db.sandboxes.upsert ⟨sandboxId, caseId, 0⟩ id fun _ => rfl } := by
  simp only [ensureSandboxInstance, bind_eq_ok] at ran
  obtain ⟨-, -, done⟩ := ran
  cases done
  rfl

theorem find_ensured (sandboxes : KeyedTable SandboxRow.sandboxId) (sandboxId caseId k : String) :
    (sandboxes.upsert ⟨sandboxId, caseId, 0⟩ id fun _ => rfl).find k =
      if k = sandboxId then some ((sandboxes.find sandboxId).getD ⟨sandboxId, caseId, 0⟩)
      else sandboxes.find k := by
  rw [KeyedTable.find_upsert]
  simp

structure Opened (call : OpenCall) (row : Option SandboxRow) (db db' : Database)
    (a : PendingAction) : Prop where
  pending : ∃ actionType, a = pendingAction call actionType
  current : ∃ r, row = some r ∧ r.stateVersion = call.expectedStateVersion
  fresh : a.actionId ∉ db.actions.rows.map ActionRow.actionId
  freshCommand : ∀ r ∈ db.actions.rows, r.commandId ≠ a.commandId
  inserted : db.actions.insert (pendingRow a) = some db'.actions
  sandboxes : db'.sandboxes = db.sandboxes
  audit : db'.audit = db.audit
  outbox : db'.outbox.rows = db.outbox.rows ++
    [⟨a.commandId, "sandbox.command", commandEnvelope call a⟩]

theorem openPendingAction_spec {call : OpenCall} {row : Option SandboxRow} {db db' : Database}
    {a : PendingAction} (ran : openPendingAction call row db = .ok (db', a)) :
    Opened call row db db' a := by
  simp only [openPendingAction, bind_eq_ok, require_eq_ok, present_eq_ok] at ran
  obtain ⟨r, found, -, version, actionType, -, -, -, -, -, -, command, actions, inserted, outbox,
    announced, -, -, done⟩ := ran
  cases done
  refine ⟨⟨actionType, rfl⟩, ⟨r, found, by simpa using version⟩,
    (KeyedTable.insert_eq_some inserted).1, fun r' hr' => ?_, inserted, rfl, rfl,
    (KeyedTable.insert_eq_some announced).2⟩
  have all := List.all_eq_true.mp command r' hr'
  simpa using all

structure Recorded (digest : String → String) (call : RecordCall) (row : Option SandboxRow)
    (db db' : Database) : Prop where
  terminal : (db.actions.find call.action.actionId).isSome → call.status ∈ completedStatuses
  current : call.advances = true →
    ∃ r, row = some r ∧ r.stateVersion = call.action.expectedStateVersion
  actions : db'.actions =
    db.actions.update call.action.actionId (completed call) (completed_actionId call)
  sandboxes : db'.sandboxes = if call.advances then
      db.sandboxes.update call.action.sandboxId (withVersion call.newVersion)
        (withVersion_sandboxId call.newVersion)
    else db.sandboxes
  outbox : db'.outbox.rows = db.outbox.rows ++ [outboxRow "sandbox.result" (resultEvent digest call)]
  audit : db'.audit = db.audit ++ [auditRow call]

theorem recordActionResult_spec {call : RecordCall} {row : Option SandboxRow} {db db' : Database}
    {version : Int} (ran : recordActionResult digest call row db = .ok (db', version)) :
    Recorded digest call row db db' := by
  simp only [recordActionResult, bind_eq_ok, require_eq_ok] at ran
  obtain ⟨-, admitted, -, -, -, held, outbox, announced, -, -, done⟩ := ran
  cases done
  obtain ⟨topic, mapped, rows⟩ := announce_eq_ok announced
  cases mapped
  refine ⟨fun known => ?_, fun advances => ?_, rfl, rfl, rows, rfl⟩
  · simp only [updatable, Bool.or_eq_true, Option.isNone_iff_eq_none] at admitted
    rcases admitted with absent | checked
    · rw [absent] at known
      cases known
    · simp only [Bool.and_eq_true, decide_eq_true_eq] at checked
      exact checked.1.1
  · rw [advances, Bool.not_true, Bool.false_or] at held
    obtain ⟨r, found, version⟩ := (Option.any_eq_true _ row).mp held
    exact ⟨r, found, by simpa using version⟩

end

/-- The checks of a recording other than the version: those of the columns,
the contract of the result event, a new event id, and the commit. -/
def recordable (digest : String → String) (call : RecordCall) (db : Database) : Bool :=
  updatable call db && (!call.advances || call.newVersion < 2 ^ 31) &&
    (announce digest Failure.contract .database "sandbox.command_result" (resultEvent digest call)
      db.outbox).isOk && call.stored

theorem recordActionResult_commits_iff {digest : String → String} {call : RecordCall}
    {row : Option SandboxRow} {db : Database} :
    (∃ done, recordActionResult digest call row db = .ok done) ↔
      recordable digest call db = true ∧ (call.advances = true →
        ∃ r, row = some r ∧ r.stateVersion = call.action.expectedStateVersion) := by
  have held : (!call.advances || row.any fun r =>
      r.stateVersion = call.action.expectedStateVersion) = true ↔ (call.advances = true →
        ∃ r, row = some r ∧ r.stateVersion = call.action.expectedStateVersion) := by
    cases call.advances <;> simp [Option.any_eq_true]
  simp only [recordable, Bool.and_eq_true, ← held]
  constructor
  · rintro ⟨done, ran⟩
    simp only [recordActionResult, bind_eq_ok, require_eq_ok] at ran
    obtain ⟨-, admitted, -, small, -, current, outbox, announced, -, stored, -⟩ := ran
    exact ⟨⟨⟨⟨admitted, small⟩, by rw [announced]; rfl⟩, stored⟩, current⟩
  · rintro ⟨⟨⟨⟨admitted, small⟩, valid⟩, stored⟩, current⟩
    cases announced : announce digest Failure.contract .database "sandbox.command_result"
        (resultEvent digest call) db.outbox with
    | error failure =>
      rw [announced] at valid
      cases valid
    | ok outbox =>
      simp only [recordActionResult, admitted, small, current, announced, stored]
      exact ⟨_, rfl⟩

inductive Call where
  | ensureSandbox (sandboxId caseId : String) (stored : Bool)
  | openAction (call : OpenCall)
  | record (call : RecordCall)

inductive Answer where
  | version (n : Int)
  | pending (action : PendingAction)

def execute (digest : String → String) : Call → Option SandboxRow → Database →
    Except Failure (Database × Answer)
  | .ensureSandbox sandboxId caseId stored, row, db => do
    let (db', n) ← ensureSandboxInstance sandboxId caseId stored row db
    pure (db', .version n)
  | .openAction call, row, db => do
    let (db', a) ← openPendingAction call row db
    pure (db', .pending a)
  | .record call, row, db => do
    let (db', n) ← recordActionResult digest call row db
    pure (db', .version n)

def lockKey : Call → Option String
  | .ensureSandbox sandboxId _ _ => some sandboxId
  | .openAction call => some call.sandboxId
  | .record call => if call.advances then some call.action.sandboxId else none

theorem execute_cases {digest : String → String} {call : Call} {row : Option SandboxRow}
    {db db' : Database} {answer : Answer} (ran : execute digest call row db = .ok (db', answer)) :
    (∃ sandboxId caseId stored n, call = .ensureSandbox sandboxId caseId stored ∧ answer = .version n ∧
      db' = { db with sandboxes := db.sandboxes.upsert ⟨sandboxId, caseId, 0⟩ id fun _ => rfl }) ∨
    (∃ c a, call = .openAction c ∧ answer = .pending a ∧ Opened c row db db' a) ∨
    (∃ c n, call = .record c ∧ answer = .version n ∧ Recorded digest c row db db') := by
  cases call with
  | ensureSandbox sandboxId caseId stored =>
    simp only [execute, bind_eq_ok] at ran
    obtain ⟨⟨db₁, n⟩, ran, done⟩ := ran
    cases done
    exact .inl ⟨sandboxId, caseId, stored, n, rfl, rfl, ensureSandboxInstance_spec ran⟩
  | openAction c =>
    simp only [execute, bind_eq_ok] at ran
    obtain ⟨⟨db₁, a⟩, ran, done⟩ := ran
    cases done
    exact .inr (.inl ⟨c, a, rfl, rfl, openPendingAction_spec ran⟩)
  | record c =>
    simp only [execute, bind_eq_ok] at ran
    obtain ⟨⟨db₁, n⟩, ran, done⟩ := ran
    cases done
    exact .inr (.inr ⟨c, n, rfl, rfl, recordActionResult_spec ran⟩)

theorem execute_frame (digest : String → String) {call : Call} {row : Option SandboxRow}
    {db db' : Database} {answer : Answer} (ran : execute digest call row db = .ok (db', answer))
    (k : String) (other : lockKey call ≠ some k) :
    db'.sandboxes.find k = db.sandboxes.find k := by
  obtain ⟨sandboxId, caseId, stored, n, rfl, rfl, rfl⟩ | ⟨c, a, rfl, rfl, done⟩ | ⟨c, n, rfl, rfl, done⟩ :=
    execute_cases ran
  · have apart : k ≠ sandboxId := fun h => other (congrArg some h.symm)
    simp [KeyedTable.find_upsert, apart]
  · rw [done.sandboxes]
  · rw [done.sandboxes]
    split
    · rename_i advances
      have apart : k ≠ c.action.sandboxId := fun h => other (by simp [lockKey, advances, h])
      rw [KeyedTable.find_update, if_neg apart]
    · rfl

def ledger (digest : String → String) :
    Discipline String SandboxRow Database Call Failure Answer where
  row db sandboxId := db.sandboxes.find sandboxId
  lockKey := lockKey
  exec := execute digest
  frame := fun ran k other => execute_frame digest ran k other

theorem atomic_cases {digest : String → String} {call : Call} {db db' : Database} {answer : Answer}
    (ran : (ledger digest).atomic call db = (db', .ok answer)) :
    (∃ sandboxId caseId stored n, call = .ensureSandbox sandboxId caseId stored ∧ answer = .version n ∧
      db' = { db with sandboxes := db.sandboxes.upsert ⟨sandboxId, caseId, 0⟩ id fun _ => rfl }) ∨
    (∃ c a, call = .openAction c ∧ answer = .pending a ∧
      Opened c (db.sandboxes.find c.sandboxId) db db' a) ∨
    (∃ c n, call = .record c ∧ answer = .version n ∧
      Recorded digest c ((lockKey call).bind db.sandboxes.find) db db') := by
  obtain ensured | ⟨c, a, rfl, rfl, done⟩ | ⟨c, n, rfl, rfl, done⟩ :=
    execute_cases ((atomic_eq_ok (ledger digest)).mp ran)
  · exact .inl ensured
  · exact .inr (.inl ⟨c, a, rfl, rfl, done⟩)
  · exact .inr (.inr ⟨c, n, rfl, rfl, done⟩)

/-- A committed result that advances found the sandbox at the expected version
and leaves it at the next; no other row of the table changes. -/
theorem Recorded.sandbox {digest : String → String} {call : RecordCall} {db db' : Database}
    (done : Recorded digest call ((lockKey (.record call)).bind db.sandboxes.find) db db') :
    (call.advances = true → ∃ row, db.sandboxes.find call.action.sandboxId = some row ∧
      row.stateVersion = call.action.expectedStateVersion) ∧
    ∀ k, db'.sandboxes.find k = if call.advances = true ∧ k = call.action.sandboxId then
      (db.sandboxes.find k).map (withVersion (call.action.expectedStateVersion + 1))
      else db.sandboxes.find k := by
  constructor
  · intro advances
    obtain ⟨row, seen, version⟩ := done.current advances
    exact ⟨row, by simpa [lockKey, advances] using seen, version⟩
  · intro k
    rw [done.sandboxes]
    by_cases advances : call.advances = true
    · rw [if_pos advances, KeyedTable.find_update, RecordCall.newVersion, if_pos advances]
      by_cases here : k = call.action.sandboxId
      · subst here
        simp [advances]
      · simp [here]
    · rw [if_neg advances, if_neg fun both => advances both.1]

/-- A result commits exactly if it passes its checks and, where it advances
the version, the sandbox is still at the expected one. -/
theorem record_commits_iff {digest : String → String} {call : RecordCall} {db : Database} :
    (∃ db' n, (ledger digest).atomic (.record call) db = (db', .ok (.version n))) ↔
      recordable digest call db = true ∧ (call.advances = true → ∃ r,
        db.sandboxes.find call.action.sandboxId = some r ∧
        r.stateVersion = call.action.expectedStateVersion) := by
  have seen : call.advances = true →
      (ledger digest).locked (.record call) db = db.sandboxes.find call.action.sandboxId := by
    intro advances
    simp [Discipline.locked, ledger, lockKey, advances]
  have commits : (∃ done, recordActionResult digest call
      ((ledger digest).locked (.record call) db) db = .ok done) ↔ _ := recordActionResult_commits_iff
  constructor
  · rintro ⟨db', n, ran⟩
    have executed := (atomic_eq_ok (ledger digest)).mp ran
    simp only [ledger, execute, bind_eq_ok] at executed
    obtain ⟨done, recorded, -⟩ := executed
    obtain ⟨passes, current⟩ := commits.mp ⟨done, recorded⟩
    exact ⟨passes, fun advances => by rw [← seen advances]; exact current advances⟩
  · rintro ⟨passes, current⟩
    obtain ⟨⟨db', n⟩, recorded⟩ :=
      commits.mpr ⟨passes, fun advances => by rw [seen advances]; exact current advances⟩
    refine ⟨db', n, (atomic_eq_ok (ledger digest)).mpr ?_⟩
    simp only [ledger, execute, bind_eq_ok]
    exact ⟨(db', n), recorded, rfl⟩

/-! One concrete sandbox with two commands for version 0, for the runs that
later modules exhibit. -/

def sampleDatabase : Database where
  sandboxes := ⟨[⟨"sandbox-1", "01ARZ3NDEKTSV4RRFFQ69G5FC1", 0⟩], by decide⟩
  actions := .empty
  audit := []
  outbox := .empty
  artifactTables := true
  deployments := []
  artifacts := .empty

def sampleOpen (actionId commandId : String) : OpenCall where
  sandboxId := "sandbox-1"
  caseId := "01ARZ3NDEKTSV4RRFFQ69G5FC1"
  actionType := "CREATE_DECOY_DIRECTORY"
  actionParams := .obj [("path", .str "C:\\Users\\Public\\Payroll")]
  expectedStateVersion := 0
  issuedBy := "ANALYST"
  policyDecisionId := none
  actionId := actionId
  commandId := commandId
  generatedPolicyDecisionId := "01ARZ3NDEKTSV4RRFFQ69G5FD1"
  stored := true

def firstOpen : OpenCall := sampleOpen "01ARZ3NDEKTSV4RRFFQ69G5FA1" "01ARZ3NDEKTSV4RRFFQ69G5FB1"

def secondOpen : OpenCall := sampleOpen "01ARZ3NDEKTSV4RRFFQ69G5FA2" "01ARZ3NDEKTSV4RRFFQ69G5FB2"

def sampleDigest (text : String) : String :=
  if text.startsWith "\x7b\"command_id\":\"01ARZ3NDEKTSV4RRFFQ69G5FB1\"" then
    "b200b3b057850270661a16081e5ef761b4b1a53073a9a4cebc9047be24f44727"
  else "cd4ed947c7bb0aab0440e559a66fb423a19f32a9628d7fb6daaeac82a59faa7f"

def sampleResult (call : OpenCall) (eventId : String) : RecordCall :=
  ⟨pendingAction call .createDecoyDirectory, "SUCCESS", some "REAL_OS_OUTPUT", none, none, eventId,
    "2026-01-02T03:04:05.678Z", true⟩

def firstResult : RecordCall := sampleResult firstOpen "01ARZ3NDEKTSV4RRFFQ69G5FE1"

def secondResult : RecordCall := sampleResult secondOpen "01ARZ3NDEKTSV4RRFFQ69G5FE2"

end Mirage.SandboxActions
