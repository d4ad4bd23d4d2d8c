import Mirage.JsonValue
import Mirage.KeyedTable

/-! The tables of mirage-agent-ingestion: enrolment tokens, agents, the certificate
history, the build allowlist, telemetry receipts and the latest fingerprint snapshot of
each sandbox. -/

namespace Mirage.AgentDatabase

inductive Role where
  | endpoint
  | spider
  | envController
  | brokerClient
  | internalControl
  deriving DecidableEq

def Role.profile : Role → String
  | .endpoint => "MirageEndpoint"
  | .spider => "MirageSpider"
  | .envController => "MirageEnvironmentController"
  | .brokerClient => "BrokerClient"
  | .internalControl => "InternalControl"

inductive AgentStatus where
  | active
  | revoked
  deriving DecidableEq

structure AgentRow where
  agentId : String
  role : Role
  certificateProfile : String
  certificateSerial : String
  certificateNotAfter : String
  buildHash : String
  hostFingerprint : String
  status : AgentStatus
  revokedReason : Option String
  lastSequence : Int

structure TokenRow where
  tokenId : ℕ
  role : Role
  subject : String
  expiresAt : Int
  usedBy : Option String

inductive HistoryAction where
  | issued
  | renewed
  | revoked
  deriving DecidableEq

/-- One `certificate_history` entry. -/
structure HistoryRow where
  agentId : String
  certificateSerial : String
  action : HistoryAction
  detail : String
  role : Role
  token : Option ℕ

structure ReceiptRow where
  agentId : String
  sequence : Int
  eventId : String
  deriving DecidableEq

structure SnapshotRow where
  sandboxId : String
  checks : Json
  observedAt : String
  sourceAgentId : String

structure Database where
  tokens : KeyedTable TokenRow.tokenId
  agents : KeyedTable AgentRow.agentId
  history : List HistoryRow
  /-- `build_hash_allowlist`: one role for each hash. -/
  allowlist : String → Option Role
  receipts : List ReceiptRow
  snapshots : KeyedTable SnapshotRow.sandboxId

/-- `is_agent_active`: the status of the row that holds the serial. -/
def isAgentActive (db : Database) (serial : String) : Bool :=
  (db.agents.rows.find? fun r => r.certificateSerial = serial).any fun r => r.status = .active

def receiptsOf (db : Database) (agentId : String) : List ReceiptRow :=
  db.receipts.filter fun r => r.agentId = agentId

theorem mem_receiptsOf {db : Database} {agentId : String} {r : ReceiptRow} :
    r ∈ receiptsOf db agentId ↔ r ∈ db.receipts ∧ r.agentId = agentId := by
  simp [receiptsOf]

end Mirage.AgentDatabase
