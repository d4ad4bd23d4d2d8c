import Mirage.JsonSchema

/-! Event envelopes: `build_event` and `validate_event` of `mirage_contracts.envelope`,
with the envelope schema and the registered payload schemas of the event types that the
modelled services build or accept. -/

namespace Mirage.EventEnvelope

def maxPayloadBytes : ℕ := 256 * 1024

def isDigit (c : Char) : Bool := '0' ≤ c && c ≤ '9'

def isLower (c : Char) : Bool := 'a' ≤ c && c ≤ 'z'

def isCrockford (c : Char) : Bool :=
  isDigit c || ('A' ≤ c && c ≤ 'Z' && !(c ∈ ['I', 'L', 'O', 'U']))

def ulidPattern : String → Bool := Schema.anchored fun
  | first :: rest => '0' ≤ first && first ≤ '7' && rest.length = 25 && rest.all isCrockford
  | [] => false

def eventTypeToken : List Char → Bool
  | first :: rest => isLower first && rest.all fun c => isLower c || isDigit c || c = '_'
  | [] => false

def eventTypePattern : String → Bool := Schema.anchored fun chars =>
  let tokens := chars.splitOn '.'
  2 ≤ tokens.length && tokens.all eventTypeToken

def schemaVersionPattern : String → Bool := Schema.anchored fun chars =>
  match chars.splitOn '.' with
  | [major, minor] => !major.isEmpty && !minor.isEmpty && major.all isDigit && minor.all isDigit
  | _ => false

def digitsThen (n : ℕ) (next : Char) (chars : List Char) : Option (List Char) :=
  if (chars.take n).length = n && (chars.take n).all isDigit && (chars.drop n).head? = some next
  then some (chars.drop (n + 1)) else none

/-- `YYYY-MM-DDTHH:MM:SS.mmmZ`, digit by digit; field ranges are not checked. -/
def rfc3339MsPattern : String → Bool := Schema.anchored fun chars =>
  (do
    let a ← digitsThen 4 '-' chars
    let b ← digitsThen 2 '-' a
    let c ← digitsThen 2 'T' b
    let d ← digitsThen 2 ':' c
    let e ← digitsThen 2 ':' d
    let f ← digitsThen 2 '.' e
    digitsThen 3 'Z' f) = some []

def sha256Pattern : String → Bool := Schema.anchored fun chars =>
  chars.length = 64 && chars.all fun c => isDigit c || ('a' ≤ c && c ≤ 'f')

def processGuidPattern : String → Bool := Schema.anchored fun chars =>
  chars.length = 38 && chars.head? = some '\x7b' && chars.getLast? = some '\x7d' &&
    (chars.tail.dropLast).all fun c =>
      isDigit c || ('a' ≤ c && c ≤ 'f') || ('A' ≤ c && c ≤ 'F') || c = '-'

def patterned (pattern : String → Bool) : Schema := .string none none (some pattern) none

def sized (minLength maxLength : ℕ) : Schema := .string (some minLength) (some maxLength) none none

def oneOf (values : List String) : Schema := .string none none none (some values)

def ulid : Schema := patterned ulidPattern

def timestamp : Schema := patterned rfc3339MsPattern

def envelopeFields : List (String × Schema) :=
  [ ("event_id", ulid),
    ("event_type", patterned eventTypePattern),
    ("schema_version", patterned schemaVersionPattern),
    ("event_time", timestamp),
    ("ingest_time", timestamp),
    ("case_id", .nullable ulid),
    ("session_id", .nullable ulid),
    ("source_id", sized 1 256),
    ("sequence", .integer (some 0) none),
    ("actor_type", oneOf ["ENDPOINT_AGENT", "SPIDER_AGENT", "ENV_CONTROLLER_AGENT", "BROKER",
      "CONTROL_SERVICE", "AI", "ANALYST", "SYSTEM"]),
    ("integrity", .object ["sha256"] [("sha256", patterned sha256Pattern)]),
    ("classification", oneOf ["INTERNAL", "EVIDENCE", "UNTRUSTED_INTRUDER_OUTPUT", "SYSTEM"]),
    ("payload", .anyObject) ]

def envelopeSchema : Schema := .object (envelopeFields.map Prod.fst) envelopeFields

def caseStates : List String :=
  ["CREATED", "ARMED", "MONITORING", "STEERING_PENDING", "SANDBOX_ACTIVE", "ENGAGING",
    "CONCLUDING", "EVIDENCE_VERIFYING", "EXPORTED", "DESTROYED"]

def severities : List String := ["LOW", "MEDIUM", "HIGH", "CRITICAL"]

def caseCreatedV1 : Schema := .object
  ["case_id", "severity", "correlation_key", "source_detection_ids", "initial_state"]
  [ ("case_id", ulid), ("severity", oneOf severities), ("correlation_key", sized 1 256),
    ("source_detection_ids", .array ulid (some 1) (some 50)),
    ("initial_state", oneOf ["CREATED"]) ]

def caseStateChangedV1 : Schema := .object
  ["case_id", "from_state", "to_state", "actor", "actor_type", "reason", "new_version",
    "correlation_id"]
  [ ("case_id", ulid), ("from_state", oneOf caseStates), ("to_state", oneOf caseStates),
    ("actor", sized 1 256), ("actor_type", oneOf ["ANALYST", "AI", "SYSTEM"]),
    ("reason", sized 1 1024), ("new_version", .integer (some 1) none), ("correlation_id", ulid) ]

def auditRecordedV1 : Schema := .object
  ["actor", "actor_type", "action", "target", "outcome", "correlation_id"]
  [ ("actor", sized 1 256), ("actor_type", oneOf ["ANALYST", "AI", "SYSTEM", "AGENT"]),
    ("action", sized 1 256), ("target", sized 1 256),
    ("outcome", oneOf ["SUCCESS", "FAILURE", "DENIED"]), ("correlation_id", ulid),
    ("detail", .nullable (.string none (some 2048) none none)) ]

def outputTags : List String :=
  ["REAL_OS_OUTPUT", "DECOY_SERVICE_OUTPUT", "AI_GENERATED_INTERACTION", "ANALYST_MESSAGE"]

def sandboxCommandResultV1 : Schema := .object
  ["command_id", "command_type", "status", "output_tag", "journal_entry_id"]
  [ ("command_id", ulid), ("command_type", patterned eventTypePattern),
    ("status", oneOf ["SUCCESS", "FAILED", "REJECTED", "TIMEOUT"]),
    ("output_tag", oneOf outputTags), ("journal_entry_id", ulid),
    ("rollback_action_id", .nullable ulid),
    ("error_detail", .nullable (.string none (some 2048) none none)) ]

def spiderObservationV1 : Schema := .object ["observation_type", "subject", "observed_at"]
  [ ("observation_type", oneOf ["PROCESS_START", "PROCESS_STOP", "FILE_CREATE", "FILE_MODIFY",
      "FILE_DELETE", "NETWORK_CONNECTION", "REGISTRY_MODIFY", "ARTIFACT_INTERACTION",
      "DECOY_INTERACTION", "CONTROLLER_ACTION_OBSERVED", "ANALYST_INTERACTION_OBSERVED",
      "AI_INTERACTION_OBSERVED", "USER_INTERACTION_INDICATOR"]),
    ("subject", sized 1 1024),
    ("detail", .object []
      [ ("pid", .integer (some 0) none), ("parent_pid", .integer (some 0) none),
        ("sha256", patterned sha256Pattern),
        ("remote_address", .string none (some 256) none none),
        ("remote_port", .integer (some 0) (some 65535)),
        ("registry_key", .string none (some 1024) none none), ("artifact_id", ulid),
        ("host_id", .string none (some 256) none none),
        ("process_guid", patterned processGuidPattern),
        ("correlation_id", .string none none none none) ]),
    ("observed_at", timestamp) ]

def spiderTamperV1 : Schema := .object ["tamper_type", "detail", "observed_at"]
  [ ("tamper_type", oneOf ["SERVICE_STOP_ATTEMPT", "PROCESS_KILL_ATTEMPT", "CONFIG_MODIFIED",
      "UNINSTALL_ATTEMPT", "LOG_CLEARED", "QUEUE_TAMPERED"]),
    ("detail", sized 1 2048), ("observed_at", timestamp) ]

def fingerprintChecks : List String :=
  ["hostname_domain", "user_profiles_and_sids", "installed_software", "file_timestamps",
    "processes_services", "network", "uptime", "decoy_service_banners"]

def spiderFingerprintSnapshotV1 : Schema := .object ["sandbox_id", "observed_at", "checks"]
  [ ("sandbox_id", sized 1 256), ("observed_at", timestamp),
    ("checks", .object fingerprintChecks (fingerprintChecks.map fun name => (name, .anyObject))) ]

def semverPattern : String → Bool := Schema.anchored fun chars =>
  let parts := chars.splitOn '.'
  parts.length = 3 && parts.all fun part => !part.isEmpty && part.all isDigit

def fingerprintGateEvaluatedV1 : Schema := .object
  ["case_id", "sandbox_id", "baseline_version", "passed", "all_must_passed", "should_pass_ratio",
    "failed_must_checks", "blocked"]
  [ ("case_id", ulid), ("sandbox_id", sized 1 256), ("baseline_version", patterned semverPattern),
    ("passed", .boolean), ("all_must_passed", .boolean),
    ("should_pass_ratio", .number (some 0) (some 1)),
    ("failed_must_checks", .array (.string none none none none) none none),
    ("blocked", .boolean) ]

/-- `events_registry`: every modelled event type is registered at major 1 only. -/
def payloadSchema : String → Option Schema
  | "case.created" => some caseCreatedV1
  | "case.state_changed" => some caseStateChangedV1
  | "audit.recorded" => some auditRecordedV1
  | "sandbox.command_result" => some sandboxCommandResultV1
  | "spider.observation" => some spiderObservationV1
  | "spider.tamper" => some spiderTamperV1
  | "spider.fingerprint_snapshot" => some spiderFingerprintSnapshotV1
  | "fingerprint.gate_evaluated" => some fingerprintGateEvaluatedV1
  | _ => none

def digitsValue (chars : List Char) : ℕ :=
  chars.foldl (fun n c => 10 * n + (c.toNat - '0'.toNat)) 0

/-- The major number of a text that matches `schemaVersionPattern`. -/
def parseSchemaVersion (version : String) : ℕ :=
  digitsValue (version.toList.takeWhile (· ≠ '.'))

inductive ContractError where
  | envelopeValidation (rejected : List (List String))
  | payloadTooLarge (actualBytes : ℕ)
  | integrityMismatch (expected actual : String)
  | unknownEventType (eventType : String)
  | unsupportedSchemaVersion (eventType version : String)
  | payloadValidation (eventType : String) (rejected : List (List String))
  deriving DecidableEq

structure ValidatedEvent where
  envelope : Json
  payload : Json
  eventType : String
  majorVersion : ℕ

def stringAt (value : Json) (name : String) : String :=
  match value.get? name with
  | some (.str s) => s
  | _ => ""

def validateEvent (digest : String → String) (instance' : Json) :
    Except ContractError ValidatedEvent :=
  match envelopeSchema.rejected [] instance' with
  | [] =>
    let payload := (instance'.get? "payload").getD .null
    let bytes := payload.canonical.utf8ByteSize
    if bytes > maxPayloadBytes then .error (.payloadTooLarge bytes)
    else
      let computed := digest payload.canonical
      let declared := stringAt ((instance'.get? "integrity").getD .null) "sha256"
      if computed ≠ declared then .error (.integrityMismatch declared computed)
      else
        let eventType := stringAt instance' "event_type"
        let version := stringAt instance' "schema_version"
        match payloadSchema eventType with
        | none => .error (.unknownEventType eventType)
        | some schema =>
          if parseSchemaVersion version ≠ 1 then
            .error (.unsupportedSchemaVersion eventType version)
          else
            match schema.rejected [] payload with
            | [] => .ok ⟨instance', payload, eventType, 1⟩
            | rejected => .error (.payloadValidation eventType rejected)
  | rejected => .error (.envelopeValidation rejected)

structure Validated (event : Json) (v : ValidatedEvent) : Prop where
  wellFormed : envelopeSchema.rejected [] event = []
  envelope : v.envelope = event
  payload : v.payload = (event.get? "payload").getD .null
  accepted : ∃ schema, payloadSchema (stringAt event "event_type") = some schema ∧
    schema.rejected [] v.payload = []

theorem validateEvent_spec {digest : String → String} {event : Json} {v : ValidatedEvent}
    (valid : validateEvent digest event = .ok v) : Validated event v := by
  unfold validateEvent at valid
  split at valid
  next wellFormed =>
    dsimp only at valid
    split at valid
    · cases valid
    split at valid
    · cases valid
    split at valid
    · cases valid
    next schema registered =>
      split at valid
      · cases valid
      split at valid
      next accepted =>
        cases valid
        exact ⟨wellFormed, rfl, rfl, schema, registered, accepted⟩
      next => cases valid
  next => cases valid

theorem validateEvent_envelope {digest : String → String} {event : Json} {v : ValidatedEvent}
    (valid : validateEvent digest event = .ok v) :
    envelopeSchema.rejected [] event = [] ∧ v.envelope = event :=
  ⟨(validateEvent_spec valid).wellFormed, (validateEvent_spec valid).envelope⟩

theorem validateEvent_payload {digest : String → String} {event : Json} {v : ValidatedEvent}
    (valid : validateEvent digest event = .ok v) :
    ∃ schema, payloadSchema (stringAt event "event_type") = some schema ∧
      schema.rejected [] ((event.get? "payload").getD .null) = [] := by
  have spec := validateEvent_spec valid
  rw [← spec.payload]
  exact spec.accepted

theorem validateEvent_eventId {digest : String → String} {event : Json} {v : ValidatedEvent}
    (valid : validateEvent digest event = .ok v) : ∃ id, event.get? "event_id" = some (.str id) := by
  have accepted := (validateEvent_envelope valid).1
  have listed : ("event_id", ulid) ∈ envelopeFields := by simp [envelopeFields]
  obtain ⟨inner, found, admitted⟩ := Schema.required_of_rejected accepted (by decide) listed
  obtain ⟨id, rfl, -⟩ := Schema.string_of_rejected admitted
  exact ⟨id, found⟩

structure EventFields where
  eventType : String
  payload : Json
  sourceId : String
  sequence : Int
  actorType : String
  classification : String
  caseId : Option String
  sessionId : Option String

def optional : Option String → Json
  | none => .null
  | some s => .str s

/-- `build_event` with the identifier and the time it draws. -/
def buildEvent (digest : String → String) (eventId now : String) (f : EventFields) : Json :=
  .obj
    [ ("event_id", .str eventId), ("event_type", .str f.eventType),
      ("schema_version", .str "1.0"), ("event_time", .str now), ("ingest_time", .str now),
      ("case_id", optional f.caseId), ("session_id", optional f.sessionId),
      ("source_id", .str f.sourceId), ("sequence", .int f.sequence),
      ("actor_type", .str f.actorType),
      ("integrity", .obj [("sha256", .str (digest f.payload.canonical))]),
      ("classification", .str f.classification), ("payload", f.payload) ]

section
variable (digest : String → String) (eventId now : String) (f : EventFields)

@[simp] theorem buildEvent_eventId :
    (buildEvent digest eventId now f).get? "event_id" = some (.str eventId) := rfl

@[simp] theorem buildEvent_eventType :
    (buildEvent digest eventId now f).get? "event_type" = some (.str f.eventType) := rfl

@[simp] theorem buildEvent_sourceId :
    (buildEvent digest eventId now f).get? "source_id" = some (.str f.sourceId) := rfl

@[simp] theorem buildEvent_sequence :
    (buildEvent digest eventId now f).get? "sequence" = some (.int f.sequence) := rfl

@[simp] theorem buildEvent_payload :
    (buildEvent digest eventId now f).get? "payload" = some f.payload := rfl

end

example : ulidPattern "01ARZ3NDEKTSV4RRFFQ69G5FAV" = true := by decide
example : rfc3339MsPattern "2026-01-02T03:04:05.678Z" = true := by decide

end Mirage.EventEnvelope
