import Mirage.AgentQueue
import Mirage.TelemetryIngestion

/-! MirageSpider's telemetry against its ingestion endpoint. -/

namespace Mirage.SpiderService
open AgentDatabase EventEnvelope AgentQueue TelemetryIngestion

/-- One newly enrolled agent, never revoked, and its endpoint, which has no
receipt of the agent yet. -/
structure Deployment where
  ingestion : Config
  agentId : String
  certificateSerial : String
  hostFingerprint : String
  maxQueueSize : ℕ
  server : AgentDatabase.Database
  row : AgentRow
  found : server.agents.find agentId = some row
  sameSerial : row.certificateSerial = certificateSerial
  active : row.status = .active
  lastSequence : row.lastSequence = 0
  admitted : isAgentActive server certificateSerial = true
  proxySecret : ingestion.proxySecret ≠ ""
  serialPresent : certificateSerial ≠ ""
  unused : receiptsOf server agentId = []

/-- The arguments of `record_observation`, and the time its payload reads. -/
structure Observation where
  observationType : String
  subject : String
  observedAt : String
  detail : List (String × Json)
  caseId : Option String
  sessionId : Option String
  processGuid : Option String
  correlationId : Option String

inductive DirectCall where
  | tamper (tamperType detail observedAt : String)
  | fingerprintSnapshot (sandboxId : String) (checks : Json) (observedAt : String)

def setOptional (name : String) (value : Option String) (members : List (String × Json)) :
    List (String × Json) :=
  match value with
  | some text => Json.setMember name (.str text) members
  | none => members

def mergedDetail (hostFingerprint : String) (o : Observation) : List (String × Json) :=
  let withHost :=
    if (Json.member "host_id" o.detail).isSome then o.detail
    else Json.setMember "host_id" (.str hostFingerprint) o.detail
  setOptional "correlation_id" o.correlationId (setOptional "process_guid" o.processGuid withHost)

def spiderEvent (d : Deployment) (eventId now : String) (sequence : ℕ) (eventType : String)
    (payload : Json) (caseId sessionId : Option String) : Json :=
  buildEvent d.ingestion.digest eventId now
    { eventType, payload, sourceId := d.agentId, sequence, actorType := "SPIDER_AGENT",
      classification := "EVIDENCE", caseId, sessionId }

def observationEvent (d : Deployment) (eventId now : String) (sequence : ℕ) (o : Observation) :
    Json :=
  spiderEvent d eventId now sequence "spider.observation"
    (.obj [("observation_type", .str o.observationType), ("subject", .str o.subject),
      ("observed_at", .str o.observedAt), ("detail", .obj (mergedDetail d.hostFingerprint o))])
    o.caseId o.sessionId

def directEvent (d : Deployment) (eventId now : String) (sequence : ℕ) : DirectCall → Json
  | .tamper tamperType detail observedAt => spiderEvent d eventId now sequence "spider.tamper"
      (.obj [("tamper_type", .str tamperType), ("detail", .str detail),
        ("observed_at", .str observedAt)])
      none none
  | .fingerprintSnapshot sandboxId checks observedAt =>
      spiderEvent d eventId now sequence "spider.fingerprint_snapshot"
        (.obj [("sandbox_id", .str sandboxId), ("checks", checks),
          ("observed_at", .str observedAt)])
        none none

structure HttpResponse where
  status : ℕ
  /-- `body.get("event_id")`. -/
  eventId : Option String
  text : String

/-- How one call of `AgentHttpClient.submit_telemetry` ends. -/
inductive Outcome where
  | delivered
  | submitFailed (status : ℕ) (detail : String)
  | ackMismatch (acknowledged : Option String)
  /-- Any other exception: connection, timeout, unreadable body. -/
  | transport
  deriving DecidableEq

def readResponse (event : Json) (r : HttpResponse) : Outcome :=
  if r.status ≠ 202 then .submitFailed r.status r.text
  else if event.get? "event_id" |> (Json.isText · (r.eventId.getD "")) then
    if r.eventId.isSome then .delivered else .ackMismatch none
  else .ackMismatch r.eventId

def quoted : Option String → String
  | some text => "'" ++ text ++ "'"
  | none => "None"

/-- `str(exc)` of the exception, as `flush_queue` stores it. -/
def Outcome.error (event : Json) : Outcome → String
  | .submitFailed status detail =>
    "telemetry submit failed (" ++ toString status ++ "): " ++ detail
  | .ackMismatch acknowledged =>
    "acknowledgement named event_id " ++ quoted acknowledged ++ ", expected " ++
      quoted (some (stringAt event "event_id"))
  | _ => ""

inductive Arrival where
  | genuine
  | failure
  /-- An answer from elsewhere on the path; it never acknowledges the event. -/
  | forged (r : HttpResponse)

/-- One running `flush_queue`: the rest of its batch, the number of the
submission it waits for, and the two variables of the loop. -/
structure Flush where
  batchSize : ℕ
  rest : List (ℕ × Json)
  awaiting : Option ℕ
  progressed : Bool
  totalSent : ℕ

structure State where
  queue : AgentQueue.Database Json
  server : AgentDatabase.Database
  nextCall : ℕ
  requests : List (ℕ × Json)
  responses : List (ℕ × HttpResponse)
  direct : List (ℕ × Json)
  flushes : List Flush
  issued : List Json
  recorded : List (ℕ × Json)
  vacuumed : List ℕ
  answers : List (ℕ × ℕ)

structure Circumstance where
  now : String
  published : Bool
  stored : Bool

inductive Event where
  | observe (o : Observation) (eventId now : String)
  /-- The process dies between `next_sequence` and `enqueue`. -/
  | observeInterrupted
  | startDirect (call : DirectCall) (eventId now : String)
  | receiveDirect (task : ℕ) (arrival : Arrival) (now : String)
  | startFlush (batchSize : ℕ)
  | send (task : ℕ)
  | receive (task : ℕ) (arrival : Arrival)
  | vacuum
  | serve (request : ℕ) (c : Circumstance)
  | foreign (req : Request)
  | crash

def start (d : Deployment) : State :=
  ⟨.fresh, d.server, 0, [], [], [], [], [], [], [], []⟩

def requestFor (d : Deployment) (event : Json) (c : Circumstance) : Request :=
  { agentId := d.agentId, proxyAuth := some d.ingestion.proxySecret,
    clientSerial := some d.certificateSerial, body := event, now := c.now,
    published := c.published, stored := c.stored }

def respond : Except Rejection Accepted → HttpResponse
  | .ok answer => ⟨202, some answer.eventId, ""⟩
  | .error rejection => ⟨rejection.status, none, ""⟩

/-- The answer that arrives for submission `n` of `event`; none while a
genuine one is still outstanding, or where a forged one would acknowledge. -/
def arrives (s : State) (n : ℕ) (event : Json) : Arrival → Option Outcome
  | .genuine => (s.responses.lookup n).map (readResponse event)
  | .failure => some .transport
  | .forged r => if readResponse event r = .delivered then none else some (readResponse event r)

/-- `queue.enqueue(event)`; a full queue raises and the event is not stored. -/
def enqueued (d : Deployment) (s : State) (event : Json) (now : String) : State :=
  match s.queue.enqueue d.maxQueueSize event now with
  | .ok (queue, rowId) => { s with queue, recorded := s.recorded ++ [(rowId, event)] }
  | .error _ => s

def issue (s : State) (event : Json) : State :=
  { s with queue := s.queue.nextSequence.1, issued := s.issued ++ [event] }

def nextBatch (queue : AgentQueue.Database Json) (batchSize totalSent : ℕ) : Option Flush :=
  match queue.peekBatch batchSize with
  | [] => none
  | batch => some ⟨batchSize, batch, none, false, totalSent⟩

/-- After the `for` loop: once more if it progressed, else return. -/
def endOfBatch (queue : AgentQueue.Database Json) (f : Flush) : Option Flush :=
  if f.progressed then nextBatch queue f.batchSize f.totalSent else none

def nextRow (queue : AgentQueue.Database Json) (f : Flush) : Option Flush :=
  match f.rest with
  | [] => endOfBatch queue f
  | _ => some f

/-- One iteration of the `for` loop, from the answer to the row `rowId` on. -/
def flushRow (queue : AgentQueue.Database Json) (f : Flush) (rowId : ℕ) (event : Json)
    (rest : List (ℕ × Json)) (outcome : Outcome) : AgentQueue.Database Json × Option Flush :=
  match outcome with
  | .delivered =>
    let queue := queue.ack [rowId]
    (queue, nextRow queue { f with
      rest, awaiting := none, progressed := true, totalSent := f.totalSent + 1 })
  | .submitFailed 400 _ =>
    let queue := queue.deadLetter [rowId] (some (outcome.error event))
    (queue, nextRow queue { f with rest, awaiting := none, progressed := true })
  | .submitFailed _ _ | .ackMismatch _ =>
    match queue.recordAttemptFailure rowId (outcome.error event) with
    | (queue, some _) => (queue, endOfBatch queue f)
    | (queue, none) => (queue, none)
  | .transport => (queue, none)

def answerCode : Outcome → List ℕ
  | .submitFailed status _ => [status]
  | _ => []

def replaceTask (flushes : List Flush) (task : ℕ) : Option Flush → List Flush
  | some f => flushes.set task f
  | none => flushes.eraseIdx task

def step (d : Deployment) (s : State) : Event → State
  | .observe o eventId now =>
    let event := observationEvent d eventId now (s.queue.sequence + 1) o
    enqueued d (issue s event) event now
  | .observeInterrupted =>
    { s with queue := s.queue.nextSequence.1, responses := [], direct := [], flushes := [] }
  | .startDirect call eventId now =>
    let event := directEvent d eventId now (s.queue.sequence + 1) call
    { issue s event with
      nextCall := s.nextCall + 1
      requests := s.requests ++ [(s.nextCall, event)]
      direct := s.direct ++ [(s.nextCall, event)] }
  | .receiveDirect task arrival now =>
    match s.direct[task]? with
    | none => s
    | some (n, event) =>
      match arrives s n event arrival with
      | none => s
      | some .delivered => { s with direct := s.direct.eraseIdx task }
      | some _ => enqueued d { s with direct := s.direct.eraseIdx task } event now
  | .startFlush batchSize =>
    { s with flushes := s.flushes ++ (nextBatch s.queue batchSize 0).toList }
  | .send task =>
    match s.flushes[task]? with
    | some { batchSize, rest := (rowId, event) :: rest, awaiting := none, progressed, totalSent } =>
      { s with
        nextCall := s.nextCall + 1
        requests := s.requests ++ [(s.nextCall, event)]
        flushes := s.flushes.set task
          ⟨batchSize, (rowId, event) :: rest, some s.nextCall, progressed, totalSent⟩ }
    | _ => s
  | .receive task arrival =>
    match s.flushes[task]? with
    | some { batchSize, rest := (rowId, event) :: rest, awaiting := some n, progressed, totalSent } =>
      match arrives s n event arrival with
      | none => s
      | some outcome =>
        let f : Flush := ⟨batchSize, (rowId, event) :: rest, some n, progressed, totalSent⟩
        let (queue, f') := flushRow s.queue f rowId event rest outcome
        { s with
          queue
          flushes := replaceTask s.flushes task f'
          answers := s.answers ++ (answerCode outcome).map fun code => (rowId, code) }
    | _ => s
  | .vacuum =>
    { s with
      queue := s.queue.vacuumAcked
      vacuumed := s.vacuumed ++
        ((s.queue.rows.filter fun r => r.status = .acknowledged).map QueueRow.id) }
  | .serve request c =>
    match s.requests[request]? with
    | none => s
    | some (n, event) =>
      let (server, answer) := (endpoint d.ingestion).atomic (requestFor d event c) s.server
      { s with
        server
        requests := s.requests.eraseIdx request
        responses := s.responses ++ [(n, respond answer)] }
  | .foreign req =>
    if req.agentId = d.agentId then s
    else { s with server := ((endpoint d.ingestion).atomic req s.server).1 }
  | .crash => { s with responses := [], direct := [], flushes := [] }

/-! One concrete agent, for the runs that later modules exhibit. -/

def sampleTime : String := "2026-01-02T03:04:05.678Z"

def sampleServer : AgentDatabase.Database where
  tokens := .empty
  agents := ⟨[⟨"agent-1", .spider, Role.spider.profile, "serial-1", sampleTime, "", "host-1", .active,
    none, 0⟩], by decide⟩
  history := []
  allowlist _ := none
  receipts := []
  snapshots := .empty

def sampleDigest (text : String) : String :=
  if text.startsWith "\x7b\"detail\":\"" then
    "19ae67baad933a3fbc68dbd628ef9590986d40b8ef8f74c1ef04d85ca12f0464"
  else "0e3e29dc56cea602dee9303c1465b82039cd2293349781406e835a43da8b96e0"

def sampleDeployment : Deployment where
  ingestion := ⟨sampleDigest, "secret"⟩
  agentId := "agent-1"
  certificateSerial := "serial-1"
  hostFingerprint := "host-1"
  maxQueueSize := 100000
  server := sampleServer
  row := ⟨"agent-1", .spider, Role.spider.profile, "serial-1", sampleTime, "", "host-1", .active,
    none, 0⟩
  found := by rfl
  sameSerial := rfl
  active := rfl
  lastSequence := rfl
  admitted := by rfl
  proxySecret := by decide
  serialPresent := by decide
  unused := rfl

def sampleObservation : Observation :=
  ⟨"PROCESS_START", "cmd.exe", sampleTime, [], none, none, none, none⟩

def sampleTamper : DirectCall := .tamper "LOG_CLEARED" "security log" sampleTime

def sampleServed : Circumstance := ⟨sampleTime, true, true⟩

end Mirage.SpiderService
