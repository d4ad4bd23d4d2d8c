import Mirage.AgentDatabase
import Mirage.EventEnvelope
import Mirage.RowLocks
import Mathlib.Order.Bounds.Basic

/-! `POST /api/v1/agents/{agent_id}/telemetry` of mirage-agent-ingestion. -/

namespace Mirage.TelemetryIngestion
open AgentDatabase EventEnvelope RowLocks

structure Config where
  digest : String → String
  proxySecret : String

structure Request where
  agentId : String
  proxyAuth : Option String
  clientSerial : Option String
  body : Json
  now : String
  published : Bool
  stored : Bool

structure Accepted where
  eventId : String
  sequence : Int
  replay : Bool
  deriving DecidableEq

inductive Rejection where
  | proxyAuthentication
  | clientSerialMissing
  | bodyNotObject
  | unknownAgent
  | certificateMismatch
  | agentRevoked
  | eventTypeNotSubmittable
  | sourceMismatch
  | sequenceNotInteger
  | sequenceUsed (sequence : Int)
  | sequenceNotGreater (sequence lastSequence : Int)
  | contract (error : ContractError)
  /-- Any other exception: an unhashable event type, a boolean compared with a
  BIGINT column, a failed publish, a violated constraint. -/
  | internal
  deriving DecidableEq

def Rejection.status : Rejection → ℕ
  | proxyAuthentication | clientSerialMissing => 401
  | bodyNotObject => 422
  | unknownAgent => 404
  | certificateMismatch | agentRevoked | sourceMismatch => 403
  | eventTypeNotSubmittable | sequenceNotInteger | contract _ => 400
  | sequenceUsed _ | sequenceNotGreater _ _ => 409
  | internal => 500

def allowedTelemetryEventTypes : List String :=
  ["spider.observation", "spider.tamper", "spider.fingerprint_snapshot"]

def requireClientCertificateSerial (cfg : Config) (req : Request) : Except Rejection String := do
  require (req.proxyAuth.any fun s => s ≠ "" && s = cfg.proxySecret) .proxyAuthentication
  let serial ← present req.clientSerial .clientSerialMissing
  require (serial ≠ "") .clientSerialMissing
  pure serial

def isObject : Json → Bool
  | .obj _ => true
  | _ => false

def authorise (db : Database) (serial : String) (row : Option AgentRow) :
    Except Rejection AgentRow := do
  let row ← present row .unknownAgent
  require (row.certificateSerial = serial) .certificateMismatch
  require (row.status = .active && isAgentActive db serial) .agentRevoked
  pure row

def eventTypeOf (body : Json) : Except Rejection String :=
  match body.get? "event_type" with
  | some (.str t) => if t ∈ allowedTelemetryEventTypes then .ok t else .error .eventTypeNotSubmittable
  | some (.arr _) | some (.obj _) => .error .internal
  | _ => .error .eventTypeNotSubmittable

def sequenceOf (body : Json) : Except Rejection Int :=
  match body.get? "sequence" with
  | some (.int n) => .ok n
  | some (.bool _) => .error .internal
  | _ => .error .sequenceNotInteger

def contractChecked (cfg : Config) (event : Json) : Except Rejection ValidatedEvent :=
  match validateEvent cfg.digest event with
  | .ok v => .ok v
  | .error e => .error (.contract e)

def snapshotRow (agentId : String) (payload : Json) : SnapshotRow :=
  ⟨stringAt payload "sandbox_id", (payload.get? "checks").getD .null,
    stringAt payload "observed_at", agentId⟩

def storeSnapshot (db : Database) (agentId eventType : String) (payload : Json) :
    KeyedTable SnapshotRow.sandboxId :=
  if eventType = "spider.fingerprint_snapshot" then
    let row := snapshotRow agentId payload
    db.snapshots.upsert row
      (fun old => { row with sandboxId := old.sandboxId }) fun _ => rfl
  else db.snapshots

def receiptFor (db : Database) (agentId : String) (sequence : Int) : Option ReceiptRow :=
  db.receipts.find? fun r => r.agentId = agentId && r.sequence = sequence

/-- A sequence without a receipt: validate, publish, store the snapshot, write
the receipt and advance `last_sequence`. -/
def acceptNew (cfg : Config) (req : Request) (row : AgentRow) (eventType : String)
    (sequence : Int) (db : Database) : Except Rejection (Database × Accepted) := do
  require (row.lastSequence < sequence) (.sequenceNotGreater sequence row.lastSequence)
  let event := req.body.set "ingest_time" (.str req.now)
  let validated ← contractChecked cfg event
  require (req.published && req.stored) .internal
  let eventId := stringAt event "event_id"
  -- BIGINT, and the unique index on (agent_id, event_id)
  require (sequence < 2 ^ 63) .internal
  require (db.receipts.all fun r => !(r.agentId = req.agentId && r.eventId = eventId)) .internal
  pure ({ db with
      snapshots := storeSnapshot db req.agentId eventType validated.payload
      receipts := db.receipts ++ [⟨req.agentId, sequence, eventId⟩]
      agents := db.agents.update req.agentId
        (fun r => { r with lastSequence := sequence }) fun _ => rfl },
    ⟨eventId, sequence, false⟩)

def submitTelemetry (cfg : Config) (req : Request) (row : Option AgentRow) (db : Database) :
    Except Rejection (Database × Accepted) := do
  let serial ← requireClientCertificateSerial cfg req
  require (isObject req.body) .bodyNotObject
  let row ← authorise db serial row
  let eventType ← eventTypeOf req.body
  require (Json.isText (req.body.get? "source_id") req.agentId) .sourceMismatch
  let sequence ← sequenceOf req.body
  match receiptFor db req.agentId sequence with
  | some receipt => do
    require (Json.isText (req.body.get? "event_id") receipt.eventId) (.sequenceUsed sequence)
    pure (db, ⟨receipt.eventId, sequence, true⟩)
  | none => acceptNew cfg req row eventType sequence db

def Names (req : Request) (sequence : Int) (eventId : String) : Prop :=
  req.body.get? "sequence" = some (.int sequence) ∧
    req.body.get? "event_id" = some (.str eventId)

structure Replayed (req : Request) (db db' : Database) (answer : Accepted) : Prop where
  replay : answer.replay = true
  names : Names req answer.sequence answer.eventId
  unchanged : db' = db
  receipt : ⟨req.agentId, answer.sequence, answer.eventId⟩ ∈ db.receipts

structure NewlyAccepted (req : Request) (row : AgentRow) (db db' : Database)
    (answer : Accepted) : Prop where
  replay : answer.replay = false
  names : Names req answer.sequence answer.eventId
  above : row.lastSequence < answer.sequence
  newSequence : ∀ r ∈ db.receipts, r.agentId = req.agentId → r.sequence ≠ answer.sequence
  newEvent : ∀ r ∈ db.receipts, r.agentId = req.agentId → r.eventId ≠ answer.eventId
  receipts : db'.receipts = db.receipts ++ [⟨req.agentId, answer.sequence, answer.eventId⟩]
  agents : db'.agents = db.agents.update req.agentId
    (fun r => { r with lastSequence := answer.sequence }) fun _ => rfl

theorem sequenceOf_eq_ok {body : Json} {n : Int} (h : sequenceOf body = .ok n) :
    body.get? "sequence" = some (.int n) := by
  unfold sequenceOf at h
  split at h
  · cases h
    assumption
  · cases h
  · cases h

theorem contractChecked_eq_ok {cfg : Config} {event : Json} {v : ValidatedEvent}
    (h : contractChecked cfg event = .ok v) : validateEvent cfg.digest event = .ok v := by
  unfold contractChecked at h
  split at h
  · cases h
    assumption
  · cases h

theorem receiptFor_eq_some {db : Database} {agentId : String} {n : Int} {r : ReceiptRow}
    (h : receiptFor db agentId n = some r) :
    r ∈ db.receipts ∧ r.agentId = agentId ∧ r.sequence = n :=
  ⟨List.mem_of_find?_eq_some h, by simpa using List.find?_some h⟩

theorem receiptFor_eq_none {db : Database} {agentId : String} {n : Int}
    (h : receiptFor db agentId n = none) :
    ∀ r ∈ db.receipts, r.agentId = agentId → r.sequence ≠ n := by
  intro r hr ha hn
  have := List.find?_eq_none.mp h r hr
  simp [ha, hn] at this

theorem acceptNew_spec {cfg : Config} {req : Request} {row : AgentRow} {eventType : String}
    {n : Int} {db db' : Database} {answer : Accepted}
    (named : req.body.get? "sequence" = some (.int n)) (fresh : receiptFor db req.agentId n = none)
    (h : acceptNew cfg req row eventType n db = .ok (db', answer)) :
    NewlyAccepted req row db db' answer := by
  simp only [acceptNew, bind_eq_ok, require_eq_ok] at h
  obtain ⟨-, above, v, checked, -, -, -, -, -, unused, h⟩ := h
  simp only [pure, Except.pure, Except.ok.injEq, Prod.mk.injEq] at h
  obtain ⟨rfl, rfl⟩ := h
  have untouched : (req.body.set "ingest_time" (.str req.now)).get? "event_id" =
      req.body.get? "event_id" := Json.get?_set _ _ (by decide)
  obtain ⟨id, hid⟩ := validateEvent_eventId (contractChecked_eq_ok checked)
  have text : stringAt (req.body.set "ingest_time" (.str req.now)) "event_id" = id := by
    simp [stringAt, hid]
  refine ⟨rfl, ⟨named, ?_⟩, by simpa using above, receiptFor_eq_none fresh, ?_, rfl, rfl⟩
  · rw [text, ← untouched, hid]
  · intro r hr ha he
    have := List.all_eq_true.mp unused r hr
    simp [ha, he] at this

theorem submitTelemetry_cases {cfg : Config} {req : Request} {row : Option AgentRow}
    {db db' : Database} {answer : Accepted}
    (h : submitTelemetry cfg req row db = .ok (db', answer)) :
    Replayed req db db' answer ∨ ∃ r, row = some r ∧ NewlyAccepted req r db db' answer := by
  simp only [submitTelemetry, bind_eq_ok, require_eq_ok] at h
  obtain ⟨serial, -, -, -, r, allowed, eventType, -, -, -, n, hn, h⟩ := h
  have named := sequenceOf_eq_ok hn
  have hrow : row = some r := by
    simp only [authorise, bind_eq_ok, require_eq_ok, present_eq_ok] at allowed
    obtain ⟨r', hr', -, -, -, -, hr⟩ := allowed
    cases hr
    exact hr'
  split at h
  · rename_i receipt found
    left
    obtain ⟨hmem, ha, hs⟩ := receiptFor_eq_some found
    simp only [bind_eq_ok, require_eq_ok] at h
    obtain ⟨-, same, h⟩ := h
    simp only [pure, Except.pure, Except.ok.injEq, Prod.mk.injEq] at h
    obtain ⟨rfl, rfl⟩ := h
    refine ⟨rfl, ⟨named, Json.isText_iff.mp same⟩, rfl, ?_⟩
    rw [← ha, ← hs]
    exact hmem
  · rename_i fresh
    exact .inr ⟨r, hrow, acceptNew_spec named fresh h⟩

theorem submitTelemetry_authenticated {cfg : Config} {req : Request} {row : Option AgentRow}
    {db db' : Database} {answer : Accepted}
    (h : submitTelemetry cfg req row db = .ok (db', answer)) :
    ∃ serial, requireClientCertificateSerial cfg req = .ok serial := by
  simp only [submitTelemetry, bind_eq_ok] at h
  obtain ⟨serial, hs, -⟩ := h
  exact ⟨serial, hs⟩

def endpoint (cfg : Config) : Discipline String AgentRow Database Request Rejection Accepted where
  row db agentId := db.agents.find agentId
  lockKey req :=
    match requireClientCertificateSerial cfg req with
    | .ok _ => some req.agentId
    | .error _ => none
  exec req row db := submitTelemetry cfg req row db
  frame := by
    intro req row db db' answer h k apart
    obtain ⟨serial, hs⟩ := submitTelemetry_authenticated h
    rw [hs] at apart
    obtain replayed | ⟨r, -, accepted⟩ := submitTelemetry_cases h
    · rw [replayed.unchanged]
    · have hk : k ≠ req.agentId := fun same => apart (congrArg some same.symm)
      rw [accepted.agents, KeyedTable.find_update, if_neg hk]

/-- Sequences of one agent's requests that were answered `replay: false`. -/
def newlyAccepted (agentId : String) (log : List (Request × Except Rejection Accepted)) :
    List Int :=
  log.filterMap fun
    | (req, .ok answer) =>
      if !answer.replay && req.agentId = agentId then some answer.sequence else none
    | (_, .error _) => none

def lastSequenceOf (receipts : List ReceiptRow) (start : Int) : Int :=
  (receipts.getLast?.map ReceiptRow.sequence).getD start

structure Ledger (db₀ db : Database) (log : List (Request × Except Rejection Accepted)) : Prop where
  last : ∀ agentId row, db.agents.find agentId = some row → ∃ row₀,
    db₀.agents.find agentId = some row₀ ∧
      row.lastSequence = lastSequenceOf (receiptsOf db agentId) row₀.lastSequence
  increasing : ∀ agentId, ((receiptsOf db agentId).map ReceiptRow.sequence).Pairwise (· < ·)
  accepted : ∀ agentId,
    newlyAccepted agentId log = (receiptsOf db agentId).map ReceiptRow.sequence
  events : ∀ agentId, ((receiptsOf db agentId).map ReceiptRow.eventId).Nodup
  answered : ∀ req answer, (req, .ok answer) ∈ log →
    ⟨req.agentId, answer.sequence, answer.eventId⟩ ∈ db.receipts ∧
      Names req answer.sequence answer.eventId

theorem receiptsOf_append {db db' : Database} {receipt : ReceiptRow}
    (h : db'.receipts = db.receipts ++ [receipt]) (agentId : String) :
    receiptsOf db' agentId =
      receiptsOf db agentId ++ if receipt.agentId = agentId then [receipt] else [] := by
  unfold receiptsOf
  rw [h, List.filter_append]
  by_cases hr : receipt.agentId = agentId <;> simp [hr]

theorem le_lastSequenceOf {receipts : List ReceiptRow} (start : Int)
    (increasing : (receipts.map ReceiptRow.sequence).Pairwise (· < ·)) {r : ReceiptRow}
    (hr : r ∈ receipts) : r.sequence ≤ lastSequenceOf receipts start := by
  obtain rfl | ⟨front, last, rfl⟩ := List.eq_nil_or_concat' receipts
  · cases hr
  · simp only [lastSequenceOf, List.getLast?_append, List.getLast?_singleton, Option.some_or,
      Option.map_some, Option.getD_some]
    rcases List.mem_append.mp hr with h | h
    · rw [List.map_append, List.pairwise_append] at increasing
      exact (increasing.2.2 _ (List.mem_map_of_mem h) _ (by simp)).le
    · simp only [List.mem_singleton] at h
      rw [h]

theorem newlyAccepted_append (agentId : String) (log : List (Request × Except Rejection Accepted))
    (req : Request) (outcome : Except Rejection Accepted) :
    newlyAccepted agentId (log ++ [(req, outcome)]) =
      newlyAccepted agentId log ++ newlyAccepted agentId [(req, outcome)] :=
  List.filterMap_append

theorem ledger_raised {db₀ db : Database} {log : List (Request × Except Rejection Accepted)}
    (ledger : Ledger db₀ db log) (req : Request) (e : Rejection) :
    Ledger db₀ db (log ++ [(req, .error e)]) := by
  refine ⟨ledger.last, ledger.increasing, fun agentId => ?_, ledger.events, fun req' a h => ?_⟩
  · rw [newlyAccepted_append, ledger.accepted]
    simp [newlyAccepted]
  · simp only [List.mem_append, List.mem_singleton, Prod.mk.injEq, reduceCtorEq, and_false,
      or_false] at h
    exact ledger.answered req' a h

theorem ledger_replayed {db₀ db db' : Database}
    {log : List (Request × Except Rejection Accepted)} {req : Request} {answer : Accepted}
    (ledger : Ledger db₀ db log) (replayed : Replayed req db db' answer) :
    Ledger db₀ db' (log ++ [(req, .ok answer)]) := by
  rw [replayed.unchanged]
  refine ⟨ledger.last, ledger.increasing, fun agentId => ?_, ledger.events, fun req' a h => ?_⟩
  · rw [newlyAccepted_append, ledger.accepted]
    simp [newlyAccepted, replayed.replay]
  · rcases List.mem_append.mp h with old | new
    · exact ledger.answered req' a old
    · simp only [List.mem_singleton, Prod.mk.injEq, Except.ok.injEq] at new
      obtain ⟨rfl, rfl⟩ := new
      exact ⟨replayed.receipt, replayed.names⟩

theorem ledger_accepted {db₀ db db' : Database}
    {log : List (Request × Except Rejection Accepted)} {req : Request} {answer : Accepted}
    {row : AgentRow} (ledger : Ledger db₀ db log) (found : db.agents.find req.agentId = some row)
    (accepted : NewlyAccepted req row db db' answer) :
    Ledger db₀ db' (log ++ [(req, .ok answer)]) := by
  have grown := receiptsOf_append accepted.receipts
  obtain ⟨row₀, -, last⟩ := ledger.last _ _ found
  refine ⟨fun agentId r hr => ?_, fun agentId => ?_, fun agentId => ?_, fun agentId => ?_,
    fun req' a h => ?_⟩
  · rw [accepted.agents, KeyedTable.find_update] at hr
    by_cases same : agentId = req.agentId
    · subst same
      rw [if_pos rfl, found, Option.map_some, Option.some.injEq] at hr
      obtain ⟨row₁, h₁, -⟩ := ledger.last _ _ found
      refine ⟨row₁, h₁, ?_⟩
      rw [grown, if_pos rfl, ← hr]
      simp [lastSequenceOf]
    · rw [if_neg same] at hr
      rw [grown, if_neg (Ne.symm same), List.append_nil]
      exact ledger.last agentId r hr
  · rw [grown]
    split
    · rename_i same
      dsimp only at same
      subst same
      rw [List.map_append, List.pairwise_append]
      refine ⟨ledger.increasing _, by simp, fun n hn m hm => ?_⟩
      obtain ⟨r, hr, rfl⟩ := List.mem_map.mp hn
      simp only [List.map_cons, List.map_nil, List.mem_singleton] at hm
      have bound := le_lastSequenceOf row₀.lastSequence (ledger.increasing _) hr
      have above := accepted.above
      omega
    · rw [List.append_nil]
      exact ledger.increasing agentId
  · rw [newlyAccepted_append, ledger.accepted, grown, List.map_append]
    by_cases same : req.agentId = agentId <;> simp [newlyAccepted, accepted.replay, same]
  · rw [grown]
    split
    · rename_i same
      dsimp only at same
      subst same
      rw [List.map_append, List.nodup_append]
      refine ⟨ledger.events _, by simp, fun e he e' he' => ?_⟩
      obtain ⟨r, hr, rfl⟩ := List.mem_map.mp he
      simp only [List.map_cons, List.map_nil, List.mem_singleton] at he'
      subst he'
      obtain ⟨hmem, ha⟩ := mem_receiptsOf.mp hr
      exact accepted.newEvent r hmem ha
    · rw [List.append_nil]
      exact ledger.events agentId
  · rw [accepted.receipts]
    rcases List.mem_append.mp h with old | new
    · exact ⟨List.mem_append_left _ (ledger.answered req' a old).1,
        (ledger.answered req' a old).2⟩
    · simp only [List.mem_singleton, Prod.mk.injEq, Except.ok.injEq] at new
      obtain ⟨rfl, rfl⟩ := new
      exact ⟨by simp, accepted.names⟩

theorem locked_eq {cfg : Config} {req : Request} {db : Database} {row : AgentRow}
    (h : (endpoint cfg).locked req db = some row) : db.agents.find req.agentId = some row := by
  unfold Discipline.locked at h
  simp only [endpoint] at h
  split at h
  · exact h
  · cases h

theorem run_ledger (cfg : Config) (db₀ : Database) (es : List (Event Request)) :
    Ledger db₀ (run (endpoint cfg) { db₀ with receipts := [] } es).store
      (run (endpoint cfg) { db₀ with receipts := [] } es).log := by
  apply RowLocks.run_invariant (endpoint cfg)
  · exact ⟨fun _ row h => ⟨row, h, rfl⟩, fun _ => List.Pairwise.nil, fun _ => rfl,
      fun _ => List.nodup_nil, by simp⟩
  · intro db log req ledger
    cases hout : ((endpoint cfg).atomic req db).2 with
    | error e =>
      rw [atomic_raise _ hout]
      exact ledger_raised ledger req e
    | ok answer =>
      obtain replayed | ⟨row, hrow, accepted⟩ := submitTelemetry_cases (atomic_commit _ hout)
      · exact ledger_replayed ledger replayed
      · exact ledger_accepted ledger (locked_eq hrow) accepted

theorem atomic_written (cfg : Config) (req : Request) (db : Database) :
    ((endpoint cfg).atomic req db).1 = db ∨ ∃ row answer,
      (endpoint cfg).locked req db = some row ∧
      NewlyAccepted req row db ((endpoint cfg).atomic req db).1 answer := by
  cases hout : ((endpoint cfg).atomic req db).2 with
  | error e => exact .inl (atomic_raise _ hout)
  | ok answer =>
    obtain replayed | ⟨row, hrow, accepted⟩ := submitTelemetry_cases (atomic_commit _ hout)
    · exact .inl replayed.unchanged
    · exact .inr ⟨row, answer, hrow, accepted⟩

/-- One event of the endpoint appends at most one outcome; an outcome that is
a rejection or a replay comes with the database unchanged. -/
theorem step_unchanged {cfg : Config} {sys : System String AgentRow Database Request Rejection Accepted}
    (current : Current (endpoint cfg) sys) {e : Event Request} {req : Request}
    {outcome : Except Rejection Accepted}
    (grew : (step (endpoint cfg) sys e).log = sys.log ++ [(req, outcome)])
    (quiet : ∀ answer, outcome = .ok answer → answer.replay = true) :
    (step (endpoint cfg) sys e).store = sys.store := by
  obtain ⟨-, same⟩ | ⟨req', stored, logged⟩ := step_atomic _ current e
  · rw [same] at grew
    simp at grew
  · rw [logged] at grew
    simp only [List.append_cancel_left_eq, List.cons.injEq, Prod.mk.injEq, and_true] at grew
    obtain ⟨-, hout⟩ := grew
    rw [stored]
    cases outcome with
    | error e => exact atomic_raise _ hout
    | ok answer =>
      obtain replayed | ⟨row, -, accepted⟩ := submitTelemetry_cases (atomic_commit _ hout)
      · exact replayed.unchanged
      · have := quiet answer rfl
        rw [accepted.replay] at this
        cases this

/-- The receipt ledger, for every interleaving of requests of any agents from a
database that holds no receipts yet. -/
theorem telemetry_receipt_ledger (cfg : Config) (db₀ : Database) (es : List (Event Request)) :
    let sys := run (endpoint cfg) { db₀ with receipts := [] } es
    (∀ agentId row, sys.store.agents.find agentId = some row →
      (receiptsOf sys.store agentId = [] →
        ∃ row₀, db₀.agents.find agentId = some row₀ ∧ row.lastSequence = row₀.lastSequence) ∧
      (receiptsOf sys.store agentId ≠ [] →
        IsGreatest {n | ∃ r ∈ receiptsOf sys.store agentId, r.sequence = n} row.lastSequence)) ∧
    (∀ r ∈ sys.store.receipts, ∀ r' ∈ sys.store.receipts, r.agentId = r'.agentId →
      (r.sequence = r'.sequence ↔ r.eventId = r'.eventId)) ∧
    (∀ agentId, (newlyAccepted agentId sys.log).Pairwise (· < ·)) ∧
    (∀ req answer, (req, .ok answer) ∈ sys.log →
      ∃ r ∈ sys.store.receipts, r.agentId = req.agentId ∧ Names req r.sequence r.eventId) ∧
    (∀ e req outcome, (step (endpoint cfg) sys e).log = sys.log ++ [(req, outcome)] →
      (∀ answer, outcome = .ok answer → answer.replay = true) →
      (step (endpoint cfg) sys e).store = sys.store) := by
  intro sys
  have ledger : Ledger db₀ sys.store sys.log := run_ledger cfg db₀ es
  refine ⟨fun agentId row hrow => ?_, fun r hr r' hr' same => ?_, fun agentId => ?_,
    fun req answer h => ?_, fun e req outcome grew quiet => ?_⟩
  · obtain ⟨row₀, h₀, last⟩ := ledger.last agentId row hrow
    refine ⟨fun none => ⟨row₀, h₀, by simp [last, none, lastSequenceOf]⟩, fun some => ?_⟩
    constructor
    · refine ⟨(receiptsOf sys.store agentId).getLast some, List.getLast_mem some, ?_⟩
      rw [last, lastSequenceOf, List.getLast?_eq_some_getLast some]
      rfl
    · rintro n ⟨r, hr, rfl⟩
      rw [last]
      exact le_lastSequenceOf _ (ledger.increasing agentId) hr
  · have unique : ((receiptsOf sys.store r.agentId).map ReceiptRow.sequence).Nodup :=
      (ledger.increasing r.agentId).imp fun h => ne_of_lt h
    have here := mem_receiptsOf.mpr ⟨hr, rfl⟩
    have there := mem_receiptsOf.mpr ⟨hr', same.symm⟩
    constructor
    · intro h
      rw [List.inj_on_of_nodup_map unique here there h]
    · intro h
      rw [List.inj_on_of_nodup_map (ledger.events r.agentId) here there h]
  · rw [ledger.accepted]
    exact ledger.increasing agentId
  · obtain ⟨hr, names⟩ := ledger.answered req answer h
    exact ⟨_, hr, rfl, names⟩
  · exact step_unchanged (run_current (endpoint cfg) _ es) grew quiet

end Mirage.TelemetryIngestion
