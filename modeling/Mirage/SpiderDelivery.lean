import Mirage.SpiderService

/-! What every run of MirageSpider keeps, whatever the network does: events carry
increasing sequences, everything queued, in flight or acknowledged was built by the agent,
and the endpoint's receipts of the agent name events it built. -/

namespace Mirage.SpiderDelivery
open AgentDatabase EventEnvelope TelemetryIngestion SpiderService
open AgentQueue hiding step
open RowLocks hiding step Event

def sequenceAt (event : Json) : Int :=
  match event.get? "sequence" with
  | some (.int n) => n
  | _ => 0

def eventIdOf (event : Json) : String := stringAt event "event_id"

/-- The members of an event that the endpoint checks before it looks for a
receipt, as `build_event` fills them. -/
structure Built (d : Deployment) (event : Json) : Prop where
  object : isObject event = true
  sequence : event.get? "sequence" = some (.int (sequenceAt event))
  eventId : event.get? "event_id" = some (.str (eventIdOf event))
  sourceId : event.get? "source_id" = some (.str d.agentId)
  eventType : event.get? "event_type" = some (.str (stringAt event "event_type"))
  submittable : stringAt event "event_type" ∈ allowedTelemetryEventTypes

theorem spiderEvent_built (d : Deployment) (eventId now : String) (sequence : ℕ)
    {eventType : String} (payload : Json) (caseId sessionId : Option String)
    (submittable : eventType ∈ allowedTelemetryEventTypes) :
    Built d (spiderEvent d eventId now sequence eventType payload caseId sessionId) := by
  refine ⟨rfl, ?_, ?_, ?_, ?_, ?_⟩
  · simp [spiderEvent, sequenceAt]
  · simp [spiderEvent, eventIdOf, stringAt]
  · simp [spiderEvent]
  · simp [spiderEvent, stringAt]
  · simpa [spiderEvent, stringAt] using submittable

@[simp] theorem sequenceAt_spiderEvent (d : Deployment) (eventId now : String) (sequence : ℕ)
    (eventType : String) (payload : Json) (caseId sessionId : Option String) :
    sequenceAt (spiderEvent d eventId now sequence eventType payload caseId sessionId) = sequence := by
  simp [spiderEvent, sequenceAt]

theorem observationEvent_built (d : Deployment) (eventId now : String) (sequence : ℕ)
    (o : Observation) : Built d (observationEvent d eventId now sequence o) :=
  spiderEvent_built d eventId now sequence _ _ _ (by decide)

@[simp] theorem sequenceAt_observationEvent (d : Deployment) (eventId now : String) (sequence : ℕ)
    (o : Observation) : sequenceAt (observationEvent d eventId now sequence o) = sequence :=
  sequenceAt_spiderEvent ..

theorem directEvent_built (d : Deployment) (eventId now : String) (sequence : ℕ)
    (call : DirectCall) : Built d (directEvent d eventId now sequence call) := by
  cases call <;> exact spiderEvent_built d eventId now sequence _ _ _ (by decide)

@[simp] theorem sequenceAt_directEvent (d : Deployment) (eventId now : String) (sequence : ℕ)
    (call : DirectCall) : sequenceAt (directEvent d eventId now sequence call) = sequence := by
  cases call <;> exact sequenceAt_spiderEvent ..

structure Enrolled (d : Deployment) (db : AgentDatabase.Database) (row : AgentRow) : Prop where
  found : db.agents.find d.agentId = some row
  sameSerial : row.certificateSerial = d.certificateSerial
  active : row.status = .active
  admitted : isAgentActive db d.certificateSerial = true

theorem authenticated (d : Deployment) (event : Json) (c : Circumstance) :
    requireClientCertificateSerial d.ingestion (requestFor d event c) =
      .ok d.certificateSerial := by
  simp [requireClientCertificateSerial, requestFor, require, present, d.proxySecret,
    d.serialPresent, bind, Except.bind, pure, Except.pure]

theorem locked_requestFor (d : Deployment) (event : Json) (c : Circumstance)
    (db : AgentDatabase.Database) :
    (endpoint d.ingestion).locked (requestFor d event c) db = db.agents.find d.agentId := by
  unfold Discipline.locked
  simp only [endpoint, authenticated]
  rfl

/-- An event the agent built reaches the receipts; from there on its sequence
alone decides between a replay, a conflict and a new entry. -/
theorem submitTelemetry_built {d : Deployment} {event : Json} {row : AgentRow}
    {db : AgentDatabase.Database} (enrolled : Enrolled d db row) (built : Built d event)
    (c : Circumstance) :
    submitTelemetry d.ingestion (requestFor d event c) (some row) db =
      match receiptFor db d.agentId (sequenceAt event) with
      | some receipt =>
        if receipt.eventId = eventIdOf event then
          .ok (db, ⟨receipt.eventId, sequenceAt event, true⟩)
        else .error (.sequenceUsed (sequenceAt event))
      | none => acceptNew d.ingestion (requestFor d event c) row (stringAt event "event_type")
          (sequenceAt event) db := by
  have allowed : authorise db d.certificateSerial (some row) = .ok row := by
    simp [authorise, require, present, enrolled.sameSerial, enrolled.active, enrolled.admitted,
      bind, Except.bind, pure, Except.pure]
  have typed : eventTypeOf event = .ok (stringAt event "event_type") := by
    unfold eventTypeOf
    rw [built.eventType]
    simp [built.submittable]
  have source : Json.isText (event.get? "source_id") d.agentId = true :=
    Json.isText_iff.mpr built.sourceId
  have numbered : sequenceOf event = .ok (sequenceAt event) := by
    unfold sequenceOf
    rw [built.sequence]
  have named : ∀ id, Json.isText (event.get? "event_id") id = decide (eventIdOf event = id) := by
    intro id
    rw [built.eventId]
    rfl
  unfold submitTelemetry
  rw [authenticated]
  simp only [requestFor, built.object, allowed, typed, source, numbered, named, require_true, bind,
    Except.bind]
  cases receiptFor db d.agentId (sequenceAt event) with
  | none => rfl
  | some receipt =>
    by_cases same : receipt.eventId = eventIdOf event
    · simp [same, pure, Except.pure]
    · simp [same, Ne.symm same]

theorem isAgentActive_update (db db' : AgentDatabase.Database) (agentId serial : String) (n : Int)
    (agents : db'.agents = db.agents.update agentId
      (fun r => { r with lastSequence := n }) fun _ => rfl) :
    isAgentActive db' serial = isAgentActive db serial := by
  unfold isAgentActive
  rw [agents]
  simp only [KeyedTable.update, List.find?_map]
  have same : ((fun r : AgentRow => decide (r.certificateSerial = serial)) ∘ fun r =>
      if r.agentId = agentId then { r with lastSequence := n } else r) =
      fun r => decide (r.certificateSerial = serial) := by
    funext r
    by_cases h : r.agentId = agentId <;> simp [h]
  rw [same]
  cases db.agents.rows.find? fun r => decide (r.certificateSerial = serial) with
  | none => rfl
  | some r => by_cases h : r.agentId = agentId <;> simp [h]

structure Account (d : Deployment) (issued : List Json) (sequence : ℕ)
    (db : AgentDatabase.Database) : Prop where
  row : ∃ row, Enrolled d db row ∧ row.lastSequence ≤ sequence ∧
    ∀ r ∈ receiptsOf db d.agentId, r.sequence ≤ row.lastSequence
  increasing : ((receiptsOf db d.agentId).map ReceiptRow.sequence).Pairwise (· < ·)
  events : ((receiptsOf db d.agentId).map ReceiptRow.eventId).Nodup
  known : ∀ r ∈ receiptsOf db d.agentId, ∃ e ∈ issued,
    sequenceAt e = r.sequence ∧ eventIdOf e = r.eventId

theorem start_account (d : Deployment) : Account d [] 0 d.server := by
  have none := d.unused
  refine ⟨⟨d.row, ⟨d.found, d.sameSerial, d.active, d.admitted⟩, ?_, ?_⟩, ?_, ?_, ?_⟩
  · rw [d.lastSequence]
    rfl
  · simp [none]
  · simp [none]
  · simp [none]
  · simp [none]

theorem account_mono {d : Deployment} {issued issued' : List Json} {n n' : ℕ}
    {db : AgentDatabase.Database} (account : Account d issued n db)
    (more : ∀ e ∈ issued, e ∈ issued') (later : n ≤ n') : Account d issued' n' db := by
  obtain ⟨row, enrolled, below, covered⟩ := account.row
  refine ⟨⟨row, enrolled, ?_, covered⟩, account.increasing, account.events, fun r hr => ?_⟩
  · omega
  · obtain ⟨e, he, same⟩ := account.known r hr
    exact ⟨e, more e he, same⟩

theorem account_accepted {d : Deployment} {issued : List Json} {n : ℕ}
    {db db' : AgentDatabase.Database} {row : AgentRow} {event : Json} {c : Circumstance}
    {answer : Accepted} (account : Account d issued n db) (known : event ∈ issued)
    (built : Built d event) (bounded : sequenceAt event ≤ n)
    (found : db.agents.find d.agentId = some row)
    (accepted : NewlyAccepted (requestFor d event c) row db db' answer) :
    Account d issued n db' := by
  obtain ⟨row₀, enrolled, -, covered⟩ := account.row
  have same : row₀ = row := Option.some.inj (enrolled.found.symm.trans found)
  subst same
  have seq : sequenceAt event = answer.sequence := by
    have := accepted.names.1
    simp only [requestFor, built.sequence, Option.some.injEq, Json.int.injEq] at this
    exact this
  have id : eventIdOf event = answer.eventId := by
    have := accepted.names.2
    simp only [requestFor, built.eventId, Option.some.injEq, Json.str.injEq] at this
    exact this
  have above := accepted.above
  have grown : receiptsOf db' d.agentId = receiptsOf db d.agentId ++
      [⟨d.agentId, answer.sequence, answer.eventId⟩] := by
    rw [receiptsOf_append accepted.receipts]
    simp [requestFor]
  refine ⟨⟨{ row₀ with lastSequence := answer.sequence }, ⟨?_, enrolled.sameSerial,
    enrolled.active, ?_⟩, ?_, ?_⟩, ?_, ?_, ?_⟩
  · rw [accepted.agents, KeyedTable.find_update]
    simp [requestFor, enrolled.found]
  · rw [isAgentActive_update db db' _ _ _ accepted.agents]
    exact enrolled.admitted
  · dsimp only
    omega
  · intro r hr
    rw [grown, List.mem_append, List.mem_singleton] at hr
    rcases hr with old | rfl
    · have := covered r old
      dsimp only
      omega
    · exact le_refl _
  · rw [grown, List.map_append, List.pairwise_append]
    refine ⟨account.increasing, by simp, fun a ha b hb => ?_⟩
    obtain ⟨r, hr, rfl⟩ := List.mem_map.mp ha
    have := covered r hr
    simp only [List.map_cons, List.map_nil, List.mem_singleton] at hb
    omega
  · rw [grown, List.map_append, List.nodup_append]
    refine ⟨account.events, by simp, fun a ha b hb => ?_⟩
    obtain ⟨r, hr, rfl⟩ := List.mem_map.mp ha
    simp only [List.map_cons, List.map_nil, List.mem_singleton] at hb
    subst hb
    obtain ⟨hmem, agent⟩ := mem_receiptsOf.mp hr
    exact accepted.newEvent r hmem agent
  · intro r hr
    rw [grown, List.mem_append, List.mem_singleton] at hr
    rcases hr with old | rfl
    · exact account.known r old
    · exact ⟨event, known, seq, id⟩

theorem account_serve {d : Deployment} {issued : List Json} {n : ℕ}
    {db : AgentDatabase.Database} {event : Json} (account : Account d issued n db)
    (known : event ∈ issued) (built : Built d event) (bounded : sequenceAt event ≤ n)
    (c : Circumstance) :
    Account d issued n ((endpoint d.ingestion).atomic (requestFor d event c) db).1 := by
  obtain same | ⟨row, answer, hrow, accepted⟩ := atomic_written d.ingestion (requestFor d event c) db
  · rw [same]
    exact account
  · rw [locked_requestFor] at hrow
    exact account_accepted account known built bounded hrow accepted

theorem receipts_foreign {d : Deployment} (db : AgentDatabase.Database) {req : Request}
    (other : req.agentId ≠ d.agentId) :
    receiptsOf ((endpoint d.ingestion).atomic req db).1 d.agentId = receiptsOf db d.agentId := by
  obtain same | ⟨row, answer, -, accepted⟩ := atomic_written d.ingestion req db
  · rw [same]
  · rw [receiptsOf_append accepted.receipts, if_neg other, List.append_nil]

theorem account_foreign {d : Deployment} {issued : List Json} {n : ℕ}
    {db : AgentDatabase.Database} {req : Request} (account : Account d issued n db)
    (other : req.agentId ≠ d.agentId) :
    Account d issued n ((endpoint d.ingestion).atomic req db).1 := by
  have same := receipts_foreign db other
  obtain unchanged | ⟨row, answer, -, accepted⟩ := atomic_written d.ingestion req db
  · rw [unchanged]
    exact account
  · obtain ⟨row₀, enrolled, below, covered⟩ := account.row
    refine ⟨⟨row₀, ⟨?_, enrolled.sameSerial, enrolled.active, ?_⟩, below, ?_⟩, ?_, ?_, ?_⟩
    · rw [accepted.agents, KeyedTable.find_update, if_neg (Ne.symm other)]
      exact enrolled.found
    · rw [isAgentActive_update db _ _ _ _ accepted.agents]
      exact enrolled.admitted
    · rw [same]
      exact covered
    · rw [same]
      exact account.increasing
    · rw [same]
      exact account.events
    · rw [same]
      exact account.known

theorem mem_peekBatch {queue : AgentQueue.Database Json} {limit : ℕ} {p : ℕ × Json}
    (h : p ∈ queue.peekBatch limit) :
    ∃ r ∈ queue.rows, r.status = .pending ∧ p = (r.id, r.event) := by
  simp only [Database.peekBatch, List.mem_map] at h
  obtain ⟨r, hr, rfl⟩ := h
  obtain ⟨mem, pending⟩ := List.mem_filter.mp (List.mem_of_mem_take hr)
  exact ⟨r, mem, by simpa [Database.isPending] using pending, rfl⟩

def settledStatus : Outcome → Status → Status
  | .delivered, _ => .acknowledged
  | .submitFailed 400 _, _ => .deadLetter
  | _, status => status

/-- How an answer to row `rowId` leaves any row of the queue. -/
structure Settled (rowId : ℕ) (outcome : Outcome) (old new : QueueRow Json) : Prop where
  id : new.id = old.id
  event : new.event = old.event
  status : new.status = if old.id = rowId then settledStatus outcome old.status else old.status

theorem Settled.cases {rowId : ℕ} {outcome : Outcome} {old new : QueueRow Json}
    (settled : Settled rowId outcome old new) :
    new.status = old.status ∨ (old.id = rowId ∧
      ((outcome = .delivered ∧ new.status = .acknowledged) ∨
        ∃ detail, outcome = .submitFailed 400 detail ∧ new.status = .deadLetter)) := by
  have status := settled.status
  split at status
  · rename_i here
    unfold settledStatus at status
    split at status
    · exact .inr ⟨here, .inl ⟨rfl, status⟩⟩
    · rename_i detail
      exact .inr ⟨here, .inr ⟨detail, rfl, status⟩⟩
    · exact .inl status
  · exact .inl status

theorem Settled.pending {rowId : ℕ} {outcome : Outcome} {old new : QueueRow Json}
    (settled : Settled rowId outcome old new) (h : new.status = .pending) :
    old.status = .pending := by
  rcases settled.cases with same | ⟨-, ⟨-, acked⟩ | ⟨detail, -, dead⟩⟩
  · rw [← same]
    exact h
  · rw [acked] at h
    cases h
  · rw [dead] at h
    cases h

theorem change_settled {queue queue' : AgentQueue.Database Json} {rowId : ℕ} (outcome : Outcome)
    {f : QueueRow Json → QueueRow Json}
    (changed : queue'.rows = queue.rows.map fun r => if r.id ∈ [rowId] then f r else r)
    (keeps : ∀ r, (f r).id = r.id ∧ (f r).event = r.event)
    (status : ∀ r, (f r).status = settledStatus outcome r.status) :
    ∃ g, queue'.rows = queue.rows.map g ∧ ∀ r, Settled rowId outcome r (g r) := by
  refine ⟨_, changed, fun r => ?_⟩
  by_cases h : r.id = rowId
  · simpa [h] using (⟨(keeps r).1, (keeps r).2, by simp [h, status]⟩ : Settled rowId outcome r (f r))
  · simpa [h] using (⟨rfl, rfl, by simp [h]⟩ : Settled rowId outcome r r)

theorem flushRow_cases (queue : AgentQueue.Database Json) (f : Flush) (rowId : ℕ) (event : Json)
    (rest : List (ℕ × Json)) (outcome : Outcome) :
    let after := flushRow queue f rowId event rest outcome
    (outcome = .delivered ∧ after.1 = queue.ack [rowId] ∧ ∃ sent, after.2 =
        nextRow after.1 ⟨f.batchSize, rest, none, true, sent⟩) ∨
    (∃ detail error, outcome = .submitFailed 400 detail ∧
      after.1 = queue.deadLetter [rowId] error ∧
      after.2 = nextRow after.1 ⟨f.batchSize, rest, none, true, f.totalSent⟩) ∨
    (∀ status, settledStatus outcome status = status) ∧
      (after.1 = queue ∨ ∃ error, after.1 = (queue.recordAttemptFailure rowId error).1) ∧
      (after.2 = none ∨ after.2 = endOfBatch after.1 f) := by
  cases outcome with
  | delivered => exact .inl ⟨rfl, rfl, _, rfl⟩
  | submitFailed status detail =>
    by_cases permanent : status = 400
    · subst permanent
      exact .inr (.inl ⟨detail, _, rfl, rfl, rfl⟩)
    · refine .inr (.inr ⟨fun before => ?_, ?_⟩)
      · simp [settledStatus, permanent]
      · simp only [flushRow]
        split
        · rename_i queue' attempts h
          exact ⟨.inr ⟨_, congrArg Prod.fst h.symm⟩, .inr rfl⟩
        · rename_i queue' h
          exact ⟨.inr ⟨_, congrArg Prod.fst h.symm⟩, .inl rfl⟩
  | ackMismatch acknowledged =>
    refine .inr (.inr ⟨fun _ => rfl, ?_⟩)
    simp only [flushRow]
    split
    · rename_i queue' attempts h
      exact ⟨.inr ⟨_, congrArg Prod.fst h.symm⟩, .inr rfl⟩
    · rename_i queue' h
      exact ⟨.inr ⟨_, congrArg Prod.fst h.symm⟩, .inl rfl⟩
  | transport => exact .inr (.inr ⟨fun _ => rfl, .inl rfl, .inl rfl⟩)

theorem flushRow_rows (queue : AgentQueue.Database Json) (f : Flush) (rowId : ℕ) (event : Json)
    (rest : List (ℕ × Json)) (outcome : Outcome) :
    ∃ g, (flushRow queue f rowId event rest outcome).1.rows = queue.rows.map g ∧
      ∀ r, Settled rowId outcome r (g r) := by
  obtain ⟨rfl, acked, -⟩ | ⟨detail, error, rfl, dead, -⟩ | ⟨kept, same | ⟨error, failed⟩, -⟩ :=
    flushRow_cases queue f rowId event rest outcome
  · exact change_settled _ (congrArg Database.rows acked) (fun _ => ⟨rfl, rfl⟩) fun _ => rfl
  · exact change_settled _ (congrArg Database.rows dead) (fun _ => ⟨rfl, rfl⟩) fun _ => rfl
  · rw [same]
    exact ⟨id, by simp, fun r => ⟨rfl, rfl, by simp [kept]⟩⟩
  · exact change_settled outcome (congrArg Database.rows failed) (fun _ => ⟨rfl, rfl⟩)
      fun r => (kept r.status).symm

theorem flushRow_counters (queue : AgentQueue.Database Json) (f : Flush) (rowId : ℕ) (event : Json)
    (rest : List (ℕ × Json)) (outcome : Outcome) :
    (flushRow queue f rowId event rest outcome).1.sequence = queue.sequence ∧
      (flushRow queue f rowId event rest outcome).1.lastRowId = queue.lastRowId := by
  obtain ⟨-, after, -⟩ | ⟨detail, error, -, after, -⟩ | ⟨-, after | ⟨error, after⟩, -⟩ :=
    flushRow_cases queue f rowId event rest outcome
  all_goals
    rw [after]
    exact ⟨rfl, rfl⟩

theorem nextBatch_rest {queue : AgentQueue.Database Json} {limit sent : ℕ} {f : Flush}
    (h : nextBatch queue limit sent = some f) : f.rest = queue.peekBatch limit := by
  unfold nextBatch at h
  split at h
  · cases h
  · cases h
    rfl

theorem endOfBatch_rest {queue : AgentQueue.Database Json} {f f' : Flush}
    (h : endOfBatch queue f = some f') : ∃ limit, f'.rest = queue.peekBatch limit := by
  unfold endOfBatch at h
  split at h
  · exact ⟨_, nextBatch_rest h⟩
  · cases h

theorem nextRow_rest {queue : AgentQueue.Database Json} {f f' : Flush}
    (h : nextRow queue f = some f') :
    f'.rest = f.rest ∨ ∃ limit, f'.rest = queue.peekBatch limit := by
  unfold nextRow at h
  split at h
  · exact .inr (endOfBatch_rest h)
  · cases h
    exact .inl rfl

/-- The loop goes on with the rest of its batch after a row left `PENDING`,
or with a new batch. -/
theorem flushRow_rest {queue : AgentQueue.Database Json} {f f' : Flush} {rowId : ℕ} {event : Json}
    {rest : List (ℕ × Json)} {outcome : Outcome}
    (h : (flushRow queue f rowId event rest outcome).2 = some f') :
    (f'.rest = rest ∧ ∀ status, settledStatus outcome status ≠ .pending) ∨
      ∃ limit, f'.rest = (flushRow queue f rowId event rest outcome).1.peekBatch limit := by
  obtain ⟨rfl, -, sent, next⟩ | ⟨detail, error, rfl, -, next⟩ | ⟨-, -, stopped | next⟩ :=
    flushRow_cases queue f rowId event rest outcome
  · rw [next] at h
    rcases nextRow_rest h with same | fresh
    · exact .inl ⟨same, by simp [settledStatus]⟩
    · exact .inr fresh
  · rw [next] at h
    rcases nextRow_rest h with same | fresh
    · exact .inl ⟨same, by simp [settledStatus]⟩
    · exact .inr fresh
  · rw [stopped] at h
    cases h
  · rw [next] at h
    exact .inr (endOfBatch_rest h)

theorem flushRow_mem {queue : AgentQueue.Database Json} {f : Flush} {rowId : ℕ} {event : Json}
    {rest : List (ℕ × Json)} {outcome : Outcome} {r : QueueRow Json}
    (h : r ∈ (flushRow queue f rowId event rest outcome).1.rows) :
    ∃ old ∈ queue.rows, Settled rowId outcome old r := by
  obtain ⟨g, rows, settled⟩ := flushRow_rows queue f rowId event rest outcome
  rw [rows] at h
  obtain ⟨old, hold, rfl⟩ := List.mem_map.mp h
  exact ⟨old, hold, settled old⟩

theorem mem_replaceTask {flushes : List Flush} {task : ℕ} {next : Option Flush} {f : Flush}
    (h : f ∈ replaceTask flushes task next) : f ∈ flushes ∨ next = some f := by
  cases next with
  | none => exact .inl (List.mem_of_mem_eraseIdx h)
  | some f' =>
    rcases List.mem_or_eq_of_mem_set h with old | new
    · exact .inl old
    · exact .inr (congrArg some new.symm)

structure Sound (d : Deployment) (s : State) : Prop where
  built : ∀ e ∈ s.issued, Built d e
  increasing : (s.issued.map sequenceAt).Pairwise (· < ·)
  bounded : ∀ e ∈ s.issued, sequenceAt e ≤ s.queue.sequence
  recorded : ∀ p ∈ s.recorded, p.2 ∈ s.issued
  rows : ∀ r ∈ s.queue.rows, (r.id, r.event) ∈ s.recorded
  requests : ∀ p ∈ s.requests, p.2 ∈ s.issued
  direct : ∀ p ∈ s.direct, p.2 ∈ s.issued
  flushes : ∀ f ∈ s.flushes, ∀ p ∈ f.rest, p ∈ s.recorded
  account : Account d s.issued s.queue.sequence s.server

theorem issued_injective {d : Deployment} {s : State} (sound : Sound d s) {e e' : Json}
    (he : e ∈ s.issued) (he' : e' ∈ s.issued) (same : sequenceAt e = sequenceAt e') : e = e' := by
  have nodup : (s.issued.map sequenceAt).Nodup := sound.increasing.imp fun h => ne_of_lt h
  exact List.inj_on_of_nodup_map nodup he he' same

theorem start_sound (d : Deployment) : Sound d (start d) where
  built := by simp [start]
  increasing := by simp [start]
  bounded := by simp [start]
  recorded := by simp [start]
  rows := by simp [start, Database.fresh]
  requests := by simp [start]
  direct := by simp [start]
  flushes := by simp [start]
  account := start_account d

theorem issue_sound {d : Deployment} {s : State} (sound : Sound d s) {event : Json}
    (built : Built d event) (next : sequenceAt event = s.queue.sequence + 1) :
    Sound d (issue s event) where
  built e he := by
    rcases List.mem_append.mp he with old | new
    · exact sound.built e old
    · rw [List.mem_singleton.mp new]
      exact built
  increasing := by
    simp only [issue, List.map_append, List.pairwise_append]
    refine ⟨sound.increasing, by simp, fun a ha b hb => ?_⟩
    obtain ⟨e, he, rfl⟩ := List.mem_map.mp ha
    have := sound.bounded e he
    simp only [List.map_cons, List.map_nil, List.mem_singleton] at hb
    omega
  bounded e he := by
    simp only [issue, Database.nextSequence, List.mem_append, List.mem_singleton] at he ⊢
    rcases he with old | rfl
    · have := sound.bounded e old
      omega
    · omega
  recorded p hp := List.mem_append_left _ (sound.recorded p hp)
  rows := sound.rows
  requests p hp := List.mem_append_left _ (sound.requests p hp)
  direct p hp := List.mem_append_left _ (sound.direct p hp)
  flushes := sound.flushes
  account := account_mono sound.account (fun e he => List.mem_append_left _ he)
    (Nat.le_succ _)

theorem enqueued_cases (d : Deployment) (s : State) (event : Json) (now : String) :
    enqueued d s event now = s ∨ (s.queue.pendingCount < d.maxQueueSize ∧
      enqueued d s event now = { s with
        queue := s.queue.insert event now
        recorded := s.recorded ++ [(s.queue.lastRowId + 1, event)] }) := by
  unfold enqueued Database.enqueue
  split
  · rename_i queue rowId h
    split at h
    · cases h
    · rename_i room
      simp only [Except.ok.injEq, Prod.mk.injEq] at h
      obtain ⟨rfl, rfl⟩ := h
      exact .inr ⟨by omega, rfl⟩
  · exact .inl rfl

theorem enqueued_sound {d : Deployment} {s : State} (sound : Sound d s) {event : Json}
    (known : event ∈ s.issued) (now : String) : Sound d (enqueued d s event now) := by
  obtain same | ⟨-, stored⟩ := enqueued_cases d s event now
  · rw [same]
    exact sound
  · rw [stored]
    refine ⟨sound.built, sound.increasing, sound.bounded, fun p hp => ?_, fun r hr => ?_,
      sound.requests, sound.direct, fun f hf p hp => ?_, sound.account⟩
    · rcases List.mem_append.mp hp with old | new
      · exact sound.recorded p old
      · rw [List.mem_singleton.mp new]
        exact known
    · rcases List.mem_append.mp hr with old | new
      · exact List.mem_append_left _ (sound.rows r old)
      · rw [List.mem_singleton.mp new]
        exact List.mem_append_right _ (List.mem_singleton_self _)
    · exact List.mem_append_left _ (sound.flushes f hf p hp)

theorem batch_recorded {d : Deployment} {s : State} (sound : Sound d s) {limit : ℕ}
    {p : ℕ × Json} (h : p ∈ s.queue.peekBatch limit) : p ∈ s.recorded := by
  obtain ⟨r, hr, -, rfl⟩ := mem_peekBatch h
  exact sound.rows r hr

theorem receive_sound {d : Deployment} {s : State} (sound : Sound d s) {task : ℕ} {f : Flush}
    {rowId : ℕ} {event : Json} {rest : List (ℕ × Json)} (running : f ∈ s.flushes)
    (waiting : f.rest = (rowId, event) :: rest) (outcome : Outcome) (answers : List (ℕ × ℕ)) :
    Sound d { s with
      queue := (flushRow s.queue f rowId event rest outcome).1
      flushes := replaceTask s.flushes task (flushRow s.queue f rowId event rest outcome).2
      answers := answers } := by
  obtain ⟨sequence, -⟩ := flushRow_counters s.queue f rowId event rest outcome
  have rows : ∀ r ∈ (flushRow s.queue f rowId event rest outcome).1.rows,
      (r.id, r.event) ∈ s.recorded := by
    intro r hr
    obtain ⟨old, hold, settled⟩ := flushRow_mem hr
    rw [settled.id, settled.event]
    exact sound.rows old hold
  refine ⟨sound.built, sound.increasing, fun e he => ?_, sound.recorded, rows, sound.requests,
    sound.direct, fun f' hf' p hp => ?_, ?_⟩
  · rw [sequence]
    exact sound.bounded e he
  · rcases mem_replaceTask hf' with old | new
    · exact sound.flushes f' old p hp
    · rcases flushRow_rest new with ⟨same, -⟩ | ⟨limit, fresh⟩
      · rw [same] at hp
        exact sound.flushes f running p (waiting ▸ List.mem_cons_of_mem _ hp)
      · rw [fresh] at hp
        obtain ⟨r, hr, -, rfl⟩ := mem_peekBatch hp
        exact rows r hr
  · rw [sequence]
    exact sound.account

theorem step_sound (d : Deployment) (s : State) (e : Event) (sound : Sound d s) :
    Sound d (step d s e) := by
  cases e with
  | observe o eventId now =>
    refine enqueued_sound (issue_sound sound (observationEvent_built ..) ?_) ?_ now
    · simp
    · exact List.mem_append_right _ (List.mem_singleton_self _)
  | observeInterrupted =>
    refine ⟨sound.built, sound.increasing, fun e he => ?_, sound.recorded, sound.rows,
      sound.requests, by simp [step], by simp [step], ?_⟩
    · have := sound.bounded e he
      simp only [step, Database.nextSequence]
      omega
    · exact account_mono sound.account (fun _ he => he) (Nat.le_succ _)
  | startDirect call eventId now =>
    have issued := issue_sound sound
      (directEvent_built d eventId now (s.queue.sequence + 1) call) (by simp)
    have here : directEvent d eventId now (s.queue.sequence + 1) call ∈
        (issue s (directEvent d eventId now (s.queue.sequence + 1) call)).issued :=
      List.mem_append_right _ (List.mem_singleton_self _)
    refine ⟨issued.built, issued.increasing, issued.bounded, issued.recorded, issued.rows,
      fun p hp => ?_, fun p hp => ?_, issued.flushes, issued.account⟩
    · rcases List.mem_append.mp hp with old | new
      · exact issued.requests p old
      · rw [List.mem_singleton.mp new]
        exact here
    · rcases List.mem_append.mp hp with old | new
      · exact issued.direct p old
      · rw [List.mem_singleton.mp new]
        exact here
  | receiveDirect task arrival now =>
    simp only [step]
    split
    · exact sound
    · rename_i n event found
      have known := sound.direct _ (List.mem_of_getElem? found)
      have ended : Sound d { s with direct := s.direct.eraseIdx task } :=
        ⟨sound.built, sound.increasing, sound.bounded, sound.recorded, sound.rows, sound.requests,
          fun p hp => sound.direct p (List.mem_of_mem_eraseIdx hp), sound.flushes, sound.account⟩
      split
      · exact sound
      · exact ended
      · exact enqueued_sound ended known now
  | startFlush batchSize =>
    refine ⟨sound.built, sound.increasing, sound.bounded, sound.recorded, sound.rows,
      sound.requests, sound.direct, fun f hf p hp => ?_, sound.account⟩
    rcases List.mem_append.mp hf with old | new
    · exact sound.flushes f old p hp
    · rw [nextBatch_rest (Option.mem_toList.mp new)] at hp
      exact batch_recorded sound hp
  | send task =>
    simp only [step]
    split
    · rename_i batchSize rowId event rest progressed totalSent found
      have mine := sound.flushes _ (List.mem_of_getElem? found)
      refine ⟨sound.built, sound.increasing, sound.bounded, sound.recorded, sound.rows,
        fun p hp => ?_, sound.direct, fun f hf p hp => ?_, sound.account⟩
      · rcases List.mem_append.mp hp with old | new
        · exact sound.requests p old
        · rw [List.mem_singleton.mp new]
          exact sound.recorded (rowId, event) (mine _ List.mem_cons_self)
      · rcases List.mem_or_eq_of_mem_set hf with old | new
        · exact sound.flushes f old p hp
        · subst new
          exact mine p hp
    · exact sound
  | receive task arrival =>
    simp only [step]
    split
    · rename_i batchSize rowId event rest n progressed totalSent found
      split
      · exact sound
      · exact receive_sound sound (List.mem_of_getElem? found) rfl _ _
    · exact sound
  | vacuum =>
    exact ⟨sound.built, sound.increasing, sound.bounded, sound.recorded,
      fun r hr => sound.rows r (List.mem_filter.mp hr).1, sound.requests, sound.direct,
      sound.flushes, sound.account⟩
  | serve request c =>
    simp only [step]
    split
    · exact sound
    · rename_i n event found
      have known := sound.requests _ (List.mem_of_getElem? found)
      exact ⟨sound.built, sound.increasing, sound.bounded, sound.recorded, sound.rows,
        fun p hp => sound.requests p (List.mem_of_mem_eraseIdx hp), sound.direct, sound.flushes,
        account_serve sound.account known (sound.built _ known) (sound.bounded _ known) c⟩
  | foreign req =>
    simp only [step]
    split
    · exact sound
    · rename_i other
      exact ⟨sound.built, sound.increasing, sound.bounded, sound.recorded, sound.rows,
        sound.requests, sound.direct, sound.flushes, account_foreign sound.account other⟩
  | crash =>
    exact ⟨sound.built, sound.increasing, sound.bounded, sound.recorded, sound.rows,
      sound.requests, by simp [step], by simp [step], sound.account⟩

end Mirage.SpiderDelivery
