import Mirage.SpiderDelivery

/-! `record_tamper` and `submit_fingerprint_snapshot` draw their sequence from the queue's
counter and bypass the queue. -/

namespace Mirage.DirectOvertaking
open AgentDatabase EventEnvelope TelemetryIngestion SpiderService SpiderDelivery
open AgentQueue hiding step
open RowLocks hiding step Event

def lastSequence (d : Deployment) (db : AgentDatabase.Database) : Int :=
  ((db.agents.find d.agentId).map AgentRow.lastSequence).getD 0

def hasReceipt (d : Deployment) (db : AgentDatabase.Database) (event : Json) : Bool :=
  (⟨d.agentId, sequenceAt event, eventIdOf event⟩ : ReceiptRow) ∈ db.receipts

def deliverable (d : Deployment) (db : AgentDatabase.Database) (event : Json) : Bool :=
  lastSequence d db < sequenceAt event || hasReceipt d db event

def answer (d : Deployment) (db : AgentDatabase.Database) (event : Json) (c : Circumstance) :
    Except Rejection Accepted :=
  ((endpoint d.ingestion).atomic (requestFor d event c) db).2

/-- No queued event is stuck: it can be delivered, a lost acknowledgement is
repeated, and the endpoint never answers 409. -/
def Unwedged (d : Deployment) (s : State) : Prop :=
  ∀ row ∈ s.queue.rows, row.status = .pending →
    deliverable d s.server row.event = true ∧
    (hasReceipt d s.server row.event = true → ∀ c, answer d s.server row.event c =
      .ok ⟨eventIdOf row.event, sequenceAt row.event, true⟩) ∧
    ∀ c rejection, answer d s.server row.event c = .error rejection → rejection.status ≠ 409

def acceptable (d : Deployment) (db : AgentDatabase.Database) (event : Json) (c : Circumstance) :
    Bool :=
  lastSequence d db < sequenceAt event && sequenceAt event < 2 ^ 63 &&
    (validateEvent d.ingestion.digest (event.set "ingest_time" (.str c.now))).isOk &&
    c.published && c.stored &&
    db.receipts.all fun r => !(r.agentId = d.agentId && r.eventId = eventIdOf event)

/-- The steps that leave every queued event deliverable. -/
def Admitted (d : Deployment) (s : State) : Event → Prop
  | .serve request c => ∀ n event, s.requests[request]? = some (n, event) →
      acceptable d s.server event c = true → ∀ row ∈ s.queue.rows, row.status = .pending →
        sequenceAt row.event < sequenceAt event → hasReceipt d s.server row.event = true
  | .receiveDirect task arrival _ => ∀ n event outcome, s.direct[task]? = some (n, event) →
      arrives s n event arrival = some outcome → outcome ≠ .delivered →
        s.queue.pendingCount < d.maxQueueSize → deliverable d s.server event = true
  | _ => True

theorem lastSequence_eq {d : Deployment} {db : AgentDatabase.Database} {row : AgentRow}
    (enrolled : Enrolled d db row) : lastSequence d db = row.lastSequence := by
  simp [lastSequence, enrolled.found]

theorem mem_receiptFor {d : Deployment} {s : State} (sound : Sound d s) {event : Json}
    (known : event ∈ s.issued) {r : ReceiptRow}
    (h : receiptFor s.server d.agentId (sequenceAt event) = some r) :
    r = ⟨d.agentId, sequenceAt event, eventIdOf event⟩ ∧ hasReceipt d s.server event = true := by
  obtain ⟨mem, agent, sequence⟩ := receiptFor_eq_some h
  obtain ⟨e, he, same, id⟩ := sound.account.known r (mem_receiptsOf.mpr ⟨mem, agent⟩)
  have : e = event := issued_injective sound he known (same.trans sequence)
  subst this
  have whole : r = ⟨d.agentId, sequenceAt e, eventIdOf e⟩ := by
    rw [← agent, id, same]
  refine ⟨whole, ?_⟩
  simp only [hasReceipt, decide_eq_true_eq]
  rw [← whole]
  exact mem

theorem receiptFor_none {d : Deployment} {db : AgentDatabase.Database} {event : Json}
    (h : receiptFor db d.agentId (sequenceAt event) = none) : hasReceipt d db event = false := by
  simp only [hasReceipt, decide_eq_false_iff_not]
  intro mem
  exact receiptFor_eq_none h _ mem rfl rfl

/-- An event the agent built is answered as a replay where it has a receipt,
else by the branch for new sequences. -/
theorem answer_eq {d : Deployment} {s : State} (sound : Sound d s) {row : AgentRow}
    (enrolled : Enrolled d s.server row) {event : Json} (known : event ∈ s.issued)
    (c : Circumstance) :
    (endpoint d.ingestion).exec (requestFor d event c)
        ((endpoint d.ingestion).locked (requestFor d event c) s.server) s.server =
      if hasReceipt d s.server event = true then
        .ok (s.server, ⟨eventIdOf event, sequenceAt event, true⟩)
      else acceptNew d.ingestion (requestFor d event c) row (stringAt event "event_type")
        (sequenceAt event) s.server := by
  rw [locked_requestFor, enrolled.found]
  refine (submitTelemetry_built enrolled (sound.built event known) c).trans ?_
  cases found : receiptFor s.server d.agentId (sequenceAt event) with
  | none => simp [receiptFor_none found]
  | some r =>
    obtain ⟨rfl, receipt⟩ := mem_receiptFor sound known found
    simp [receipt]

theorem acceptNew_status {cfg : Config} {req : Request} {row : AgentRow} {eventType : String}
    {n : Int} {db : AgentDatabase.Database} {rejection : Rejection}
    (above : row.lastSequence < n)
    (h : acceptNew cfg req row eventType n db = .error rejection) : rejection.status ≠ 409 := by
  simp only [acceptNew, bind_eq_error, require_eq_error, decide_eq_false_iff_not] at h
  rcases h with ⟨below, -⟩ | ⟨-, -, h⟩
  · exact absurd above below
  rcases h with invalid | ⟨v, -, h⟩
  · unfold contractChecked at invalid
    split at invalid
    · cases invalid
    · cases invalid
      simp [Rejection.status]
  rcases h with ⟨-, rfl⟩ | ⟨-, -, ⟨-, rfl⟩ | ⟨-, -, ⟨-, rfl⟩ | ⟨-, -, h⟩⟩⟩
  · simp [Rejection.status]
  · simp [Rejection.status]
  · simp [Rejection.status]
  · cases h

theorem answer_status {d : Deployment} {s : State} (sound : Sound d s) {event : Json}
    (known : event ∈ s.issued) (open' : deliverable d s.server event = true) {c : Circumstance}
    {rejection : Rejection} (h : answer d s.server event c = .error rejection) :
    rejection.status ≠ 409 := by
  obtain ⟨row, enrolled, -, -⟩ := sound.account.row
  unfold answer Discipline.atomic at h
  rw [answer_eq sound enrolled known c] at h
  by_cases receipt : hasReceipt d s.server event = true
  · rw [if_pos receipt] at h
    cases h
  · rw [if_neg receipt] at h
    have above : row.lastSequence < sequenceAt event := by
      simpa [deliverable, receipt, lastSequence_eq enrolled] using open'
    split at h
    · cases h
    · rename_i e failed
      cases h
      exact acceptNew_status above failed

theorem answer_replay {d : Deployment} {s : State} (sound : Sound d s) {event : Json}
    (known : event ∈ s.issued) (receipt : hasReceipt d s.server event = true) (c : Circumstance) :
    answer d s.server event c = .ok ⟨eventIdOf event, sequenceAt event, true⟩ := by
  obtain ⟨row, enrolled, -, -⟩ := sound.account.row
  unfold answer Discipline.atomic
  rw [answer_eq sound enrolled known c, if_pos receipt]

theorem unwedged_iff {d : Deployment} {s : State} (sound : Sound d s) :
    Unwedged d s ↔ ∀ row ∈ s.queue.rows, row.status = .pending →
      deliverable d s.server row.event = true := by
  constructor
  · exact fun h row hrow pending => (h row hrow pending).1
  · intro h row hrow pending
    have known := sound.recorded _ (sound.rows row hrow)
    have here := h row hrow pending
    exact ⟨here, fun receipt c => answer_replay sound known receipt c,
      fun c rejection refused => answer_status sound known here refused⟩

theorem contractChecked_isOk (cfg : Config) (event : Json) :
    (∃ v, contractChecked cfg event = .ok v) ↔ (validateEvent cfg.digest event).isOk = true := by
  unfold contractChecked
  cases validateEvent cfg.digest event <;> simp [Except.isOk, Except.toBool]

theorem acceptNew_isOk {d : Deployment} {db : AgentDatabase.Database} {row : AgentRow}
    (enrolled : Enrolled d db row) (event : Json) (c : Circumstance) (eventType : String) :
    (∃ result, acceptNew d.ingestion (requestFor d event c) row eventType (sequenceAt event) db =
      .ok result) ↔ acceptable d db event c = true := by
  have untouched : stringAt (event.set "ingest_time" (.str c.now)) "event_id" = eventIdOf event := by
    rw [eventIdOf, stringAt, stringAt, Json.get?_set _ _ (by decide)]
  simp only [acceptNew, bind_eq_ok, require_eq_ok, acceptable, Bool.and_eq_true, requestFor,
    lastSequence_eq enrolled, untouched, ← contractChecked_isOk]
  constructor
  · rintro ⟨result, -, above, v, valid, -, ⟨published, stored⟩, -, within, -, unused, -⟩
    exact ⟨⟨⟨⟨⟨above, within⟩, v, valid⟩, published⟩, stored⟩, unused⟩
  · rintro ⟨⟨⟨⟨⟨above, within⟩, v, valid⟩, published⟩, stored⟩, unused⟩
    exact ⟨_, (), above, v, valid, (), ⟨published, stored⟩, (), within, (), unused, rfl⟩

theorem serve_cases {d : Deployment} {s : State} (sound : Sound d s) {event : Json}
    (known : event ∈ s.issued) (c : Circumstance) :
    let after := ((endpoint d.ingestion).atomic (requestFor d event c) s.server).1
    (after = s.server ∧ acceptable d s.server event c = false) ∨
    (acceptable d s.server event c = true ∧ lastSequence d after = sequenceAt event ∧
      after.receipts = s.server.receipts ++ [⟨d.agentId, sequenceAt event, eventIdOf event⟩]) := by
  intro after
  obtain ⟨row, enrolled, -, covered⟩ := sound.account.row
  have ran := answer_eq sound enrolled known c
  by_cases receipt : hasReceipt d s.server event = true
  · left
    rw [if_pos receipt] at ran
    refine ⟨by simp only [after, Discipline.atomic, ran], ?_⟩
    have below := covered _ (mem_receiptsOf.mpr ⟨by simpa [hasReceipt] using receipt, rfl⟩)
    have : ¬ lastSequence d s.server < sequenceAt event := by
      rw [lastSequence_eq enrolled]
      dsimp only at below
      omega
    simp [acceptable, this]
  · rw [if_neg receipt] at ran
    cases new : acceptNew d.ingestion (requestFor d event c) row (stringAt event "event_type")
        (sequenceAt event) s.server with
    | error e =>
      left
      refine ⟨by simp only [after, Discipline.atomic, ran, new], ?_⟩
      by_contra accepted
      obtain ⟨result, ok⟩ := (acceptNew_isOk enrolled event c _).mpr (by simpa using accepted)
      rw [new] at ok
      cases ok
    | ok result =>
      right
      refine ⟨(acceptNew_isOk enrolled event c _).mp ⟨result, new⟩, ?_⟩
      obtain ⟨db, answer⟩ := result
      have built := sound.built event known
      have fresh : receiptFor s.server d.agentId (sequenceAt event) = none := by
        cases found : receiptFor s.server d.agentId (sequenceAt event) with
        | none => rfl
        | some r => exact absurd (mem_receiptFor sound known found).2 receipt
      have named : (requestFor d event c).body.get? "sequence" = some (.int (sequenceAt event)) :=
        built.sequence
      have accepted := acceptNew_spec named fresh new
      have here : after = db := by simp only [after, Discipline.atomic, ran, new]
      obtain ⟨seq, id⟩ := accepted.names
      simp only [requestFor, built.sequence, built.eventId, Option.some.injEq, Json.int.injEq,
        Json.str.injEq] at seq id
      rw [here]
      refine ⟨?_, ?_⟩
      · simp [lastSequence, accepted.agents, KeyedTable.find_update, requestFor, enrolled.found, seq]
      · rw [accepted.receipts, seq, id]
        rfl

def AllDeliverable (d : Deployment) (s : State) : Prop :=
  ∀ row ∈ s.queue.rows, row.status = .pending → deliverable d s.server row.event = true

/-- Where no row becomes `PENDING` and the endpoint forgets nothing, deliverable
rows stay deliverable. -/
theorem allDeliverable_mono {d : Deployment} {s s' : State} (before : AllDeliverable d s)
    (rows : ∀ row ∈ s'.queue.rows, row.status = .pending →
      ∃ old ∈ s.queue.rows, old.status = .pending ∧ old.event = row.event)
    (last : lastSequence d s'.server = lastSequence d s.server)
    (receipts : ∀ r ∈ s.server.receipts, r ∈ s'.server.receipts) : AllDeliverable d s' := by
  intro row hrow pending
  obtain ⟨old, hold, oldPending, same⟩ := rows row hrow pending
  have here := before old hold oldPending
  rw [same] at here
  simp only [deliverable, hasReceipt, Bool.or_eq_true, decide_eq_true_eq, last] at here ⊢
  rcases here with above | receipt
  · exact .inl above
  · exact .inr (receipts _ receipt)

theorem enqueued_deliverable {d : Deployment} {s : State} (before : AllDeliverable d s)
    (event : Json) (now : String) :
    AllDeliverable d (enqueued d s event now) ↔
      (s.queue.pendingCount < d.maxQueueSize → deliverable d s.server event = true) := by
  by_cases room : s.queue.pendingCount < d.maxQueueSize
  · have stored : enqueued d s event now = { s with
        queue := s.queue.insert event now
        recorded := s.recorded ++ [(s.queue.lastRowId + 1, event)] } := by
      simp only [enqueued, Database.enqueue, if_neg (Nat.not_le.mpr room)]
    rw [stored]
    constructor
    · intro after _
      exact after (s.queue.newRow event now)
        (List.mem_append_right _ (List.mem_singleton_self _)) rfl
    · intro here row hrow pending
      rcases List.mem_append.mp hrow with old | new
      · exact before row old pending
      · rw [List.mem_singleton.mp new]
        exact here room
  · have full : enqueued d s event now = s := by
      simp only [enqueued, Database.enqueue, if_pos (Nat.not_lt.mp room)]
    rw [full]
    simp [room, before]

theorem lastSequence_foreign {d : Deployment} {db : AgentDatabase.Database} {req : Request}
    (other : req.agentId ≠ d.agentId) :
    lastSequence d ((endpoint d.ingestion).atomic req db).1 = lastSequence d db ∧
      ∀ r ∈ db.receipts, r ∈ ((endpoint d.ingestion).atomic req db).1.receipts := by
  obtain same | ⟨row, answer, -, accepted⟩ := atomic_written d.ingestion req db
  · rw [same]
    exact ⟨rfl, fun _ h => h⟩
  · refine ⟨?_, fun r hr => ?_⟩
    · simp [lastSequence, accepted.agents, KeyedTable.find_update, Ne.symm other]
    · rw [accepted.receipts]
      exact List.mem_append_left _ hr

/-- A new receipt keeps every queued event deliverable exactly when it
overtakes none of them. -/
theorem serve_deliverable {d : Deployment} {s : State} (sound : Sound d s) {event : Json}
    (known : event ∈ s.issued) {db : AgentDatabase.Database}
    (last : lastSequence d db = sequenceAt event)
    (receipts : db.receipts =
      s.server.receipts ++ [⟨d.agentId, sequenceAt event, eventIdOf event⟩]) :
    (∀ row ∈ s.queue.rows, row.status = .pending → deliverable d db row.event = true) ↔
      ∀ row ∈ s.queue.rows, row.status = .pending →
        sequenceAt row.event < sequenceAt event → hasReceipt d s.server row.event = true := by
  have after : ∀ e, deliverable d db e = true ↔ sequenceAt event < sequenceAt e ∨
      hasReceipt d s.server e = true ∨
      (sequenceAt e = sequenceAt event ∧ eventIdOf e = eventIdOf event) := by
    intro e
    simp [deliverable, hasReceipt, last, receipts]
  simp only [after]
  constructor
  · intro h row hrow pending less
    rcases h row hrow pending with greater | receipt | ⟨same, -⟩
    · omega
    · exact receipt
    · omega
  · intro h row hrow pending
    have mine := sound.recorded _ (sound.rows row hrow)
    rcases lt_trichotomy (sequenceAt row.event) (sequenceAt event) with less | same | greater
    · exact .inr (.inl (h row hrow pending less))
    · have equal := issued_injective sound mine known same
      dsimp only at equal
      exact .inr (.inr ⟨same, by rw [equal]⟩)
    · exact .inl greater

theorem admitted_serve {d : Deployment} {s : State} {request n : ℕ} {event : Json}
    (found : s.requests[request]? = some (n, event)) (c : Circumstance) :
    Admitted d s (.serve request c) ↔ (acceptable d s.server event c = true →
      ∀ row ∈ s.queue.rows, row.status = .pending →
        sequenceAt row.event < sequenceAt event → hasReceipt d s.server row.event = true) := by
  constructor
  · exact fun h => h n event found
  · intro h n' event' found'
    rw [found] at found'
    cases found'
    exact h

theorem admitted_receiveDirect {d : Deployment} {s : State} {task n : ℕ} {event : Json}
    {arrival : Arrival} {outcome : Outcome} (found : s.direct[task]? = some (n, event))
    (arrived : arrives s n event arrival = some outcome) (failed : outcome ≠ .delivered)
    (now : String) : Admitted d s (.receiveDirect task arrival now) ↔
      (s.queue.pendingCount < d.maxQueueSize → deliverable d s.server event = true) := by
  constructor
  · exact fun h => h n event outcome found arrived failed
  · intro h n' event' outcome' found' arrived' _
    rw [found] at found'
    cases found'
    exact h

theorem receiveDirect_deliverable {d : Deployment} {s : State} (task : ℕ) (arrival : Arrival)
    (now : String) (before : AllDeliverable d s) :
    AllDeliverable d (step d s (.receiveDirect task arrival now)) ↔
      Admitted d s (.receiveDirect task arrival now) := by
  simp only [step]
  cases found : s.direct[task]? with
  | none =>
    refine ⟨fun _ n event outcome found' => ?_, fun _ => before⟩
    rw [found] at found'
    cases found'
  | some p =>
    obtain ⟨n, event⟩ := p
    dsimp only
    cases arrived : arrives s n event arrival with
    | none =>
      refine ⟨fun _ n' event' outcome found' arrived' => ?_, fun _ => before⟩
      rw [found] at found'
      cases found'
      rw [arrived] at arrived'
      cases arrived'
    | some outcome =>
      by_cases delivered : outcome = .delivered
      · subst delivered
        refine ⟨fun _ n' event' outcome found' arrived' failed => ?_, fun _ => before⟩
        rw [found] at found'
        cases found'
        rw [arrived] at arrived'
        exact absurd (Option.some.inj arrived').symm failed
      · rw [admitted_receiveDirect found arrived delivered now]
        have ended : AllDeliverable d { s with direct := s.direct.eraseIdx task } := before
        have stored := enqueued_deliverable ended event now
        cases outcome with
        | delivered => exact absurd rfl delivered
        | _ => exact stored

theorem step_deliverable {d : Deployment} {s : State} (e : Event) (sound : Sound d s)
    (before : AllDeliverable d s) : AllDeliverable d (step d s e) ↔ Admitted d s e := by
  cases e with
  | serve request c =>
    simp only [step]
    cases found : s.requests[request]? with
    | none =>
      refine ⟨fun _ n event found' => ?_, fun _ => before⟩
      rw [found] at found'
      cases found'
    | some p =>
      obtain ⟨n, event⟩ := p
      have known : event ∈ s.issued := sound.requests _ (List.mem_of_getElem? found)
      rw [admitted_serve found]
      dsimp only
      rcases serve_cases sound known c with ⟨same, refused⟩ | ⟨accepted, last, receipts⟩
      · refine iff_of_true ?_ fun accepted => ?_
        · refine allDeliverable_mono before (fun row hrow pending => ⟨row, hrow, pending, rfl⟩) ?_ ?_
          · rw [same]
          · rw [same]
            exact fun _ h => h
        · rw [refused] at accepted
          cases accepted
      · have overtakes := serve_deliverable sound known last receipts
        exact ⟨fun h _ => overtakes.mp h, fun h => overtakes.mpr (h accepted)⟩
  | receiveDirect task arrival now => exact receiveDirect_deliverable task arrival now before
  | observe o eventId now =>
    refine iff_of_true ?_ trivial
    have issued : AllDeliverable d (issue s (observationEvent d eventId now (s.queue.sequence + 1) o)) :=
      before
    refine (enqueued_deliverable issued _ now).mpr fun _ => ?_
    obtain ⟨row, enrolled, below, -⟩ := sound.account.row
    have above : lastSequence d s.server < s.queue.sequence + 1 := by
      rw [lastSequence_eq enrolled]
      omega
    simp [deliverable, issue, above]
  | receive task arrival =>
    refine iff_of_true ?_ trivial
    simp only [step]
    split
    · split
      · exact before
      · refine allDeliverable_mono before (fun row hrow pending => ?_) rfl fun _ h => h
        obtain ⟨old, hold, settled⟩ := flushRow_mem hrow
        exact ⟨old, hold, settled.pending pending, settled.event.symm⟩
    · exact before
  | send task =>
    refine iff_of_true ?_ trivial
    simp only [step]
    split <;> exact before
  | vacuum =>
    refine iff_of_true ?_ trivial
    exact fun row hrow pending => before row (List.mem_filter.mp hrow).1 pending
  | foreign req =>
    refine iff_of_true ?_ trivial
    simp only [step]
    split
    · exact before
    · rename_i other
      obtain ⟨last, receipts⟩ := lastSequence_foreign other
      exact allDeliverable_mono before (fun row hrow pending => ⟨row, hrow, pending, rfl⟩) last receipts
  | observeInterrupted | startDirect | startFlush | crash => exact iff_of_true before trivial

/-- Spider telemetry is never wedged in a run exactly when no step of the run
accepts an event over a queued one or puts an overtaken event into the queue. -/
theorem unwedged_iff_admitted (d : Deployment) (es : List Event) :
    EventRun.Throughout (step d) (Unwedged d) (start d) es ↔
      EventRun.Along (step d) (Admitted d) (start d) es := by
  refine EventRun.throughout_iff_along (step_sound d) (fun s e sound unwedged => ?_)
    (start_sound d) (by simp [Unwedged, start, Database.fresh]) es
  rw [unwedged_iff (step_sound d s e sound)]
  exact step_deliverable e sound ((unwedged_iff sound).mp unwedged)

/-- An observation waits in the queue while a tamper event is submitted at
once: from then on the observation is answered 409. -/
def overtakingRun : List Event :=
  [.observe sampleObservation "01ARZ3NDEKTSV4RRFFQ69G5FAV" sampleTime,
    .startDirect sampleTamper "01ARZ3NDEKTSV4RRFFQ69G5FAW" sampleTime,
    .serve 0 sampleServed, .receiveDirect 0 .genuine sampleTime]

theorem overtakingRun_wedged :
    ¬ EventRun.Throughout (step sampleDeployment) (Unwedged sampleDeployment)
      (start sampleDeployment) overtakingRun := by
  intro unwedged
  have last := EventRun.throughout_last unwedged
  have stuck : (EventRun.run (step sampleDeployment) (start sampleDeployment)
      overtakingRun).queue.rows.any (fun row => row.status = .pending &&
        !deliverable sampleDeployment (EventRun.run (step sampleDeployment)
          (start sampleDeployment) overtakingRun).server row.event) = true := by
    decide +kernel
  obtain ⟨row, hrow, h⟩ := List.any_eq_true.mp stuck
  simp only [Bool.and_eq_true, decide_eq_true_eq, Bool.not_eq_true'] at h
  have here := (last row hrow h.1).1
  rw [h.2] at here
  cases here

end Mirage.DirectOvertaking
