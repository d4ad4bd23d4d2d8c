import Mirage.SpiderDelivery

/-! Runs of an agent that only records observations and flushes its queue. Row ids and
sequences then grow together, so the endpoint's order by sequence is the queue's order by
id. -/

namespace Mirage.RoutineDelivery
open AgentDatabase EventEnvelope TelemetryIngestion SpiderService SpiderDelivery
open AgentQueue hiding step
open RowLocks hiding step Event

/-- Neither `record_tamper` nor `submit_fingerprint_snapshot`. -/
def isRoutine : Event → Bool
  | .startDirect .. | .receiveDirect .. => false
  | _ => true

def submits (s : State) (task : ℕ) : Option ℕ :=
  match s.flushes[task]? with
  | some ⟨_, (rowId, _) :: _, none, _, _⟩ => some rowId
  | _ => none

def Receipted (d : Deployment) (db : AgentDatabase.Database) (eventId : String) : Prop :=
  ∃ r ∈ receiptsOf db d.agentId, r.eventId = eventId

theorem receiptsOf_atomic (cfg : Config) (req : Request) (db : AgentDatabase.Database)
    {agentId : String} {r : ReceiptRow} (h : r ∈ receiptsOf db agentId) :
    r ∈ receiptsOf ((endpoint cfg).atomic req db).1 agentId := by
  obtain same | ⟨row, answer, -, accepted⟩ := atomic_written cfg req db
  · rw [same]
    exact h
  · rw [receiptsOf_append accepted.receipts]
    exact List.mem_append_left _ h

/-- Row ids and sequences grow together, and only recorded events are
submitted or receipted. -/
structure InOrder (d : Deployment) (s : State) : Prop where
  order : s.recorded.Pairwise fun p q => p.1 < q.1 ∧ sequenceAt p.2 < sequenceAt q.2
  within : ∀ p ∈ s.recorded, p.1 ≤ s.queue.lastRowId
  requests : ∀ p ∈ s.requests, ∃ q ∈ s.recorded, q.2 = p.2
  receipts : ∀ r ∈ receiptsOf s.server d.agentId, ∃ p ∈ s.recorded,
    sequenceAt p.2 = r.sequence ∧ eventIdOf p.2 = r.eventId

theorem enqueued_inOrder {d : Deployment} {s : State} (ordered : InOrder d s) {event : Json}
    (next : ∀ p ∈ s.recorded, sequenceAt p.2 < sequenceAt event) (now : String) :
    InOrder d (enqueued d s event now) := by
  obtain same | ⟨-, stored⟩ := enqueued_cases d s event now
  · rw [same]
    exact ordered
  · rw [stored]
    refine ⟨?_, fun p hp => ?_, fun p hp => ?_, fun r hr => ?_⟩
    · rw [List.pairwise_append]
      refine ⟨ordered.order, List.pairwise_singleton _ _, fun p hp q hq => ?_⟩
      have := ordered.within p hp
      rw [List.mem_singleton.mp hq]
      exact ⟨by omega, next p hp⟩
    · simp only [Database.insert]
      rcases List.mem_append.mp hp with old | new
      · have := ordered.within p old
        omega
      · rw [List.mem_singleton.mp new]
    · obtain ⟨q, hq, same⟩ := ordered.requests p hp
      exact ⟨q, List.mem_append_left _ hq, same⟩
    · obtain ⟨q, hq, same⟩ := ordered.receipts r hr
      exact ⟨q, List.mem_append_left _ hq, same⟩

theorem receipts_serve {d : Deployment} {db : AgentDatabase.Database} {event : Json}
    (built : Built d event) (c : Circumstance) {r : ReceiptRow}
    (h : r ∈ receiptsOf ((endpoint d.ingestion).atomic (requestFor d event c) db).1 d.agentId) :
    r ∈ receiptsOf db d.agentId ∨ (r.sequence = sequenceAt event ∧ r.eventId = eventIdOf event) := by
  obtain same | ⟨row, answer, -, accepted⟩ := atomic_written d.ingestion (requestFor d event c) db
  · rw [same] at h
    exact .inl h
  · obtain ⟨seq, id⟩ := accepted.names
    simp only [requestFor, built.sequence, built.eventId, Option.some.injEq, Json.int.injEq,
      Json.str.injEq] at seq id
    rw [receiptsOf_append accepted.receipts] at h
    simp only [requestFor, if_true, List.mem_append, List.mem_singleton] at h
    rcases h with old | rfl
    · exact .inl old
    · exact .inr ⟨seq.symm, id.symm⟩

theorem step_inOrder {d : Deployment} {s : State} {e : Event} (routine : isRoutine e = true)
    (sound : Sound d s) (ordered : InOrder d s) : InOrder d (step d s e) := by
  cases e with
  | observe o eventId now =>
    have issued : InOrder d (issue s (observationEvent d eventId now (s.queue.sequence + 1) o)) :=
      ⟨ordered.order, ordered.within, ordered.requests, ordered.receipts⟩
    refine enqueued_inOrder issued (fun p hp => ?_) now
    have := sound.bounded _ (sound.recorded p hp)
    rw [sequenceAt_observationEvent]
    push_cast
    omega
  | startDirect call eventId now => cases routine
  | receiveDirect task arrival now => cases routine
  | send task =>
    simp only [step]
    split
    · rename_i batchSize rowId event rest progressed totalSent found
      refine ⟨ordered.order, ordered.within, fun p hp => ?_, ordered.receipts⟩
      rcases List.mem_append.mp hp with old | new
      · exact ordered.requests p old
      · rw [List.mem_singleton.mp new]
        exact ⟨(rowId, event),
          sound.flushes _ (List.mem_of_getElem? found) _ List.mem_cons_self, rfl⟩
    · exact ordered
  | receive task arrival =>
    simp only [step]
    split
    · split
      · exact ordered
      · rename_i outcome _
        refine ⟨ordered.order, fun p hp => ?_, ordered.requests, ordered.receipts⟩
        simp only [(flushRow_counters s.queue _ _ _ _ outcome).2]
        exact ordered.within p hp
    · exact ordered
  | serve request c =>
    simp only [step]
    split
    · exact ordered
    · rename_i n event found
      have here := List.mem_of_getElem? found
      have built := sound.built _ (sound.requests _ here)
      refine ⟨ordered.order, ordered.within,
        fun p hp => ordered.requests p (List.mem_of_mem_eraseIdx hp), fun r hr => ?_⟩
      rcases receipts_serve built c hr with old | ⟨seq, id⟩
      · exact ordered.receipts r old
      · obtain ⟨q, hq, same⟩ := ordered.requests _ here
        exact ⟨q, hq, by rw [same, seq], by rw [same, id]⟩
  | foreign req =>
    simp only [step]
    split
    · exact ordered
    · rename_i other
      refine ⟨ordered.order, ordered.within, ordered.requests, fun r hr => ?_⟩
      rw [receipts_foreign s.server other] at hr
      exact ordered.receipts r hr
  | observeInterrupted | startFlush | vacuum | crash =>
    exact ⟨ordered.order, ordered.within, ordered.requests, ordered.receipts⟩

/-- The rest of a batch stands in the order of its ids, and no `PENDING` row
below one of its rows is missing from it. -/
structure BatchInTurn (queue : AgentQueue.Database Json) (rest : List (ℕ × Json)) : Prop where
  ordered : (rest.map Prod.fst).Pairwise (· < ·)
  gapless : ∀ r ∈ queue.rows, r.status = .pending → ∀ p ∈ rest, r.id < p.1 →
    r.id ∈ rest.map Prod.fst

theorem peekBatch_inTurn (queue : AgentQueue.Database Json) (limit : ℕ) :
    BatchInTurn queue (queue.peekBatch limit) := by
  have ids : (queue.peekBatch limit).map Prod.fst =
      ((queue.rows.filter Database.isPending).take limit).map QueueRow.id := by
    simp [Database.peekBatch, Function.comp_def]
  have sorted : ((queue.rows.filter Database.isPending).map QueueRow.id).Pairwise (· < ·) :=
    queue.ordered.sublist (List.filter_sublist.map QueueRow.id)
  refine ⟨?_, fun r hr pending p hp below => ?_⟩
  · rw [ids]
    exact sorted.sublist ((List.take_sublist _ _).map QueueRow.id)
  · rw [ids]
    have selected : r ∈ queue.rows.filter Database.isPending :=
      List.mem_filter.mpr ⟨hr, by simp [Database.isPending, pending]⟩
    have taken : p.1 ∈ ((queue.rows.filter Database.isPending).take limit).map QueueRow.id := by
      rw [← ids]
      exact List.mem_map_of_mem hp
    rw [← List.take_append_drop limit (queue.rows.filter Database.isPending)] at selected sorted
    rw [List.map_append, List.pairwise_append] at sorted
    rcases List.mem_append.mp selected with early | late
    · exact List.mem_map_of_mem early
    · have := sorted.2.2 _ taken _ (List.mem_map_of_mem late)
      omega

theorem BatchInTurn.shrink {queue queue' : AgentQueue.Database Json} {rest : List (ℕ × Json)}
    (turn : BatchInTurn queue rest)
    (shrink : ∀ r ∈ queue'.rows, r.status = .pending →
      (∃ old ∈ queue.rows, old.id = r.id ∧ old.status = .pending) ∨ ∀ p ∈ rest, p.1 < r.id) :
    BatchInTurn queue' rest := by
  refine ⟨turn.ordered, fun r hr pending p hp below => ?_⟩
  rcases shrink r hr pending with ⟨old, hold, same, before⟩ | above
  · rw [← same] at below ⊢
    exact turn.gapless old hold before p hp below
  · have := above p hp
    omega

theorem BatchInTurn.advance {queue : AgentQueue.Database Json} {rest : List (ℕ × Json)}
    {rowId : ℕ} {event : Json} (turn : BatchInTurn queue ((rowId, event) :: rest))
    (gone : ∀ r ∈ queue.rows, r.id = rowId → r.status ≠ .pending) : BatchInTurn queue rest := by
  have ordered := turn.ordered
  rw [List.map_cons, List.pairwise_cons] at ordered
  refine ⟨ordered.2, fun r hr pending p hp below => ?_⟩
  have here := turn.gapless r hr pending p (List.mem_cons_of_mem _ hp) below
  rw [List.map_cons, List.mem_cons] at here
  rcases here with first | later
  · exact absurd pending (gone r hr first)
  · exact later

def InTurn (s : State) : Prop := ∀ f ∈ s.flushes, BatchInTurn s.queue f.rest

theorem receive_inTurn {s : State} (turn : InTurn s) {task : ℕ} {f : Flush} {rowId : ℕ}
    {event : Json} {rest : List (ℕ × Json)} (running : f ∈ s.flushes)
    (waiting : f.rest = (rowId, event) :: rest) (outcome : Outcome) :
    ∀ f' ∈ replaceTask s.flushes task (flushRow s.queue f rowId event rest outcome).2,
      BatchInTurn (flushRow s.queue f rowId event rest outcome).1 f'.rest := by
  have shrink : ∀ {batch}, BatchInTurn s.queue batch →
      BatchInTurn (flushRow s.queue f rowId event rest outcome).1 batch := by
    intro batch before
    refine before.shrink fun r hr pending => ?_
    obtain ⟨old, hold, settled⟩ := flushRow_mem hr
    exact .inl ⟨old, hold, settled.id.symm, settled.pending pending⟩
  intro f' hf'
  rcases mem_replaceTask hf' with old | new
  · exact shrink (turn f' old)
  · rcases flushRow_rest new with ⟨same, left⟩ | ⟨limit, fresh⟩
    · rw [same]
      refine (shrink (waiting ▸ turn f running)).advance fun r hr mine pending => ?_
      obtain ⟨old, hold, settled⟩ := flushRow_mem hr
      have status := settled.status
      rw [← settled.id, if_pos mine, pending] at status
      exact left _ status.symm
    · rw [fresh]
      exact peekBatch_inTurn _ limit

theorem step_inTurn {d : Deployment} {s : State} {e : Event} (routine : isRoutine e = true)
    (sound : Sound d s) (ordered : InOrder d s) (turn : InTurn s) : InTurn (step d s e) := by
  cases e with
  | observe o eventId now =>
    simp only [step]
    obtain same | ⟨-, stored⟩ := enqueued_cases d
      (issue s (observationEvent d eventId now (s.queue.sequence + 1) o))
      (observationEvent d eventId now (s.queue.sequence + 1) o) now
    · rw [same]
      exact fun f hf => (turn f hf).shrink fun r hr pending => .inl ⟨r, hr, rfl, pending⟩
    · rw [stored]
      refine fun f hf => (turn f hf).shrink fun r hr pending => ?_
      rcases List.mem_append.mp hr with old | new
      · exact .inl ⟨r, old, rfl, pending⟩
      · right
        intro p hp
        have := ordered.within p (sound.flushes f hf p hp)
        rw [List.mem_singleton.mp new]
        simp only [Database.newRow, issue, Database.nextSequence]
        omega
  | startDirect call eventId now => cases routine
  | receiveDirect task arrival now => cases routine
  | startFlush batchSize =>
    intro f hf
    rcases List.mem_append.mp hf with old | new
    · exact turn f old
    · rw [nextBatch_rest (Option.mem_toList.mp new)]
      exact peekBatch_inTurn s.queue batchSize
  | send task =>
    simp only [step]
    split
    · rename_i batchSize rowId event rest progressed totalSent found
      have mine := turn _ (List.mem_of_getElem? found)
      intro f hf
      rcases List.mem_or_eq_of_mem_set hf with old | new
      · exact turn f old
      · subst new
        exact mine
    · exact turn
  | receive task arrival =>
    simp only [step]
    split
    · rename_i batchSize rowId event rest n progressed totalSent found
      split
      · exact turn
      · exact receive_inTurn turn (List.mem_of_getElem? found) rfl _
    · exact turn
  | vacuum =>
    intro f hf
    refine (turn f hf).shrink fun r hr pending => ?_
    exact .inl ⟨r, (List.mem_filter.mp hr).1, rfl, pending⟩
  | serve request c =>
    simp only [step]
    split <;> exact turn
  | foreign req =>
    simp only [step]
    split <;> exact turn
  | observeInterrupted | crash =>
    intro f hf
    cases hf

structure Accounted (d : Deployment) (s : State) : Prop where
  responses : ∀ p ∈ s.responses, ∀ id, p.2.eventId = some id → Receipted d s.server id
  acknowledged : ∀ r ∈ s.queue.rows, r.status = .acknowledged →
    Receipted d s.server (eventIdOf r.event)
  dead : ∀ r ∈ s.queue.rows, r.status = .deadLetter → (r.id, 400) ∈ s.answers
  present : ∀ p ∈ s.recorded, (∃ r ∈ s.queue.rows, r.id = p.1 ∧ r.event = p.2) ∨
    (p.1 ∈ s.vacuumed ∧ Receipted d s.server (eventIdOf p.2))

theorem delivered_response {event : Json} {r : HttpResponse} (h : readResponse event r = .delivered) :
    r.eventId = some (eventIdOf event) := by
  unfold readResponse at h
  split at h
  · cases h
  · split at h
    · rename_i text
      split at h
      · rename_i named
        obtain ⟨id, hid⟩ := Option.isSome_iff_exists.mp named
        have found := Json.isText_iff.mp text
        rw [hid, Option.getD_some] at found
        rw [hid, eventIdOf, stringAt, found]
      · cases h
    · cases h

theorem arrives_delivered {d : Deployment} {s : State} (accounted : Accounted d s) {n : ℕ}
    {event : Json} {arrival : Arrival} (h : arrives s n event arrival = some .delivered) :
    Receipted d s.server (eventIdOf event) := by
  cases arrival with
  | genuine =>
    simp only [arrives, Option.map_eq_some_iff] at h
    obtain ⟨r, found, read⟩ := h
    obtain ⟨front, back, split, -⟩ := List.lookup_eq_some_iff.mp found
    refine accounted.responses (n, r) ?_ _ (delivered_response read)
    rw [split]
    simp
  | failure => cases h
  | forged r =>
    simp only [arrives] at h
    split at h
    · cases h
    · rename_i other
      exact absurd (Option.some.inj h) other

theorem respond_receipted {d : Deployment} {db : AgentDatabase.Database} {event : Json}
    {c : Circumstance} {id : String}
    (named : (respond ((endpoint d.ingestion).atomic (requestFor d event c) db).2).eventId = some id) :
    Receipted d ((endpoint d.ingestion).atomic (requestFor d event c) db).1 id := by
  cases hout : ((endpoint d.ingestion).atomic (requestFor d event c) db).2 with
  | error e =>
    rw [hout] at named
    cases named
  | ok answer =>
    rw [hout] at named
    have same : answer.eventId = id := Option.some.inj named
    obtain replayed | ⟨row, -, accepted⟩ := submitTelemetry_cases (atomic_commit _ hout)
    · rw [replayed.unchanged]
      exact ⟨⟨d.agentId, answer.sequence, answer.eventId⟩,
        mem_receiptsOf.mpr ⟨replayed.receipt, rfl⟩, same⟩
    · refine ⟨⟨d.agentId, answer.sequence, answer.eventId⟩, mem_receiptsOf.mpr ⟨?_, rfl⟩, same⟩
      rw [accepted.receipts]
      exact List.mem_append_right _ (List.mem_singleton_self _)

theorem enqueued_accounted {d : Deployment} {s : State} (accounted : Accounted d s) (event : Json)
    (now : String) : Accounted d (enqueued d s event now) := by
  obtain same | ⟨-, stored⟩ := enqueued_cases d s event now
  · rw [same]
    exact accounted
  · rw [stored]
    refine ⟨accounted.responses, fun r hr status => ?_, fun r hr status => ?_, fun p hp => ?_⟩
    · rcases List.mem_append.mp hr with old | new
      · exact accounted.acknowledged r old status
      · rw [List.mem_singleton.mp new] at status
        cases status
    · rcases List.mem_append.mp hr with old | new
      · exact accounted.dead r old status
      · rw [List.mem_singleton.mp new] at status
        cases status
    · rcases List.mem_append.mp hp with old | new
      · rcases accounted.present p old with ⟨r, hr, same⟩ | gone
        · exact .inl ⟨r, List.mem_append_left _ hr, same⟩
        · exact .inr gone
      · rw [List.mem_singleton.mp new]
        exact .inl ⟨_, List.mem_append_right _ (List.mem_singleton_self _), rfl, rfl⟩

theorem receive_accounted {d : Deployment} {s : State} (sound : Sound d s)
    (ordered : InOrder d s) (accounted : Accounted d s) (f : Flush) {rowId : ℕ} {event : Json}
    (rest : List (ℕ × Json)) (mine : (rowId, event) ∈ s.recorded) {n : ℕ} {arrival : Arrival}
    {outcome : Outcome} (arrived : arrives s n event arrival = some outcome)
    (flushes : List Flush) :
    Accounted d { s with
      queue := (flushRow s.queue f rowId event rest outcome).1
      flushes := flushes
      answers := s.answers ++ (answerCode outcome).map fun code => (rowId, code) } := by
  have ids : (s.recorded.map Prod.fst).Nodup :=
    List.pairwise_map.mpr (ordered.order.imp fun h => Nat.ne_of_lt h.1)
  have same : ∀ r ∈ s.queue.rows, r.id = rowId → r.event = event := by
    intro r hr h
    exact (Prod.mk.inj (List.inj_on_of_nodup_map ids (sound.rows r hr) mine h)).2
  obtain ⟨g, rows, settled⟩ := flushRow_rows s.queue f rowId event rest outcome
  refine ⟨accounted.responses, fun r hr status => ?_, fun r hr status => ?_, fun p hp => ?_⟩
  · obtain ⟨old, hold, settled⟩ := flushRow_mem hr
    rw [settled.event]
    rcases settled.cases with kept | ⟨here, ⟨rfl, -⟩ | ⟨detail, -, dead⟩⟩
    · exact accounted.acknowledged old hold (kept.symm.trans status)
    · rw [same old hold here]
      exact arrives_delivered accounted arrived
    · rw [dead] at status
      cases status
  · obtain ⟨old, hold, settled⟩ := flushRow_mem hr
    rw [settled.id]
    rcases settled.cases with kept | ⟨here, ⟨-, acked⟩ | ⟨detail, rfl, -⟩⟩
    · exact List.mem_append_left _ (accounted.dead old hold (kept.symm.trans status))
    · rw [acked] at status
      cases status
    · rw [here]
      exact List.mem_append_right _ (List.mem_singleton_self _)
  · rcases accounted.present p hp with ⟨r, hr, id, event⟩ | gone
    · left
      refine ⟨g r, ?_, (settled r).id.trans id, (settled r).event.trans event⟩
      rw [rows]
      exact List.mem_map_of_mem hr
    · exact .inr gone

theorem served_accounted {d : Deployment} {s : State} {db : AgentDatabase.Database}
    {responses : List (ℕ × HttpResponse)} (accounted : Accounted d s)
    (requests : List (ℕ × Json))
    (later : ∀ {r}, r ∈ receiptsOf s.server d.agentId → r ∈ receiptsOf db d.agentId)
    (answered : ∀ p ∈ responses, p ∈ s.responses ∨
      ∀ id, p.2.eventId = some id → Receipted d db id) :
    Accounted d { s with server := db, requests := requests, responses := responses } := by
  have kept : ∀ id, Receipted d s.server id → Receipted d db id := by
    rintro id ⟨r, hr, same⟩
    exact ⟨r, later hr, same⟩
  refine ⟨fun p hp id named => ?_, fun r hr acked => kept _ (accounted.acknowledged r hr acked),
    accounted.dead, fun p hp => ?_⟩
  · rcases answered p hp with old | new
    · exact kept id (accounted.responses p old id named)
    · exact new id named
  · rcases accounted.present p hp with here | ⟨gone, receipt⟩
    · exact .inl here
    · exact .inr ⟨gone, kept _ receipt⟩

theorem step_accounted {d : Deployment} {s : State} {e : Event} (routine : isRoutine e = true)
    (sound : Sound d s) (ordered : InOrder d s) (accounted : Accounted d s) :
    Accounted d (step d s e) := by
  cases e with
  | observe o eventId now =>
    have issued : Accounted d (issue s (observationEvent d eventId now (s.queue.sequence + 1) o)) :=
      ⟨accounted.responses, accounted.acknowledged, accounted.dead, accounted.present⟩
    exact enqueued_accounted issued _ now
  | startDirect call eventId now => cases routine
  | receiveDirect task arrival now => cases routine
  | send task =>
    simp only [step]
    split
    · exact ⟨accounted.responses, accounted.acknowledged, accounted.dead, accounted.present⟩
    · exact accounted
  | receive task arrival =>
    simp only [step]
    split
    · rename_i batchSize rowId event rest n progressed totalSent found
      split
      · exact accounted
      · rename_i outcome arrived
        have mine := sound.flushes _ (List.mem_of_getElem? found) (rowId, event) List.mem_cons_self
        exact receive_accounted sound ordered accounted _ rest mine arrived _
    · exact accounted
  | vacuum =>
    refine ⟨accounted.responses, fun r hr => accounted.acknowledged r (List.mem_filter.mp hr).1,
      fun r hr => accounted.dead r (List.mem_filter.mp hr).1, fun p hp => ?_⟩
    rcases accounted.present p hp with ⟨r, hr, id, event⟩ | ⟨gone, receipt⟩
    · by_cases acked : r.status = .acknowledged
      · refine .inr ⟨List.mem_append_right _ ?_, event ▸ accounted.acknowledged r hr acked⟩
        rw [← id]
        exact List.mem_map_of_mem (List.mem_filter.mpr ⟨hr, by simp [acked]⟩)
      · exact .inl ⟨r, List.mem_filter.mpr ⟨hr, by simp [acked]⟩, id, event⟩
    · exact .inr ⟨List.mem_append_left _ gone, receipt⟩
  | serve request c =>
    simp only [step]
    split
    · exact accounted
    · rename_i n event found
      refine served_accounted accounted _ (receiptsOf_atomic d.ingestion _ s.server) fun p hp => ?_
      rcases List.mem_append.mp hp with old | new
      · exact .inl old
      · rw [List.mem_singleton.mp new]
        exact .inr fun id => respond_receipted
  | foreign req =>
    simp only [step]
    split
    · exact accounted
    · exact served_accounted accounted s.requests (receiptsOf_atomic d.ingestion req s.server)
        fun p hp => .inl hp
  | observeInterrupted | crash =>
    exact ⟨by simp [step], accounted.acknowledged, accounted.dead, accounted.present⟩
  | startFlush batchSize =>
    exact ⟨accounted.responses, accounted.acknowledged, accounted.dead, accounted.present⟩

structure Delivering (d : Deployment) (s : State) : Prop where
  sound : Sound d s
  ordered : InOrder d s
  turn : InTurn s
  accounted : Accounted d s

theorem start_delivering (d : Deployment) : Delivering d (start d) where
  sound := start_sound d
  ordered := ⟨by simp [start], by simp [start], by simp [start], by simp [start, d.unused]⟩
  turn := by simp [InTurn, start]
  accounted := ⟨by simp [start], by simp [start, Database.fresh], by simp [start, Database.fresh],
    by simp [start]⟩

theorem run_delivering {d : Deployment} {s : State} (delivering : Delivering d s)
    {es : List Event} (routine : ∀ e ∈ es, isRoutine e = true) :
    Delivering d (EventRun.run (step d) s es) := by
  induction es generalizing s with
  | nil => exact delivering
  | cons e es ih =>
    have first := routine e List.mem_cons_self
    refine ih ⟨step_sound d s e delivering.sound,
      step_inOrder first delivering.sound delivering.ordered,
      step_inTurn first delivering.sound delivering.ordered delivering.turn,
      step_accounted first delivering.sound delivering.ordered delivering.accounted⟩ ?_
    exact fun e' he' => routine e' (List.mem_cons_of_mem e he')

def IsFor (r : ReceiptRow) (event : Json) : Prop :=
  sequenceAt event = r.sequence ∧ eventIdOf event = r.eventId

structure DeliveredInOrder (d : Deployment) (s : State) : Prop where
  /-- Receipts are written for recorded events only, in the order of their row ids. -/
  known : ∀ r ∈ receiptsOf s.server d.agentId, ∃ p ∈ s.recorded, IsFor r p.2
  increasing : (receiptsOf s.server d.agentId).Pairwise fun r r' =>
    ∀ p ∈ s.recorded, ∀ p' ∈ s.recorded, IsFor r p.2 → IsFor r' p'.2 → p.1 < p'.1
  atMostOnce : ∀ p ∈ s.recorded, (receiptsOf s.server d.agentId).countP
    (fun r => r.sequence = sequenceAt p.2 || r.eventId = eventIdOf p.2) ≤ 1
  acknowledged : ∀ row ∈ s.queue.rows, row.status = .acknowledged →
    ∃ r ∈ receiptsOf s.server d.agentId, r.eventId = eventIdOf row.event
  deadLetter : ∀ row ∈ s.queue.rows, row.status = .deadLetter → (row.id, 400) ∈ s.answers
  /-- A recorded event has its row, unless `vacuum_acked` took it. -/
  present : ∀ p ∈ s.recorded, (∃ row ∈ s.queue.rows, row.id = p.1 ∧ row.event = p.2) ∨
    (p.1 ∈ s.vacuumed ∧ ∃ r ∈ receiptsOf s.server d.agentId, r.eventId = eventIdOf p.2)
  inTurn : ∀ task rowId, submits s task = some rowId →
    ∀ row ∈ s.queue.rows, row.status = .pending → rowId ≤ row.id

theorem recorded_increasing {recorded : List (ℕ × Json)}
    (order : recorded.Pairwise fun p q => p.1 < q.1 ∧ sequenceAt p.2 < sequenceAt q.2)
    {p q : ℕ × Json} (hp : p ∈ recorded) (hq : q ∈ recorded)
    (less : sequenceAt p.2 < sequenceAt q.2) : p.1 < q.1 := by
  rw [List.pairwise_iff_getElem] at order
  obtain ⟨i, hi, rfl⟩ := List.getElem_of_mem hp
  obtain ⟨j, hj, rfl⟩ := List.getElem_of_mem hq
  rcases Nat.lt_trichotomy i j with before | same | after
  · exact (order i j hi hj before).1
  · subst same
    omega
  · have := (order j i hj hi after).2
    omega

theorem receipts_atMostOnce {d : Deployment} {s : State} (sound : Sound d s) {event : Json}
    (known : event ∈ s.issued) : (receiptsOf s.server d.agentId).countP
      (fun r => r.sequence = sequenceAt event || r.eventId = eventIdOf event) ≤ 1 := by
  have named : ∀ r ∈ receiptsOf s.server d.agentId,
      (r.sequence = sequenceAt event || r.eventId = eventIdOf event) = true →
      (r.eventId == eventIdOf event) = true := by
    intro r hr h
    obtain ⟨e, he, sequence, id⟩ := sound.account.known r hr
    simp only [Bool.or_eq_true, decide_eq_true_eq] at h
    rcases h with same | same
    · have := issued_injective sound he known (sequence.trans same)
      simp [← id, this]
    · simp [same]
  have once := List.nodup_iff_count_le_one.mp sound.account.events (eventIdOf event)
  rw [List.count, List.countP_map] at once
  exact (List.countP_mono_left named).trans once

theorem head_inTurn {s : State} (turn : InTurn s) {task rowId : ℕ}
    (h : submits s task = some rowId) :
    ∀ row ∈ s.queue.rows, row.status = .pending → rowId ≤ row.id := by
  unfold submits at h
  split at h
  · rename_i batchSize rowId' event rest progressed totalSent found
    cases h
    intro row hrow pending
    have batch := turn _ (List.mem_of_getElem? found)
    by_contra below
    have here := batch.gapless row hrow pending (rowId, event) List.mem_cons_self (by omega)
    have ordered := batch.ordered
    rw [List.map_cons, List.pairwise_cons] at ordered
    rcases List.mem_cons.mp here with same | later
    · exact below same.ge
    · have := ordered.1 _ later
      omega
  · cases h

/-- An agent that only records observations and flushes, against any network
and with crashes anywhere. -/
theorem routine_deliveredInOrder (d : Deployment) (es : List Event)
    (routine : ∀ e ∈ es, isRoutine e = true) :
    DeliveredInOrder d (EventRun.run (step d) (start d) es) := by
  have delivering := run_delivering (start_delivering d) routine
  have account := delivering.sound.account
  refine ⟨delivering.ordered.receipts, ?_, fun p hp => ?_, delivering.accounted.acknowledged,
    delivering.accounted.dead, delivering.accounted.present, fun task rowId =>
      head_inTurn delivering.turn⟩
  · have sequences := List.pairwise_map.mp account.increasing
    refine sequences.imp fun {r r'} less p hp p' hp' first second => ?_
    refine recorded_increasing delivering.ordered.order hp hp' ?_
    rw [first.1, second.1]
    exact less
  · exact receipts_atMostOnce delivering.sound (delivering.sound.recorded p hp)

def sampleRun : List Event :=
  [.observe sampleObservation "01ARZ3NDEKTSV4RRFFQ69G5FAV" sampleTime,
    .observe sampleObservation "01ARZ3NDEKTSV4RRFFQ69G5FAW" sampleTime,
    .startFlush 10, .send 0, .serve 0 sampleServed, .crash,
    .startFlush 10, .send 0, .serve 0 sampleServed, .receive 0 .genuine,
    .send 0, .serve 0 sampleServed, .receive 0 .genuine, .vacuum]

theorem sampleRun_deliveredInOrder :
    (∀ e ∈ sampleRun, isRoutine e = true) ∧
      (EventRun.run (step sampleDeployment) (start sampleDeployment) sampleRun).vacuumed = [1, 2] ∧
      DeliveredInOrder sampleDeployment
        (EventRun.run (step sampleDeployment) (start sampleDeployment) sampleRun) :=
  ⟨by decide, by decide +kernel, routine_deliveredInOrder _ _ (by decide)⟩

end Mirage.RoutineDelivery
