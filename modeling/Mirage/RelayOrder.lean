import Mirage.OutboxRelay

/-! The order in which the relays publish. -/

namespace Mirage.RelayOrder
open OutboxRelay AuditOutbox

/-- What the writer of a row fixed: the row, its `created_at`, and how many
rows were committed when its transaction began. -/
abbrev Origin := OutboxRow × ℕ × ℕ

def origins (s : System) : List Origin := s.table.rows.map Row.origin

/-- `e` and `l` are of one topic and case, and the transaction of `e` had
committed when that of `l` began. -/
structure Before (s : System) (e l : Origin) : Prop where
  topic : e.1.topic = l.1.topic
  case : e.1.payload.get? "case_id" = l.1.payload.get? "case_id"
  committed : e ∈ (origins s).take l.2.2

def Sent (s : System) (r : OutboxRow) : Prop := ∃ m ∈ s.stream, m.key = (message r).key

def Ordered (s : System) : Prop :=
  ∀ l ∈ origins s, ∀ e, Before s e l → ∀ front m back, s.stream = front ++ m :: back →
    m.key = (message l.1).key → ∃ m' ∈ front, m'.key = (message e.1).key

def Admitted (s : System) : Event → Prop
  -- the clock has moved on since the transactions began whose rows are there
  | .begin _ => ∀ r ∈ s.table.rows, r.createdAt < s.clock
  -- no row is fetched while an unpublished one before it is locked or waits
  | .fetch i limit tie => s.batches i = none → ∀ l ∈ fetched s limit tie, ∀ e ∈ s.table.rows,
      Before s e.origin l.origin → ¬ Sent s e.toOutboxRow →
        s.holder e.eventId = none ∧ e.nextAttemptAt ≤ s.clock
  -- no publish is lost while a later row of its topic and case follows in the batch
  | .publish i (.lost _) _ => ∀ now row rest marks, s.batches i = some ⟨now, row :: rest, marks⟩ →
      ¬ Sent s row.toOutboxRow → ∀ l ∈ rest, ¬ Before s row.origin l.origin
  | _ => True

structure Clocked (s : System) : Prop where
  bounded : ∀ l ∈ origins s, l.2.2 ≤ (origins s).length
  rising : ∀ l ∈ origins s, ∀ e ∈ (origins s).take l.2.2, e.2.1 < l.2.1
  writers : ∀ w writer, s.writers w = some writer → writer.seen ≤ (origins s).length ∧
    ∀ e ∈ (origins s).take writer.seen, e.2.1 < writer.startedAt

structure Streamed (s : System) : Prop where
  acked : ∀ a ∈ s.acknowledged, ∃ m ∈ s.stream, m.key = a.message.key
  listed : ∀ m ∈ s.stream, ∃ l ∈ origins s, m.key = (message l.1).key

def Queued (s : System) : Prop :=
  ∀ i b, s.batches i = some b → ∀ front l back, b.rest = front ++ l :: back →
    ∀ e, Before s e l.origin → Sent s e.1 ∨ e ∈ front.map Row.origin

theorem mem_origins {s : System} {r : Row} (found : s.table.find r.key = some r) :
    r.origin ∈ origins s :=
  List.mem_map_of_mem (s.table.mem_of_find found)

theorem origin_eq {s : System} {e l : Origin} (he : e ∈ origins s) (hl : l ∈ origins s)
    (same : e.1.eventId = l.1.eventId) : e = l := by
  obtain ⟨r, hr, rfl⟩ := List.mem_map.mp he
  obtain ⟨r', hr', rfl⟩ := List.mem_map.mp hl
  rw [s.table.key_injective hr hr' same]

theorem before_of_grown {s s' : System} (grown : origins s <+: origins s') {e l : Origin}
    (bound : l.2.2 ≤ (origins s).length) (before : Before s' e l) : Before s e l := by
  obtain ⟨new, grown⟩ := grown
  have committed := before.committed
  rw [← grown, List.take_append_of_le_length bound] at committed
  exact ⟨before.topic, before.case, committed⟩

theorem Sent.mono {s s' : System} (stream : ∀ m ∈ s.stream, m ∈ s'.stream) {r : OutboxRow}
    (sent : Sent s r) : Sent s' r := by
  obtain ⟨m, mem, same⟩ := sent
  exact ⟨m, stream m mem, same⟩

theorem mem_stored {stream : List Message} (recognised : Bool) {m m' : Message}
    (mem : m' ∈ stream) : m' ∈ stored recognised m stream := by
  unfold stored
  split
  · exact mem
  · exact List.mem_append_left _ mem

theorem sent_stored (stream : List Message) (recognised : Bool) (m : Message) :
    ∃ m' ∈ stored recognised m stream, m'.key = m.key := by
  unfold stored
  split
  · rename_i known
    simp only [Bool.and_eq_true, List.any_eq_true, decide_eq_true_eq] at known
    obtain ⟨-, m', mem, subject, msgId⟩ := known
    exact ⟨m', mem, Prod.ext subject msgId⟩
  · exact ⟨m, List.mem_append_right _ (List.mem_singleton_self m), rfl⟩

theorem mem_of_mem_stored {stream : List Message} {recognised : Bool} {m m' : Message}
    (mem : m' ∈ stored recognised m stream) : m' ∈ stream ∨ m' = m := by
  unfold stored at mem
  split at mem
  · exact .inl mem
  · simpa using mem

theorem rest_origin {s : System} (sound : Sound s) {i : ℕ} {b : Batch} (opened : s.batches i = some b)
    {r : Row} (mem : r ∈ b.rest) : r.origin ∈ origins s :=
  mem_origins ((sound.fair i b opened).current r mem).1

theorem Clocked.frame {s s' : System} (clocked : Clocked s) (same : origins s' = origins s)
    (writers : ∀ w writer, s'.writers w = some writer → s.writers w = some writer) : Clocked s' := by
  refine ⟨?_, ?_, fun w writer opened => ?_⟩
  · rw [same]
    exact clocked.bounded
  · rw [same]
    exact clocked.rising
  · rw [same]
    exact clocked.writers w writer (writers w writer opened)

theorem origins_inserted {s s' : System} {writer : Writer} {rows : List OutboxRow}
    (inserted : insertAll s.table (rows.map (newRow writer)) = some s'.table) :
    origins s' = origins s ++ rows.map fun r => (r, writer.startedAt, writer.seen) := by
  rw [origins, insertAll_rows inserted, List.map_append, List.map_map]
  rfl

theorem commitRows_clocked {s s' : System} (clocked : Clocked s) {w : ℕ} {writer : Writer}
    (opened : s.writers w = some writer) {rows : List OutboxRow}
    (inserted : insertAll s.table (rows.map (newRow writer)) = some s'.table)
    (writers : ∀ w' writer', s'.writers w' = some writer' → s.writers w' = some writer') :
    Clocked s' := by
  obtain ⟨bound, later⟩ := clocked.writers w writer opened
  have grown := origins_inserted inserted
  refine ⟨fun l mem => ?_, fun l mem e he => ?_, fun w' writer' opened' => ?_⟩
  · rw [grown, List.length_append]
    rw [grown] at mem
    rcases List.mem_append.mp mem with old | fresh
    · exact Nat.le_add_right_of_le (clocked.bounded l old)
    · obtain ⟨r, -, rfl⟩ := List.mem_map.mp fresh
      exact Nat.le_add_right_of_le bound
  · rw [grown] at mem he
    rcases List.mem_append.mp mem with old | fresh
    · rw [List.take_append_of_le_length (clocked.bounded l old)] at he
      exact clocked.rising l old e he
    · obtain ⟨r, -, rfl⟩ := List.mem_map.mp fresh
      rw [List.take_append_of_le_length bound] at he
      exact later e he
  · obtain ⟨bound', later'⟩ := clocked.writers w' writer' (writers w' writer' opened')
    rw [grown, List.length_append, List.take_append_of_le_length bound']
    exact ⟨Nat.le_add_right_of_le bound', later'⟩

theorem closed_writer {s : System} {w w' : ℕ} {writer : Writer}
    (opened : Function.update s.writers w none w' = some writer) : s.writers w' = some writer := by
  by_cases here : w' = w
  · simp [here] at opened
  · simpa [here] using opened

theorem step_clocked (s : System) (e : Event) (clocked : Clocked s) (admitted : Admitted s e) :
    Clocked (step s e) := by
  cases e with
  | tick microseconds => exact clocked.frame rfl fun _ _ h => h
  | begin w =>
    simp only [step]
    split
    · refine ⟨clocked.bounded, clocked.rising, fun w' writer opened => ?_⟩
      by_cases here : w' = w
      · subst here
        simp only [Function.update_self, Option.some.injEq] at opened
        subst opened
        refine ⟨le_of_eq (List.length_map _).symm, fun e mem => ?_⟩
        obtain ⟨r, hr, rfl⟩ := List.mem_map.mp (List.mem_of_mem_take mem)
        exact admitted r hr
      · simp only [Function.update_of_ne here] at opened
        exact clocked.writers w' writer opened
    · exact clocked
  | commitRows w rows =>
    simp only [step]
    split
    · exact clocked
    · rename_i opened
      split
      · rename_i inserted
        exact commitRows_clocked clocked opened inserted fun _ _ => closed_writer
      · exact clocked.frame rfl fun _ _ => closed_writer
  | rollBack w => exact clocked.frame rfl fun _ _ => closed_writer
  | fetch i limit tie =>
    simp only [step]
    split
    · exact clocked.frame rfl fun _ _ h => h
    · exact clocked
  | publish i reply recognised =>
    simp only [step]
    split
    · cases reply <;> exact clocked.frame rfl fun _ _ h => h
    · exact clocked
  | commitBatch i =>
    simp only [step]
    split
    · exact clocked.frame (applyMarks_origins _ _) fun _ _ h => h
    · exact clocked
  | crash i => exact clocked.frame rfl fun _ _ h => h

theorem step_streamed (s : System) (e : Event) (sound : Sound s) (streamed : Streamed s) :
    Streamed (step s e) := by
  have grown := step_origins s e
  obtain ⟨stream, acknowledged⟩ |
    ⟨i, reply, recognised, now, row, rest, marks, rfl, opened, -, stream, acknowledged⟩ := step_stream s e
  · refine ⟨?_, fun m mem => ?_⟩
    · rw [acknowledged, stream]
      exact streamed.acked
    · rw [stream] at mem
      obtain ⟨l, listed, same⟩ := streamed.listed m mem
      exact ⟨l, grown.subset listed, same⟩
  · refine ⟨fun a mem => ?_, fun m mem => ?_⟩
    · rw [stream]
      rcases acknowledged a mem with old | new
      · obtain ⟨m, mem, key⟩ := streamed.acked a old
        exact ⟨m, mem_stored recognised mem, key⟩
      · rw [new]
        exact sent_stored s.stream recognised _
    · rw [stream] at mem
      rcases mem_of_mem_stored mem with old | rfl
      · obtain ⟨l, listed, same⟩ := streamed.listed m old
        exact ⟨l, grown.subset listed, same⟩
      · exact ⟨row.origin, grown.subset (rest_origin sound opened List.mem_cons_self), rfl⟩

theorem fetched_order {s : System} {limit : ℕ} {tie : String → ℕ} {front back : List Row} {l e : Row}
    (split : fetched s limit tie = front ++ l :: back) (listed : e ∈ s.table.rows)
    (ready : due s e = true) (earlier : e.createdAt < l.createdAt) : e ∈ front := by
  let sorted := (s.table.rows.filter (due s)).insertionSort (comesFirst tie)
  have total : Std.Total (comesFirst tie) := ⟨fun a b => by unfold comesFirst; omega⟩
  have trans : IsTrans Row (comesFirst tie) := ⟨fun a b c => by unfold comesFirst; omega⟩
  have whole : sorted = front ++ l :: (back ++ sorted.drop limit) := by
    have parts := List.take_append_drop limit sorted
    rw [show sorted.take limit = front ++ l :: back from split, List.append_assoc,
      List.cons_append] at parts
    exact parts.symm
  have order : sorted.Pairwise (comesFirst tie) := List.pairwise_insertionSort _ _
  have mem : e ∈ sorted := by
    rw [List.mem_insertionSort, List.mem_filter]
    exact ⟨listed, ready⟩
  rw [whole] at mem order
  rcases List.mem_append.mp mem with here | later
  · exact here
  · have after := (List.pairwise_append.mp order).2.1
    rcases List.mem_cons.mp later with rfl | behind
    · omega
    · have first := List.rel_of_pairwise_cons after behind
      unfold comesFirst at first
      omega

theorem Queued.frame {s s' : System} (queued : Queued s) (sound : Sound s) (clocked : Clocked s)
    (grown : origins s <+: origins s') (stream : ∀ m ∈ s.stream, m ∈ s'.stream)
    (batches : ∀ i b, s'.batches i = some b → s.batches i = some b) : Queued s' := by
  intro i b opened front l back split e before
  have was := batches i b opened
  have mem : l ∈ b.rest := by simp [split]
  have bound := clocked.bounded l.origin (rest_origin sound was mem)
  rcases queued i b was front l back split e (before_of_grown grown bound before) with sent | ahead
  · exact .inl (sent.mono stream)
  · exact .inr ahead

theorem unsent_unpublished {s : System} (sound : Sound s) (streamed : Streamed s) {r : Row}
    (listed : r ∈ s.table.rows) (unsent : ¬ Sent s r.toOutboxRow) : r.publishedAt = none := by
  cases published : r.publishedAt with
  | none => rfl
  | some at' =>
    obtain ⟨a, mem, same⟩ := sound.evidence r.key r (s.table.find_of_mem listed) (by rw [published]; rfl)
    obtain ⟨m, sent, key⟩ := streamed.acked a mem
    rw [same] at key
    exact absurd ⟨m, sent, key⟩ unsent

theorem fetch_queued {s : System} {i limit : ℕ} {tie : String → ℕ} (queued : Queued s)
    (sound : Sound s) (clocked : Clocked s) (streamed : Streamed s)
    (admitted : Admitted s (.fetch i limit tie)) : Queued (step s (.fetch i limit tie)) := by
  simp only [step]
  split
  · rename_i idle
    intro j b opened front l back split e before'
    have before : Before s e l.origin := ⟨before'.topic, before'.case, before'.committed⟩
    by_cases here : j = i
    · subst here
      simp only [Function.update_self, Option.some.injEq] at opened
      subst opened
      have chosen : l ∈ fetched s limit tie := by
        rw [show fetched s limit tie = front ++ l :: back from split]
        simp
      have found := (mem_fetched chosen).1
      obtain ⟨r, listed, rfl⟩ := List.mem_map.mp (List.mem_of_mem_take before.committed)
      by_cases sent : Sent s r.toOutboxRow
      · exact .inl sent
      · obtain ⟨free, ready⟩ := admitted idle l chosen r listed before sent
        have unpublished := unsent_unpublished sound streamed listed sent
        have earlier := clocked.rising l.origin (mem_origins found) r.origin before.committed
        refine .inr (List.mem_map_of_mem (fetched_order split listed ?_ earlier))
        simp [due, free, ready, unpublished]
    · simp only [Function.update_of_ne here] at opened
      exact queued j b opened front l back split e before
  · exact queued

theorem publish_queued {s : System} {i : ℕ} {reply : Reply} {recognised : Bool} (queued : Queued s)
    (admitted : Admitted s (.publish i reply recognised)) :
    Queued (step s (.publish i reply recognised)) := by
  simp only [step]
  split
  · rename_i now row rest marks opened
    -- whatever came before a row in the batch was sent, was ahead of it, or has just been tried
    have tried : ∀ {s' : System} {mark : Mark}, origins s' = origins s →
        s'.batches = Function.update s.batches i (some ⟨now, rest, marks ++ [(row.eventId, mark)]⟩) →
        (∀ m ∈ s.stream, m ∈ s'.stream) →
        (∀ l ∈ rest, Before s row.origin l.origin → Sent s' row.toOutboxRow) → Queued s' := by
      intro s' mark same batches stream sent j b opened' front l back split e before
      have before' : Before s e l.origin := ⟨before.topic, before.case, by rw [← same]; exact before.committed⟩
      rw [batches] at opened'
      by_cases here : j = i
      · subst here
        simp only [Function.update_self, Option.some.injEq] at opened'
        subst opened'
        dsimp only at split
        have whole : row :: rest = (row :: front) ++ l :: back := by rw [split]; rfl
        rcases queued j _ opened (row :: front) l back whole e before' with was | ahead
        · exact .inl (was.mono stream)
        · rcases List.mem_cons.mp ahead with rfl | ahead
          · exact .inl (sent l (by simp [split]) before')
          · exact .inr ahead
      · rw [Function.update_of_ne here] at opened'
        rcases queued j b opened' front l back split e before' with was | ahead
        · exact .inl (was.mono stream)
        · exact .inr ahead
    cases reply with
    | acked =>
      exact tried rfl rfl (fun m mem => mem_stored recognised mem) fun _ _ _ =>
        sent_stored s.stream recognised _
    | ackLost error =>
      exact tried rfl rfl (fun m mem => mem_stored recognised mem) fun _ _ _ =>
        sent_stored s.stream recognised _
    | lost error =>
      refine tried rfl rfl (fun m mem => mem) fun l mem before => ?_
      by_contra unsent
      exact admitted now row rest marks opened unsent l mem before
  · exact queued

theorem step_queued (s : System) (e : Event) (queued : Queued s) (sound : Sound s)
    (clocked : Clocked s) (streamed : Streamed s) (admitted : Admitted s e) : Queued (step s e) := by
  have grown := step_origins s e
  have closed : ∀ {i j b}, Function.update s.batches i none j = some b → s.batches j = some b := by
    intro i j b opened
    by_cases here : j = i
    · simp [here] at opened
    · simpa [here] using opened
  cases e with
  | tick microseconds => exact queued.frame sound clocked grown (fun _ h => h) fun _ _ h => h
  | begin w =>
    refine queued.frame sound clocked grown ?_ ?_ <;> simp only [step] <;> split <;> simp
  | commitRows w rows =>
    refine queued.frame sound clocked grown ?_ ?_ <;> simp only [step] <;> split <;>
      first | simp | (split <;> simp)
  | rollBack w => exact queued.frame sound clocked grown (fun _ h => h) fun _ _ h => h
  | fetch i limit tie => exact fetch_queued queued sound clocked streamed admitted
  | publish i reply recognised => exact publish_queued queued admitted
  | commitBatch i =>
    refine queued.frame sound clocked grown ?_ ?_ <;> simp only [step] <;> split
    · exact fun _ h => h
    · exact fun _ h => h
    · exact fun _ _ => closed
    · exact fun _ _ h => h
  | crash i => exact queued.frame sound clocked grown (fun _ h => h) fun _ _ => closed

theorem step_ordered (s : System) (e : Event) (ordered : Ordered s) (queued : Queued s)
    (sound : Sound s) (clocked : Clocked s) (streamed : Streamed s) : Ordered (step s e) := by
  have grown := step_origins s e
  -- a row that is new has no message yet
  have old : ∀ l ∈ origins (step s e), ∀ m ∈ s.stream, m.key = (message l.1).key → l ∈ origins s := by
    intro l listed m mem key
    obtain ⟨l', listed', key'⟩ := streamed.listed m mem
    have same : l'.1.eventId = l.1.eventId := congrArg Prod.snd (key'.symm.trans key)
    rw [← origin_eq (grown.subset listed') listed same]
    exact listed'
  have within : ∀ l ∈ origins (step s e), ∀ e', Before (step s e) e' l → ∀ front m back,
      s.stream = front ++ m :: back → m.key = (message l.1).key →
      ∃ m' ∈ front, m'.key = (message e'.1).key := by
    intro l listed e' before front m back split key
    have was := old l listed m (by simp [split]) key
    exact ordered l was e' (before_of_grown grown (clocked.bounded l was) before) front m back split key
  obtain ⟨stream, -⟩ |
    ⟨i, reply, recognised, now, row, rest, marks, rfl, opened, -, stream, -⟩ := step_stream s e
  · intro l listed e' before front m back split key
    rw [stream] at split
    exact within l listed e' before front m back split key
  · intro l listed e' before front m back split key
    rw [stream, stored] at split
    split at split
    · exact within l listed e' before front m back split key
    · rcases List.eq_nil_or_concat back with rfl | ⟨back, last, rfl⟩
      · -- the message is the one just stored, the first of the batch
        obtain ⟨rfl, same⟩ := List.append_inj' split rfl
        obtain rfl := (List.cons.inj same).1
        have mine := rest_origin sound opened List.mem_cons_self
        have equal : row.origin = l :=
          origin_eq (grown.subset mine) listed (congrArg Prod.snd key)
        subst equal
        have before' := before_of_grown grown (clocked.bounded _ mine) before
        rcases queued i _ opened [] row rest rfl e' before' with sent | ahead
        · exact sent
        · cases ahead
      · have split' : s.stream ++ [message row.toOutboxRow] = (front ++ m :: back) ++ [last] := by
          rw [split]
          simp
        exact within l listed e' before front m back (List.append_inj' split' rfl).1 key

/-- In a run of admitted steps, with any number of relays, failures and
crashes, rows of one topic and case are first published in the order of their
transactions. -/
theorem relay_preservesOrder (es : List Event) (admitted : EventRun.Along step Admitted start es) :
    EventRun.Throughout step Ordered start es := by
  refine EventRun.throughout_of_along
    (I := fun s => Sound s ∧ Clocked s ∧ Streamed s ∧ Queued s ∧ Ordered s)
    (fun s e known ok => ?_) (fun s known => known.2.2.2.2) ?_ admitted
  · obtain ⟨sound, clocked, streamed, queued, ordered⟩ := known
    exact ⟨step_sound s e sound, step_clocked s e clocked ok, step_streamed s e sound streamed,
      step_queued s e queued sound clocked streamed ok,
      step_ordered s e ordered queued sound clocked streamed⟩
  · exact ⟨start_sound, ⟨nofun, nofun, nofun⟩, ⟨nofun, nofun⟩, nofun, nofun⟩

def sampleRow (eventId : String) (newVersion : Int) : OutboxRow :=
  ⟨eventId, "investigation.case.state_changed",
    .obj [("case_id", .str "01ARZ3NDEKTSV4RRFFQ69G5FC1"),
      ("payload", .obj [("new_version", .int newVersion)])]⟩

def firstRow : OutboxRow := sampleRow "01ARZ3NDEKTSV4RRFFQ69G5FE1" 2

def secondRow : OutboxRow := sampleRow "01ARZ3NDEKTSV4RRFFQ69G5FE2" 3

def twoSteps : List Event :=
  [ .begin 0, .commitRows 0 [firstRow], .tick 1, .begin 0, .commitRows 0 [secondRow],
    .fetch 0 100 fun _ => 0 ]

theorem twoSteps_inOrder :
    EventRun.Along step Admitted start (twoSteps ++ [.publish 0 .acked true, .crash 0]) ∧
      EventRun.Throughout step Ordered start (twoSteps ++ [.publish 0 .acked true, .crash 0]) := by
  have along : EventRun.Along step Admitted start (twoSteps ++ [.publish 0 .acked true, .crash 0]) := by
    refine ⟨nofun, trivial, trivial, ?_, trivial, ?_, trivial, trivial, trivial⟩
    · intro r mem
      change r ∈ [(⟨firstRow, 0, none, 0, 0, 0⟩ : Row)] at mem
      rw [List.mem_singleton.mp mem]
      decide
    · intro _ l _ e mem _ _
      change e ∈ [(⟨firstRow, 0, none, 0, 0, 0⟩ : Row), ⟨secondRow, 1, none, 0, 1, 1⟩] at mem
      refine ⟨rfl, ?_⟩
      rcases List.mem_cons.mp mem with rfl | mem
      · decide
      · rw [List.mem_singleton.mp mem]
        decide
  exact ⟨along, relay_preservesOrder _ along⟩

/-- The publish of the first announcement is lost and that of the second is not. -/
theorem lostFirst_unordered :
    ¬ Ordered (run (twoSteps ++ [.publish 0 (.lost "timeout") true, .publish 0 .acked true])) := by
  intro ordered
  have listed : origins (run (twoSteps ++ [.publish 0 (.lost "timeout") true, .publish 0 .acked true])) =
      [(firstRow, 0, 0), (secondRow, 1, 1)] := by rfl
  have stream : (run (twoSteps ++
      [.publish 0 (.lost "timeout") true, .publish 0 .acked true])).stream = [message secondRow] := by rfl
  obtain ⟨m, mem, -⟩ := ordered (secondRow, 1, 1) (by rw [listed]; simp) (firstRow, 0, 0)
    ⟨rfl, rfl, by rw [listed]; simp⟩ [] (message secondRow) [] stream rfl
  cases mem

end Mirage.RelayOrder
