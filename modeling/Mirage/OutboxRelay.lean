import Mirage.AuditOutbox

/-! mirage-outbox-relay: any number of relay instances publish the rows of `outbox_events`
to JetStream. `relay_once` is one transaction. -/

namespace Mirage.OutboxRelay
open AuditOutbox

structure Row extends OutboxRow where
  createdAt : ℕ
  publishedAt : Option ℕ
  attempts : ℕ
  nextAttemptAt : ℕ
  /-- How many rows were committed when the transaction that wrote this one began. -/
  seen : ℕ

def Row.key (r : Row) : String := r.eventId

structure Message where
  subject : String
  payload : Json
  /-- The header `Nats-Msg-Id`. -/
  msgId : String

inductive Mark where
  | published (at' : ℕ)
  | failed (attempts nextAttemptAt : ℕ)

/-- An open transaction of `relay_once`. -/
structure Batch where
  now : ℕ
  rest : List Row
  marks : List (String × Mark)

structure Writer where
  startedAt : ℕ
  seen : ℕ

structure RelayAlert where
  eventId : String
  topic : String
  attempts : ℕ
  error : String

/-- A call of `publish_event` that returned. -/
structure Acknowledged where
  relay : ℕ
  message : Message

structure System where
  clock : ℕ
  table : KeyedTable Row.key
  writers : ℕ → Option Writer
  batches : ℕ → Option Batch
  holder : String → Option ℕ
  /-- What the streams have stored, oldest first. -/
  stream : List Message
  acknowledged : List Acknowledged
  history : List (String × Mark)
  alerts : List RelayAlert

/-- How `js.publish` ends. -/
inductive Reply where
  | acked
  | ackLost (error : String)
  | lost (error : String)

inductive Event where
  | tick (microseconds : ℕ)
  | begin (w : ℕ)
  | commitRows (w : ℕ) (rows : List OutboxRow)
  | rollBack (w : ℕ)
  /-- Relay `i` fetches up to `limit` rows; rows of one `created_at` come in any order. -/
  | fetch (i limit : ℕ) (tie : String → ℕ)
  /-- Relay `i` tries the next row. With `recognised`, the server drops a
  message whose id it has stored. -/
  | publish (i : ℕ) (reply : Reply) (recognised : Bool)
  | commitBatch (i : ℕ)
  | crash (i : ℕ)

def alertAfterAttempts : ℕ := 10

def backoffSeconds : List ℕ := [1, 5, 25, 125, 625]

/-- `BACKOFF_SECONDS[min(new_attempts - 1, len(BACKOFF_SECONDS) - 1)]`. -/
def backoff (newAttempts : ℕ) : ℕ :=
  backoffSeconds.getD (min (newAttempts - 1) (backoffSeconds.length - 1)) 0 * 10 ^ 6

def due (s : System) (r : Row) : Bool :=
  r.publishedAt.isNone && r.nextAttemptAt ≤ s.clock && (s.holder r.eventId).isNone

def comesFirst (tie : String → ℕ) (a b : Row) : Prop :=
  a.createdAt < b.createdAt ∨ a.createdAt = b.createdAt ∧ tie a.eventId ≤ tie b.eventId

instance (tie : String → ℕ) : DecidableRel (comesFirst tie) := fun a b =>
  inferInstanceAs (Decidable
    (a.createdAt < b.createdAt ∨ a.createdAt = b.createdAt ∧ tie a.eventId ≤ tie b.eventId))

/-- `SELECT … ORDER BY created_at FOR UPDATE SKIP LOCKED LIMIT …`. -/
def fetched (s : System) (limit : ℕ) (tie : String → ℕ) : List Row :=
  ((s.table.rows.filter (due s)).insertionSort (comesFirst tie)).take limit

def message (r : OutboxRow) : Message := ⟨r.topic, r.payload, r.eventId⟩

def stored (recognised : Bool) (m : Message) (stream : List Message) : List Message :=
  if recognised && stream.any (fun m' => m'.subject = m.subject && m'.msgId = m.msgId) then stream
  else stream ++ [m]

def newRow (w : Writer) (r : OutboxRow) : Row := ⟨r, w.startedAt, none, 0, w.startedAt, w.seen⟩

def insertAll (table : KeyedTable Row.key) : List Row → Option (KeyedTable Row.key)
  | [] => some table
  | r :: rest => (table.insert r).bind fun table => insertAll table rest

def applyMark (m : Mark) (r : Row) : Row :=
  match m with
  | .published at' => { r with publishedAt := some at' }
  | .failed attempts nextAttemptAt => { r with attempts, nextAttemptAt }

theorem applyMark_row (m : Mark) (r : Row) : (applyMark m r).toOutboxRow = r.toOutboxRow := by
  cases m <;> rfl

theorem applyMark_key (m : Mark) (r : Row) : (applyMark m r).key = r.key :=
  congrArg OutboxRow.eventId (applyMark_row m r)

def applyMarks (table : KeyedTable Row.key) (marks : List (String × Mark)) : KeyedTable Row.key :=
  marks.foldl (fun table entry => table.update entry.1 (applyMark entry.2) (applyMark_key entry.2))
    table

def release (s : System) (i : ℕ) : System :=
  { s with
    batches := Function.update s.batches i none
    holder := fun id => if s.holder id = some i then none else s.holder id }

def attempt (s : System) (i : ℕ) (b : Batch) (row : Row) (rest : List Row) (reply : Reply)
    (recognised : Bool) : System :=
  let newAttempts := row.attempts + 1
  let next := fun mark =>
    Function.update s.batches i (some ⟨b.now, rest, b.marks ++ [(row.eventId, mark)]⟩)
  let failed := Mark.failed newAttempts (b.now + backoff newAttempts)
  let alert := fun error =>
    if newAttempts ≥ alertAfterAttempts then [⟨row.eventId, row.topic, newAttempts, error⟩] else []
  match reply with
  | .acked =>
    { s with
      batches := next (.published b.now)
      stream := stored recognised (message row.toOutboxRow) s.stream
      acknowledged := s.acknowledged ++ [⟨i, message row.toOutboxRow⟩] }
  | .ackLost error =>
    { s with
      batches := next failed
      stream := stored recognised (message row.toOutboxRow) s.stream
      alerts := s.alerts ++ alert error }
  | .lost error =>
    { s with
      batches := next failed
      alerts := s.alerts ++ alert error }

def step (s : System) : Event → System
  | .tick microseconds => { s with clock := s.clock + microseconds }
  | .begin w =>
    match s.writers w with
    | none => { s with writers := Function.update s.writers w (some ⟨s.clock, s.table.rows.length⟩) }
    | some _ => s
  | .commitRows w rows =>
    match s.writers w with
    | none => s
    | some writer =>
      match insertAll s.table (rows.map (newRow writer)) with
      | some table => { s with table, writers := Function.update s.writers w none }
      | none => { s with writers := Function.update s.writers w none }
  | .rollBack w => { s with writers := Function.update s.writers w none }
  | .fetch i limit tie =>
    match s.batches i with
    | none =>
      let rows := fetched s limit tie
      { s with
        batches := Function.update s.batches i (some ⟨s.clock, rows, []⟩)
        holder := fun id => if id ∈ rows.map Row.key then some i else s.holder id }
    | some _ => s
  | .publish i reply recognised =>
    match s.batches i with
    | some ⟨now, row :: rest, marks⟩ => attempt s i ⟨now, row :: rest, marks⟩ row rest reply recognised
    | _ => s
  | .commitBatch i =>
    match s.batches i with
    | some ⟨_, [], marks⟩ =>
      { release s i with table := applyMarks s.table marks, history := s.history ++ marks }
    | _ => s
  | .crash i => release s i

def start : System where
  clock := 0
  table := .empty
  writers := fun _ => none
  batches := fun _ => none
  holder := fun _ => none
  stream := []
  acknowledged := []
  history := []
  alerts := []

def run (es : List Event) : System := EventRun.run step start es

def Batch.ids (b : Batch) : List String := b.rest.map Row.key ++ b.marks.map Prod.fst

def Mark.isFailed : Mark → Bool
  | published _ => false
  | failed _ _ => true

def failures (history : List (String × Mark)) (id : String) : ℕ :=
  history.countP fun entry => entry.1 = id && entry.2.isFailed

/-! Tables after the statements of a transaction. -/

theorem insertAll_rows {rows : List Row} {t t' : KeyedTable Row.key}
    (h : insertAll t rows = some t') : t'.rows = t.rows ++ rows := by
  induction rows generalizing t with
  | nil =>
    cases h
    exact (List.append_nil _).symm
  | cons r rest ih =>
    simp only [insertAll, Option.bind_eq_some_iff] at h
    obtain ⟨t₁, inserted, later⟩ := h
    rw [ih later, (KeyedTable.insert_eq_some inserted).2, List.append_assoc]
    rfl

theorem find_insertAll {rows : List Row} {t t' : KeyedTable Row.key}
    (h : insertAll t rows = some t') (id : String) (r : Row) :
    t'.find id = some r ↔ t.find id = some r ∨ t.find id = none ∧ r ∈ rows ∧ r.key = id := by
  have all := insertAll_rows h
  have unique := t'.unique
  rw [all, List.map_append, List.nodup_append] at unique
  rw [KeyedTable.find_eq_some, KeyedTable.find_eq_some, KeyedTable.find_eq_none, all, List.mem_append]
  constructor
  · rintro ⟨old | new, key⟩
    · exact .inl ⟨old, key⟩
    · refine .inr ⟨fun taken => ?_, new, key⟩
      exact unique.2.2 id taken id (key ▸ List.mem_map_of_mem new) rfl
  · rintro (⟨old, key⟩ | ⟨-, new, key⟩)
    · exact ⟨.inl old, key⟩
    · exact ⟨.inr new, key⟩

def markOf (marks : List (String × Mark)) (id : String) : Option Mark :=
  (marks.find? fun entry => entry.1 = id).map Prod.snd

theorem markOf_cons (entry : String × Mark) (rest : List (String × Mark)) (eventId : String) :
    markOf (entry :: rest) eventId =
      if entry.1 = eventId then some entry.2 else markOf rest eventId := by
  by_cases here : entry.1 = eventId <;> simp [markOf, here]

def lastMark (history : List (String × Mark)) (eventId : String) : Option Mark :=
  markOf history.reverse eventId

def marked (mark : Option Mark) (r : Row) : Row :=
  match mark with
  | some m => applyMark m r
  | none => r

theorem find_applyMarks {marks : List (String × Mark)} (unique : (marks.map Prod.fst).Nodup)
    (t : KeyedTable Row.key) (eventId : String) :
    (applyMarks t marks).find eventId = (t.find eventId).map (marked (markOf marks eventId)) := by
  induction marks generalizing t with
  | nil =>
    have same : marked none = id := rfl
    simp [applyMarks, markOf, same]
  | cons entry rest ih =>
    obtain ⟨key, m⟩ := entry
    rw [List.map_cons, List.nodup_cons] at unique
    have later := ih unique.2 (t.update key (applyMark m) (applyMark_key m))
    rw [applyMarks, List.foldl_cons, ← applyMarks, later, KeyedTable.find_update]
    by_cases here : eventId = key
    · subst here
      have absent : markOf rest eventId = none := by
        simp only [markOf, Option.map_eq_none_iff, List.find?_eq_none, decide_eq_true_eq]
        intro entry mem same
        exact unique.1 (List.mem_map.mpr ⟨entry, mem, same⟩)
      simp only [absent, markOf_cons, if_true, Option.map_map]
      rfl
    · simp [markOf_cons, here, Ne.symm here]

theorem markOf_eq_some {marks : List (String × Mark)} (unique : (marks.map Prod.fst).Nodup)
    {eventId : String} {m : Mark} : markOf marks eventId = some m ↔ (eventId, m) ∈ marks := by
  simp only [markOf, Option.map_eq_some_iff]
  constructor
  · rintro ⟨entry, found, rfl⟩
    have key : entry.1 = eventId := by simpa using List.find?_some found
    rw [← key]
    exact List.mem_of_find?_eq_some found
  · intro mem
    cases found : marks.find? fun entry => entry.1 = eventId with
    | none => simpa using List.find?_eq_none.mp found _ mem
    | some entry =>
      have key : entry.1 = eventId := by simpa using List.find?_some found
      have same := List.inj_on_of_nodup_map unique (List.mem_of_find?_eq_some found) mem key
      exact ⟨entry, rfl, by rw [same]⟩

theorem markOf_eq_none {marks : List (String × Mark)} {eventId : String} :
    markOf marks eventId = none ↔ eventId ∉ marks.map Prod.fst := by
  simp only [markOf, Option.map_eq_none_iff, List.find?_eq_none, decide_eq_true_eq, List.mem_map,
    not_exists, not_and]

def Justified (s : System) (r : Row) : Mark → Prop
  | .published _ => ∃ a ∈ s.acknowledged, a.message = message r.toOutboxRow
  | .failed attempts _ => attempts = r.attempts + 1

/-- One open transaction: it has the rows of its batch locked, and they are
still as it fetched them. -/
structure Fair (s : System) (i : ℕ) (b : Batch) : Prop where
  held : ∀ eventId ∈ b.ids, s.holder eventId = some i
  distinct : b.ids.Nodup
  current : ∀ r ∈ b.rest, s.table.find r.key = some r ∧ r.publishedAt = none
  marks : ∀ eventId m, (eventId, m) ∈ b.marks →
    ∃ r, s.table.find eventId = some r ∧ r.publishedAt = none ∧ Justified s r m

structure Sound (s : System) : Prop where
  fair : ∀ i b, s.batches i = some b → Fair s i b
  known : ∀ entry ∈ s.history, ∃ r, s.table.find entry.1 = some r
  evidence : ∀ eventId r, s.table.find eventId = some r → r.publishedAt.isSome = true →
    ∃ a ∈ s.acknowledged, a.message = message r.toOutboxRow
  counted : ∀ eventId r, s.table.find eventId = some r → r.attempts = failures s.history eventId
  unpublished : ∀ eventId r, s.table.find eventId = some r →
    (lastMark s.history eventId).any Mark.isFailed = true → r.publishedAt = none

theorem Justified.mono {s s' : System} {r : Row} {m : Mark} (justified : Justified s r m)
    (acknowledged : ∀ a ∈ s.acknowledged, a ∈ s'.acknowledged) : Justified s' r m := by
  cases m with
  | published at' =>
    obtain ⟨a, mem, same⟩ := justified
    exact ⟨a, acknowledged a mem, same⟩
  | failed attempts next => exact justified

theorem Fair.mono {s s' : System} {i : ℕ} {b : Batch} (fair : Fair s i b)
    (holder : ∀ eventId ∈ b.ids, s'.holder eventId = s.holder eventId)
    (table : ∀ eventId ∈ b.ids, s'.table.find eventId = s.table.find eventId)
    (acknowledged : ∀ a ∈ s.acknowledged, a ∈ s'.acknowledged) : Fair s' i b := by
  refine ⟨fun eventId mem => ?_, fair.distinct, fun r mem => ?_, fun eventId m mem => ?_⟩
  · rw [holder eventId mem]
    exact fair.held eventId mem
  · rw [table r.key (List.mem_append_left _ (List.mem_map_of_mem mem))]
    exact fair.current r mem
  · obtain ⟨r, found, unpublished, justified⟩ := fair.marks eventId m mem
    refine ⟨r, ?_, unpublished, justified.mono acknowledged⟩
    rw [table eventId (List.mem_append_right _ (List.mem_map.mpr ⟨_, mem, rfl⟩))]
    exact found

theorem fair_disjoint {s : System} {i j : ℕ} {b b' : Batch} (fair : Fair s i b) (fair' : Fair s j b')
    (other : i ≠ j) : ∀ eventId ∈ b.ids, eventId ∉ b'.ids := by
  intro eventId mem mem'
  have mine := fair.held eventId mem
  rw [fair'.held eventId mem'] at mine
  exact other (Option.some.inj mine).symm

theorem start_sound : Sound start := by
  refine ⟨fun i b h => ?_, fun entry h => ?_, fun eventId r h => ?_, fun eventId r h => ?_,
    fun eventId r h => ?_⟩
  all_goals cases h

theorem failures_eq_zero {s : System} (known : ∀ entry ∈ s.history, ∃ r, s.table.find entry.1 = some r)
    {eventId : String} (fresh : s.table.find eventId = none) : failures s.history eventId = 0 := by
  rw [failures, List.countP_eq_zero]
  intro entry mem
  simp only [Bool.and_eq_true, decide_eq_true_eq]
  rintro ⟨rfl, -⟩
  obtain ⟨r, found⟩ := known entry mem
  rw [fresh] at found
  cases found

theorem commitRows_sound {s : System} (sound : Sound s) {w : ℕ} {writer : Writer}
    {rows : List OutboxRow} {table : KeyedTable Row.key}
    (inserted : insertAll s.table (rows.map (newRow writer)) = some table) :
    Sound { s with table, writers := Function.update s.writers w none } := by
  have old : ∀ {eventId r}, s.table.find eventId = some r → table.find eventId = some r :=
    fun found => (find_insertAll inserted _ _).mpr (.inl found)
  -- a row of the new table is an old one, or a new one that nothing was written about
  have cases : ∀ {eventId r}, table.find eventId = some r → s.table.find eventId = some r ∨
      s.table.find eventId = none ∧ r.publishedAt = none ∧ r.attempts = 0 := by
    intro eventId r found
    rcases (find_insertAll inserted eventId r).mp found with was | ⟨fresh, new, -⟩
    · exact .inl was
    · obtain ⟨row, -, rfl⟩ := List.mem_map.mp new
      exact .inr ⟨fresh, rfl, rfl⟩
  refine ⟨fun i b open' => ?_, fun entry mem => ?_, fun eventId r found published => ?_,
    fun eventId r found => ?_, fun eventId r found last => ?_⟩
  · have fair := sound.fair i b open'
    refine ⟨fair.held, fair.distinct, fun r mem => ?_, fun eventId m mem => ?_⟩
    · exact ⟨old (fair.current r mem).1, (fair.current r mem).2⟩
    · obtain ⟨r, found, unpublished, justified⟩ := fair.marks eventId m mem
      exact ⟨r, old found, unpublished, justified.mono fun _ h => h⟩
  · obtain ⟨r, found⟩ := sound.known entry mem
    exact ⟨r, old found⟩
  · rcases cases found with was | ⟨-, unpublished, -⟩
    · exact sound.evidence eventId r was published
    · rw [unpublished] at published
      cases published
  · rcases cases found with was | ⟨fresh, -, none⟩
    · exact sound.counted eventId r was
    · rw [none]
      exact (failures_eq_zero sound.known fresh).symm
  · rcases cases found with was | ⟨-, unpublished, -⟩
    · exact sound.unpublished eventId r was last
    · exact unpublished

theorem mem_fetched {s : System} {limit : ℕ} {tie : String → ℕ} {r : Row}
    (mem : r ∈ fetched s limit tie) : s.table.find r.key = some r ∧ due s r = true := by
  have sorted := List.mem_of_mem_take mem
  rw [List.mem_insertionSort, List.mem_filter] at sorted
  exact ⟨s.table.find_of_mem sorted.1, sorted.2⟩

theorem fetched_distinct (s : System) (limit : ℕ) (tie : String → ℕ) :
    ((fetched s limit tie).map Row.key).Nodup := by
  have filtered : ((s.table.rows.filter (due s)).map Row.key).Nodup :=
    s.table.unique.sublist (List.filter_sublist.map Row.key)
  have sorted := ((List.perm_insertionSort (comesFirst tie) _).map Row.key).symm.nodup filtered
  exact sorted.sublist ((List.take_sublist limit _).map Row.key)

theorem fetch_sound {s : System} (sound : Sound s) {i : ℕ} (limit : ℕ) (tie : String → ℕ) :
    Sound { s with
      batches := Function.update s.batches i (some ⟨s.clock, fetched s limit tie, []⟩)
      holder := fun eventId =>
        if eventId ∈ (fetched s limit tie).map Row.key then some i else s.holder eventId } := by
  refine ⟨fun j b open' => ?_, sound.known, sound.evidence, sound.counted, sound.unpublished⟩
  by_cases here : j = i
  · subst here
    simp only [Function.update_self, Option.some.injEq] at open'
    subst open'
    refine ⟨fun eventId mem => ?_, ?_, fun r mem => ?_, fun eventId m mem => nomatch mem⟩
    · simp only [Batch.ids, List.map_nil, List.append_nil] at mem
      exact if_pos mem
    · simpa [Batch.ids] using fetched_distinct s limit tie
    · obtain ⟨found, ready⟩ := mem_fetched mem
      simp only [due, Bool.and_eq_true, Option.isNone_iff_eq_none] at ready
      exact ⟨found, ready.1.1⟩
  · simp only [Function.update_of_ne here] at open'
    have fair := sound.fair j b open'
    refine fair.mono (fun eventId mem => if_neg fun taken => ?_) (fun _ _ => rfl) fun _ h => h
    -- what another relay has locked is skipped
    obtain ⟨r, chosen, rfl⟩ := List.mem_map.mp taken
    have ready := (mem_fetched chosen).2
    have held : s.holder r.eventId = some j := fair.held r.key mem
    simp [due, held] at ready

theorem tried_sound {s s' : System} (sound : Sound s) {i now : ℕ} {row : Row} {rest : List Row}
    {marks : List (String × Mark)} {mark : Mark}
    (opened : s.batches i = some ⟨now, row :: rest, marks⟩)
    (batches : s'.batches =
      Function.update s.batches i (some ⟨now, rest, marks ++ [(row.eventId, mark)]⟩))
    (table : s'.table = s.table) (holder : s'.holder = s.holder) (history : s'.history = s.history)
    (acknowledged : ∀ a ∈ s.acknowledged, a ∈ s'.acknowledged) (justified : Justified s' row mark) :
    Sound s' := by
  have fair := sound.fair i _ opened
  have moved : (Batch.ids ⟨now, rest, marks ++ [(row.eventId, mark)]⟩).Perm
      (Batch.ids ⟨now, row :: rest, marks⟩) := by
    simp only [Batch.ids, List.map_append, List.map_cons, List.map_nil]
    rw [← List.append_assoc]
    exact List.perm_append_singleton row.key _
  refine ⟨fun j b open' => ?_, ?_, fun eventId r found published => ?_, ?_, ?_⟩
  · rw [batches] at open'
    by_cases here : j = i
    · subst here
      simp only [Function.update_self, Option.some.injEq] at open'
      subst open'
      refine ⟨fun eventId mem => ?_, moved.symm.nodup fair.distinct, fun r mem => ?_,
        fun eventId m mem => ?_⟩
      · rw [holder]
        exact fair.held eventId (moved.mem_iff.mp mem)
      · rw [table]
        exact fair.current r (List.mem_cons_of_mem row mem)
      · rw [table]
        rcases List.mem_append.mp mem with old | new
        · obtain ⟨r, found, unpublished, was⟩ := fair.marks eventId m old
          exact ⟨r, found, unpublished, was.mono acknowledged⟩
        · cases List.mem_singleton.mp new
          obtain ⟨found, unpublished⟩ := fair.current row List.mem_cons_self
          exact ⟨row, found, unpublished, justified⟩
    · rw [Function.update_of_ne here] at open'
      exact (sound.fair j b open').mono (fun _ _ => by rw [holder]) (fun _ _ => by rw [table])
        acknowledged
  · rw [history, table]
    exact sound.known
  · rw [table] at found
    obtain ⟨a, mem, same⟩ := sound.evidence eventId r found published
    exact ⟨a, acknowledged a mem, same⟩
  · rw [history, table]
    exact sound.counted
  · rw [history, table]
    exact sound.unpublished

theorem attempt_sound {s : System} (sound : Sound s) {i now : ℕ} {row : Row} {rest : List Row}
    {marks : List (String × Mark)} (opened : s.batches i = some ⟨now, row :: rest, marks⟩)
    (reply : Reply) (recognised : Bool) :
    Sound (attempt s i ⟨now, row :: rest, marks⟩ row rest reply recognised) := by
  cases reply with
  | acked =>
    refine tried_sound sound opened rfl rfl rfl rfl (fun a mem => List.mem_append_left _ mem) ?_
    exact ⟨_, List.mem_append_right _ (List.mem_singleton_self _), rfl⟩
  | ackLost error => exact tried_sound sound opened rfl rfl rfl rfl (fun _ mem => mem) rfl
  | lost error => exact tried_sound sound opened rfl rfl rfl rfl (fun _ mem => mem) rfl

theorem released_fair {s : System} (sound : Sound s) {i j : ℕ} {b : Batch} (other : j ≠ i)
    (opened : s.batches j = some b) : Fair (release s i) j b := by
  refine (sound.fair j b opened).mono (fun eventId mem => ?_) (fun _ _ => rfl) fun _ h => h
  have held := (sound.fair j b opened).held eventId mem
  simp [release, held, other]

theorem crash_sound {s : System} (sound : Sound s) (i : ℕ) : Sound (release s i) := by
  refine ⟨fun j b open' => ?_, sound.known, sound.evidence, sound.counted, sound.unpublished⟩
  by_cases here : j = i
  · subst here
    simp [release] at open'
  · exact released_fair sound here (by simpa [release, here] using open')

theorem failures_append {marks : List (String × Mark)} (unique : (marks.map Prod.fst).Nodup)
    (history : List (String × Mark)) (eventId : String) :
    failures (history ++ marks) eventId = failures history eventId +
      if (markOf marks eventId).any Mark.isFailed then 1 else 0 := by
  rw [failures, List.countP_append, ← failures]
  congr 1
  induction marks with
  | nil => rfl
  | cons entry rest ih =>
    rw [List.map_cons, List.nodup_cons] at unique
    rw [List.countP_cons, ih unique.2]
    by_cases here : entry.1 = eventId
    · have absent : markOf rest eventId = none := markOf_eq_none.mpr (here ▸ unique.1)
      simp [absent, markOf_cons, here]
    · simp [markOf_cons, here]

theorem lastMark_append {marks : List (String × Mark)} (unique : (marks.map Prod.fst).Nodup)
    (history : List (String × Mark)) (eventId : String) :
    lastMark (history ++ marks) eventId = (markOf marks eventId).or (lastMark history eventId) := by
  have reversed : markOf marks.reverse eventId = markOf marks eventId := by
    have unique' : (marks.reverse.map Prod.fst).Nodup := by
      rw [List.map_reverse]
      exact List.nodup_reverse.mpr unique
    ext m
    rw [markOf_eq_some unique', markOf_eq_some unique, List.mem_reverse]
  rw [lastMark, List.reverse_append, markOf, List.find?_append, ← reversed]
  cases h : marks.reverse.find? fun entry => entry.1 = eventId with
  | none => simp [markOf, h, lastMark]
  | some entry => simp [markOf, h]

theorem commitBatch_sound {s : System} (sound : Sound s) {i now : ℕ} {marks : List (String × Mark)}
    (opened : s.batches i = some ⟨now, [], marks⟩) :
    Sound { release s i with table := applyMarks s.table marks, history := s.history ++ marks } := by
  have fair := sound.fair i _ opened
  have unique : (marks.map Prod.fst).Nodup := by simpa [Batch.ids] using fair.distinct
  have find := find_applyMarks unique s.table
  -- a row of the new table is the old one with the update of this batch, if it has one
  have before : ∀ {eventId r'}, (applyMarks s.table marks).find eventId = some r' → ∃ r,
      s.table.find eventId = some r ∧ r' = marked (markOf marks eventId) r := by
    intro eventId r' found
    rw [find] at found
    obtain ⟨r, was, same⟩ := Option.map_eq_some_iff.mp found
    exact ⟨r, was, same.symm⟩
  have justified : ∀ {eventId r m}, s.table.find eventId = some r → markOf marks eventId = some m →
      r.publishedAt = none ∧ Justified s r m := by
    intro eventId r m found mark
    obtain ⟨r₁, found₁, unpublished, justified⟩ :=
      fair.marks eventId m ((markOf_eq_some unique).mp mark)
    rw [found] at found₁
    cases found₁
    exact ⟨unpublished, justified⟩
  refine ⟨fun j b open' => ?_, fun entry mem => ?_, fun eventId r' found published => ?_,
    fun eventId r' found => ?_, fun eventId r' found last => ?_⟩
  · have other : j ≠ i := by
      rintro rfl
      simp [release] at open'
    have was : s.batches j = some b := by simpa [release, other] using open'
    refine (released_fair sound other was).mono (fun _ _ => rfl) (fun eventId mem => ?_) fun _ h => h
    have apart := fair_disjoint (sound.fair j b was) fair other eventId mem
    have absent : markOf marks eventId = none := markOf_eq_none.mpr (by simpa [Batch.ids] using apart)
    have same : marked none = id := rfl
    simp [find, absent, same, release]
  · have known : ∃ r, s.table.find entry.1 = some r := by
      rcases List.mem_append.mp mem with old | new
      · exact sound.known entry old
      · obtain ⟨r, found, -⟩ := fair.marks entry.1 entry.2 new
        exact ⟨r, found⟩
    obtain ⟨r, found⟩ := known
    exact ⟨_, by rw [find, found]; rfl⟩
  · obtain ⟨r, was, rfl⟩ := before found
    cases mark : markOf marks eventId with
    | none =>
      rw [mark] at published
      exact sound.evidence eventId r was published
    | some m =>
      obtain ⟨unpublished, reason⟩ := justified was mark
      rw [mark] at published
      cases m with
      | published at' => exact reason
      | failed attempts next =>
        simp [marked, applyMark, unpublished] at published
  · obtain ⟨r, was, rfl⟩ := before found
    have count := sound.counted eventId r was
    rw [failures_append unique]
    cases mark : markOf marks eventId with
    | none => simpa [marked] using count
    | some m =>
      obtain ⟨-, reason⟩ := justified was mark
      cases m with
      | published at' => simpa [marked, applyMark, Mark.isFailed] using count
      | failed attempts next =>
        simp only [Justified] at reason
        simp only [marked, applyMark, Mark.isFailed, Option.any_some, if_true]
        omega
  · obtain ⟨r, was, rfl⟩ := before found
    rw [lastMark_append unique] at last
    cases mark : markOf marks eventId with
    | none =>
      rw [mark, Option.none_or] at last
      exact sound.unpublished eventId r was last
    | some m =>
      obtain ⟨unpublished, -⟩ := justified was mark
      rw [mark, Option.some_or, Option.any_some] at last
      cases m with
      | published at' => cases last
      | failed attempts next => exact unpublished

theorem step_sound (s : System) (e : Event) (sound : Sound s) : Sound (step s e) := by
  have frame : ∀ (clock : ℕ) (writers : ℕ → Option Writer), Sound { s with clock, writers } := by
    intro clock writers
    exact ⟨fun i b h => (sound.fair i b h).mono (fun _ _ => rfl) (fun _ _ => rfl) fun _ h => h,
      sound.known, sound.evidence, sound.counted, sound.unpublished⟩
  cases e with
  | tick microseconds => exact frame _ _
  | begin w =>
    simp only [step]
    split
    · exact frame _ _
    · exact sound
  | commitRows w rows =>
    simp only [step]
    split
    · exact sound
    · split
      · rename_i inserted
        exact commitRows_sound sound inserted
      · exact frame _ _
  | rollBack w => exact frame _ _
  | fetch i limit tie =>
    simp only [step]
    split
    · exact fetch_sound sound limit tie
    · exact sound
  | publish i reply recognised =>
    simp only [step]
    split
    · rename_i opened
      exact attempt_sound sound opened reply recognised
    · exact sound
  | commitBatch i =>
    simp only [step]
    split
    · rename_i opened
      exact commitBatch_sound sound opened
    · exact sound
  | crash i => exact crash_sound sound i

theorem run_sound (es : List Event) : Sound (run es) :=
  EventRun.run_invariant step_sound start_sound es

/-! What never changes about a row, and how the streams grow. -/

def Row.origin (r : Row) : OutboxRow × ℕ × ℕ := (r.toOutboxRow, r.createdAt, r.seen)

theorem applyMark_origin (m : Mark) (r : Row) : (applyMark m r).origin = r.origin := by
  cases m <;> rfl

theorem applyMarks_origins (t : KeyedTable Row.key) (marks : List (String × Mark)) :
    (applyMarks t marks).rows.map Row.origin = t.rows.map Row.origin := by
  induction marks generalizing t with
  | nil => rfl
  | cons entry rest ih =>
    rw [applyMarks, List.foldl_cons, ← applyMarks, ih, KeyedTable.update, List.map_map]
    apply List.map_congr_left
    intro r _
    by_cases here : r.key = entry.1 <;> simp [here, applyMark_origin]

theorem step_origins (s : System) (e : Event) :
    s.table.rows.map Row.origin <+: (step s e).table.rows.map Row.origin := by
  cases e with
  | tick microseconds => exact List.prefix_refl _
  | begin w =>
    simp only [step]
    split <;> exact List.prefix_refl _
  | commitRows w rows =>
    simp only [step]
    split
    · exact List.prefix_refl _
    · split
      · rename_i inserted
        rw [insertAll_rows inserted, List.map_append]
        exact List.prefix_append _ _
      · exact List.prefix_refl _
  | rollBack w => exact List.prefix_refl _
  | fetch i limit tie =>
    simp only [step]
    split <;> exact List.prefix_refl _
  | publish i reply recognised =>
    simp only [step]
    split
    · cases reply <;> exact List.prefix_refl _
    · exact List.prefix_refl _
  | commitBatch i =>
    simp only [step]
    split
    · simp only [applyMarks_origins, List.prefix_rfl]
    · exact List.prefix_refl _
  | crash i => exact List.prefix_refl _

theorem run_origins (s : System) (es : List Event) :
    s.table.rows.map Row.origin <+: (EventRun.run step s es).table.rows.map Row.origin := by
  induction es generalizing s with
  | nil => exact List.prefix_refl _
  | cons e es ih => exact (step_origins s e).trans (ih (step s e))

def Event.recognises : Event → Bool
  | publish _ _ recognised => recognised
  | _ => true

def Message.key (m : Message) : String × String := (m.subject, m.msgId)

theorem stored_distinct {stream : List Message} (distinct : (stream.map Message.key).Nodup)
    (m : Message) : ((stored true m stream).map Message.key).Nodup := by
  unfold stored
  split
  · exact distinct
  · rename_i fresh
    rw [List.map_append, List.nodup_append]
    refine ⟨distinct, by simp, fun k old k' new => ?_⟩
    obtain ⟨m', mem, rfl⟩ := List.mem_map.mp old
    rw [List.map_cons, List.map_nil, List.mem_singleton] at new
    subst new
    intro same
    simp only [Message.key, Prod.mk.injEq] at same
    exact fresh (by simp only [Bool.true_and, List.any_eq_true]; exact ⟨m', mem, by simp [same]⟩)

theorem step_stream (s : System) (e : Event) :
    ((step s e).stream = s.stream ∧ (step s e).acknowledged = s.acknowledged) ∨
    ∃ i reply recognised now row rest marks, e = .publish i reply recognised ∧
      s.batches i = some ⟨now, row :: rest, marks⟩ ∧ (∀ error, reply ≠ .lost error) ∧
      (step s e).stream = stored recognised (message row.toOutboxRow) s.stream ∧
      ∀ a ∈ (step s e).acknowledged, a ∈ s.acknowledged ∨ a.message = message row.toOutboxRow := by
  cases e with
  | tick microseconds => exact .inl ⟨rfl, rfl⟩
  | begin w =>
    left
    simp only [step]
    split <;> exact ⟨rfl, rfl⟩
  | commitRows w rows =>
    left
    simp only [step]
    split
    · exact ⟨rfl, rfl⟩
    · split <;> exact ⟨rfl, rfl⟩
  | rollBack w => exact .inl ⟨rfl, rfl⟩
  | fetch i limit tie =>
    left
    simp only [step]
    split <;> exact ⟨rfl, rfl⟩
  | publish i reply recognised =>
    simp only [step]
    split
    · rename_i now row rest marks opened
      cases reply with
      | acked =>
        refine .inr ⟨i, _, recognised, now, row, rest, marks, rfl, opened, nofun, rfl, fun a mem => ?_⟩
        rcases List.mem_append.mp mem with old | new
        · exact .inl old
        · exact .inr (by rw [List.mem_singleton.mp new])
      | ackLost error =>
        exact .inr ⟨i, _, recognised, now, row, rest, marks, rfl, opened, nofun, rfl, fun _ => .inl⟩
      | lost error => exact .inl ⟨rfl, rfl⟩
    · exact .inl ⟨rfl, rfl⟩
  | commitBatch i =>
    left
    simp only [step]
    split <;> exact ⟨rfl, rfl⟩
  | crash i => exact .inl ⟨rfl, rfl⟩

theorem run_distinct (es : List Event) (recognised : ∀ e ∈ es, e.recognises = true) {s : System}
    (distinct : (s.stream.map Message.key).Nodup) :
    ((EventRun.run step s es).stream.map Message.key).Nodup := by
  induction es generalizing s with
  | nil => exact distinct
  | cons e es ih =>
    refine ih (fun e' mem => recognised e' (List.mem_cons_of_mem e mem)) ?_
    obtain ⟨same, -⟩ | ⟨i, reply, known, now, row, rest, marks, rfl, -, -, grown, -⟩ := step_stream s e
    · rw [same]
      exact distinct
    · have : known = true := recognised _ List.mem_cons_self
      subst this
      rw [grown]
      exact stored_distinct distinct _

/-- The relays publish at least once and mark no row early: from an empty
outbox, after any run of any number of writers and relays. -/
theorem relay_atLeastOnce (es : List Event) :
    let s := run es
    (∀ row ∈ s.table.rows, row.publishedAt.isSome = true →
      ∃ a ∈ s.acknowledged, a.message = message row.toOutboxRow) ∧
    (∀ later, ∀ row ∈ s.table.rows, ∃ row' ∈ (run (es ++ later)).table.rows,
      row'.toOutboxRow = row.toOutboxRow) ∧
    (∀ row ∈ s.table.rows, row.attempts = failures s.history row.eventId ∧
      ((lastMark s.history row.eventId).any Mark.isFailed = true → row.publishedAt = none)) ∧
    (∀ i j b b', i ≠ j → s.batches i = some b → s.batches j = some b' →
      ∀ eventId ∈ b.ids, eventId ∉ b'.ids) ∧
    ((∀ e ∈ es, e.recognises = true) → ∀ row ∈ s.table.rows,
      s.stream.countP (fun m => m.subject = row.topic && m.msgId = row.eventId) ≤ 1) := by
  intro s
  have sound : Sound s := run_sound es
  refine ⟨fun row mem published => ?_, fun later row mem => ?_, fun row mem => ?_,
    fun i j b b' other opened opened' => ?_, fun recognised row mem => ?_⟩
  · exact sound.evidence row.key row (s.table.find_of_mem mem) published
  · have kept := run_origins s later
    have again : EventRun.run step s later = run (es ++ later) :=
      (List.foldl_append (f := step) (l := es)).symm
    rw [again] at kept
    obtain ⟨row', mem', same⟩ :=
      List.mem_map.mp (kept.subset (List.mem_map_of_mem (f := Row.origin) mem))
    exact ⟨row', mem', congrArg Prod.fst same⟩
  · have found := s.table.find_of_mem mem
    exact ⟨sound.counted row.key row found, sound.unpublished row.key row found⟩
  · exact fair_disjoint (sound.fair i b opened) (sound.fair j b' opened') other
  · have distinct : (s.stream.map Message.key).Nodup := run_distinct es recognised List.nodup_nil
    have count := List.nodup_iff_count_le_one.mp distinct (row.topic, row.eventId)
    rw [List.count, List.countP_map] at count
    refine le_trans (List.countP_mono_left fun m _ here => ?_) count
    simp only [Bool.and_eq_true, decide_eq_true_eq] at here
    simp [Message.key, here]

end Mirage.OutboxRelay
