import Mirage.AgentQueue
import Mirage.SseFraming

/-! The ledger of one local queue: any run of its calls from the file's creation,
with arbitrary ids. A blob is what Fernet makes of the event's JSON text. No call
asks for the status a row has, so an acknowledgement takes a dead letter with it. -/

namespace Mirage.QueueLedger
open PythonText Raw SseFraming AgentQueue EventRun JsonLoads

/-- Fernet under one key; `ν` is the time and the random block of an encryption. -/
structure Fernet (ν β : Type) where
  encrypt : ν → Text → β
  decrypt : β → Option Text
  decrypts : ∀ moment t, decrypt (encrypt moment t) = some t

structure Queue (ν β : Type) where
  fernet : Fernet ν β
  py : Interpreter
  maxQueueSize : ℕ
  /-- The most parameters that SQLite binds in one statement. -/
  variableLimit : ℕ

inductive Call (ν : Type) where
  | enqueue (event : Raw) (enqueuedAt : String) (moment : ν)
  | ack (ids : List ℤ)
  | recordAttemptFailure (rowId : ℤ) (error : String)
  | deadLetter (ids : List ℤ) (error : Option String)
  | vacuumAcked

/-- The file, and for the ledger what was enqueued under which id and which ids were
acknowledged. -/
structure State (β : Type) where
  db : Database β
  enqueued : List (ℕ × Raw)
  acked : List ℕ

section
variable {ν β : Type} (q : Queue ν β)

/-- The ids that can name a row; none does below zero. -/
def named (ids : List ℤ) : List ℕ := ids.filterMap Int.toNat?

/-- The driver takes the statement: few enough parameters, of 64 bits each. -/
def binds (others : ℕ) (ids : List ℤ) : Bool :=
  ids.length + others ≤ q.variableLimit && ids.all fun i => -2 ^ 63 ≤ i && i < 2 ^ 63

/-- A call that raises leaves the file as it is. -/
def step (s : State β) : Call ν → State β
  | .enqueue event enqueuedAt moment =>
    match s.db.enqueue q.maxQueueSize (q.fernet.encrypt moment (dumpsPlain event)) enqueuedAt with
    | .ok (db, id) => { s with db := db, enqueued := s.enqueued ++ [(id, event)] }
    | .error _ => s
  | .ack ids =>
    if binds q 0 ids then { s with db := s.db.ack (named ids), acked := s.acked ++ named ids } else s
  | .recordAttemptFailure rowId error =>
    match named [rowId], binds q 1 [rowId] with
    | [id], true => { s with db := (s.db.recordAttemptFailure id error).1 }
    | _, _ => s
  | .deadLetter ids error =>
    if binds q error.toList.length ids then { s with db := s.db.deadLetter (named ids) error } else s
  | .vacuumAcked => { s with db := s.db.vacuumAcked }

def start : State β := ⟨.fresh, [], []⟩

def runCalls (calls : List (Call ν)) : State β := run (step q) start calls

/-- One row as `peek_batch` returns it. -/
def opened (id : ℕ) (blob : β) : Option (ℕ × Raw) :=
  (q.fernet.decrypt blob).bind fun t =>
    match loadsText q.py t with
    | .ok event => some (id, event)
    | .error _ => none

/-- SQLite reads a negative limit as none; nothing where a blob cannot be read. -/
def peek (db : Database β) (limit : ℤ) : Option (List (ℕ × Raw)) :=
  (db.peekBatch (if limit < 0 then db.rows.length else limit.toNat)).mapM fun row => opened q row.1 row.2

/-- The event is what `json.loads` makes of its `json.dumps`. -/
def Carried (event : Raw) : Prop := loadsText q.py (dumpsPlain event) = .ok event

def HasStatus (db : Database β) (id : ℕ) (status : Status) : Prop :=
  ∃ r ∈ db.rows, r.id = id ∧ r.status = status

/-- An enqueued event can be carried, and an acknowledgement names no dead letter. -/
def Admitted (s : State β) : Call ν → Prop
  | .enqueue event _ _ => Carried q event
  | .ack ids => ∀ id ∈ named ids, ¬ HasStatus s.db id .deadLetter
  | _ => True

structure Inv (s : State β) : Prop where
  bound : s.db.pendingCount ≤ q.maxQueueSize
  opens : List.Sublist (s.db.rows.map fun r => opened q r.id r.event) (s.enqueued.map some)
  noted : ∀ r ∈ s.db.rows, r.status = .acknowledged → r.id ∈ s.acked

variable {q}

theorem start_inv : Inv q start :=
  ⟨Nat.zero_le _, List.Sublist.slnil, fun _ mem => absurd mem List.not_mem_nil⟩

theorem opened_encrypt {event : Raw} (carried : Carried q event) (moment : ν) (id : ℕ) :
    opened q id (q.fernet.encrypt moment (dumpsPlain event)) = some (id, event) := by
  rw [opened, q.fernet.decrypts, Option.bind_some]
  rw [Carried] at carried
  rw [carried]

theorem Inv.change {s : State β} (inv : Inv q s) (ids : List ℕ) (f : QueueRow β → QueueRow β)
    (keeps : ∀ r, (f r).id = r.id) (acked : List ℕ) (blob : ∀ r, (f r).event = r.event)
    (late : ∀ r, (f r).status = .pending → r.status = .pending)
    (noted : ∀ r, r.id ∈ ids → (f r).status = .acknowledged → r.status = .acknowledged ∨ r.id ∈ acked) :
    Inv q { s with db := s.db.change ids f keeps, acked := s.acked ++ acked } := by
  refine ⟨le_trans ?_ inv.bound, ?_, ?_⟩
  · simp only [Database.pendingCount, Database.change, List.countP_map]
    refine List.countP_mono_left fun r _ pending => ?_
    by_cases named : r.id ∈ ids
    · simpa [Database.isPending, named] using late r (by simpa [Database.isPending, named] using pending)
    · simpa [named] using pending
  · have same : (s.db.change ids f keeps).rows.map (fun r => opened q r.id r.event) =
        s.db.rows.map fun r => opened q r.id r.event := by
      simp only [Database.change, List.map_map]
      refine List.map_congr_left fun r _ => ?_
      by_cases named : r.id ∈ ids <;> simp [named, keeps, blob]
    rw [same]
    exact inv.opens
  · intro r mem acknowledged
    obtain ⟨old, known, rfl⟩ := List.mem_map.mp mem
    rw [List.mem_append]
    by_cases changed : old.id ∈ ids
    · simp only [changed, if_true, keeps] at acknowledged ⊢
      exact (noted old changed acknowledged).imp_left (inv.noted old known)
    · simp only [changed, if_false] at acknowledged ⊢
      exact Or.inl (inv.noted old known acknowledged)

theorem Inv.insert {s : State β} (inv : Inv q s) {event : Raw} (carried : Carried q event)
    (room : s.db.pendingCount < q.maxQueueSize) (enqueuedAt : String) (moment : ν) :
    Inv q { s with db := s.db.insert (q.fernet.encrypt moment (dumpsPlain event)) enqueuedAt
                   enqueued := s.enqueued ++ [(s.db.lastRowId + 1, event)] } := by
  refine ⟨?_, ?_, ?_⟩
  · simp only [Database.pendingCount, Database.insert, List.countP_append]
    exact Nat.succ_le_of_lt room
  · simp only [Database.insert, List.map_append, List.map_cons, List.map_nil, Database.newRow,
      opened_encrypt carried]
    exact inv.opens.append (List.Sublist.refl _)
  · intro r mem acknowledged
    rcases List.mem_append.mp mem with old | new
    · exact inv.noted r old acknowledged
    · rw [List.mem_singleton.mp new] at acknowledged
      cases acknowledged

theorem Inv.vacuum {s : State β} (inv : Inv q s) : Inv q { s with db := s.db.vacuumAcked } := by
  have fewer : List.Sublist s.db.vacuumAcked.rows s.db.rows := List.filter_sublist
  exact ⟨le_trans fewer.countP_le inv.bound, (fewer.map _).trans inv.opens,
    fun r mem => inv.noted r (fewer.subset mem)⟩

theorem enqueue_eq_ok {db db' : Database β} {bound id : ℕ} {blob : β} {enqueuedAt : String}
    (h : db.enqueue bound blob enqueuedAt = .ok (db', id)) :
    db.pendingCount < bound ∧ db' = db.insert blob enqueuedAt ∧ id = db.lastRowId + 1 := by
  unfold Database.enqueue at h
  split at h
  next => cases h
  next room =>
    cases h
    exact ⟨Nat.lt_of_not_le room, rfl, rfl⟩

theorem step_inv {s : State β} (inv : Inv q s) {call : Call ν}
    (carried : ∀ event enqueuedAt moment, call = .enqueue event enqueuedAt moment → Carried q event) :
    Inv q (step q s call) := by
  cases call with
  | enqueue event enqueuedAt moment =>
    simp only [step]
    split
    next db id stored =>
      obtain ⟨room, rfl, rfl⟩ := enqueue_eq_ok stored
      exact inv.insert (carried _ _ _ rfl) room enqueuedAt moment
    next => exact inv
  | ack ids =>
    simp only [step]
    split
    · exact inv.change (named ids) _ _ (named ids) (fun _ => rfl) (fun _ pending => by cases pending)
        fun r mem _ => Or.inr mem
    · exact inv
  | recordAttemptFailure rowId error =>
    simp only [step]
    split
    next id _ _ =>
      have kept := inv.change [id]
        (fun r => { r with attempts := r.attempts + 1, lastError := some error }) (fun _ => rfl) []
        (fun _ => rfl) (fun _ pending => pending) fun r _ same => Or.inl same
      rw [List.append_nil] at kept
      exact kept
    next => exact inv
  | deadLetter ids error =>
    simp only [step]
    split
    · have kept := inv.change (named ids)
        (fun r => { r with status := .deadLetter, lastError := error.or r.lastError }) (fun _ => rfl) []
        (fun _ => rfl) (fun _ pending => by cases pending) fun r _ acknowledged => by cases acknowledged
      rw [List.append_nil] at kept
      exact kept
    · exact inv
  | vacuumAcked => exact inv.vacuum

theorem step_removes {s : State β} {call : Call ν} {r : QueueRow β} (known : r ∈ s.db.rows)
    (gone : ∀ status, ¬ HasStatus (step q s call).db r.id status) :
    call = .vacuumAcked ∧ r.status = .acknowledged := by
  have stays (ids : List ℕ) (f : QueueRow β → QueueRow β) (keeps : ∀ r, (f r).id = r.id) :
      ∃ status, HasStatus (s.db.change ids f keeps) r.id status := by
    refine ⟨_, _, List.mem_map.mpr ⟨r, known, rfl⟩, ?_, rfl⟩
    by_cases named : r.id ∈ ids <;> simp [named, keeps]
  have still : HasStatus s.db r.id r.status := ⟨r, known, rfl, rfl⟩
  cases call with
  | enqueue event enqueuedAt moment =>
    simp only [step] at gone
    split at gone
    next db id stored =>
      obtain ⟨-, rfl, -⟩ := enqueue_eq_ok stored
      exact absurd ⟨r, List.mem_append_left _ known, rfl, rfl⟩ (gone r.status)
    next => exact absurd still (gone _)
  | ack ids =>
    simp only [step] at gone
    split at gone
    · obtain ⟨status, there⟩ := stays (named ids) (fun r => { r with status := .acknowledged }) fun _ => rfl
      exact absurd there (gone status)
    · exact absurd still (gone _)
  | recordAttemptFailure rowId error =>
    simp only [step] at gone
    split at gone
    next id _ _ =>
      obtain ⟨status, there⟩ := stays [id]
        (fun r => { r with attempts := r.attempts + 1, lastError := some error }) fun _ => rfl
      exact absurd there (gone status)
    next => exact absurd still (gone _)
  | deadLetter ids error =>
    simp only [step] at gone
    split at gone
    · obtain ⟨status, there⟩ := stays (named ids)
        (fun r => { r with status := .deadLetter, lastError := error.or r.lastError }) fun _ => rfl
      exact absurd there (gone status)
    · exact absurd still (gone _)
  | vacuumAcked =>
    refine ⟨rfl, ?_⟩
    by_contra kept
    exact gone r.status ⟨r, List.mem_filter.mpr ⟨known, by simpa using kept⟩, rfl, rfl⟩

theorem step_deadLetter {s : State β} {call : Call ν} {id : ℕ} (admitted : Admitted q s call)
    (dead : HasStatus s.db id .deadLetter) : HasStatus (step q s call).db id .deadLetter := by
  obtain ⟨r, known, rfl, isDead⟩ := dead
  have stays (ids : List ℕ) (f : QueueRow β → QueueRow β) (keeps : ∀ r, (f r).id = r.id)
      (same : r.id ∈ ids → (f r).status = .deadLetter) : HasStatus (s.db.change ids f keeps) r.id .deadLetter := by
    refine ⟨_, List.mem_map.mpr ⟨r, known, rfl⟩, ?_, ?_⟩
    · by_cases named : r.id ∈ ids <;> simp [named, keeps]
    · by_cases named : r.id ∈ ids <;> simp [named, same, isDead]
  have still : HasStatus s.db r.id .deadLetter := ⟨r, known, rfl, isDead⟩
  cases call with
  | enqueue event enqueuedAt moment =>
    simp only [step]
    split
    next db id stored =>
      obtain ⟨-, rfl, -⟩ := enqueue_eq_ok stored
      exact ⟨r, List.mem_append_left _ known, rfl, isDead⟩
    next => exact still
  | ack ids =>
    simp only [step]
    split
    · exact stays (named ids) (fun r => { r with status := .acknowledged }) (fun _ => rfl) fun mem =>
        absurd still (admitted r.id mem)
    · exact still
  | recordAttemptFailure rowId error =>
    simp only [step]
    split
    next id _ _ => 
      exact stays [id] (fun r => { r with attempts := r.attempts + 1, lastError := some error })
        (fun _ => rfl) fun _ => isDead
    next => exact still
  | deadLetter ids error =>
    simp only [step]
    split
    · exact stays (named ids) (fun r => { r with status := .deadLetter, lastError := error.or r.lastError })
        (fun _ => rfl) fun _ => rfl
    · exact still
  | vacuumAcked => exact ⟨r, List.mem_filter.mpr ⟨known, by simp [isDead]⟩, rfl, isDead⟩

variable {calls : List (Call ν)}

theorem run_inv {s : State β} (inv : Inv q s) (along : Along (step q) (Admitted q) s calls) :
    Inv q (run (step q) s calls) := by
  induction calls generalizing s with
  | nil => exact inv
  | cons call calls ih =>
    refine ih (step_inv inv ?_) along.2
    rintro event enqueuedAt moment rfl
    exact along.1

theorem run_deadLetter {s : State β} {id : ℕ} (along : Along (step q) (Admitted q) s calls)
    (dead : HasStatus s.db id .deadLetter) : HasStatus (run (step q) s calls).db id .deadLetter := by
  induction calls generalizing s with
  | nil => exact dead
  | cons call calls ih => exact ih along.2 (step_deadLetter along.1 dead)

/-- The pending events with their ids, as they were enqueued and in that order. -/
structure PendingOf (s : State β) (pending : List (ℕ × Raw)) : Prop where
  enqueued : List.Sublist pending s.enqueued
  ids : pending.map Prod.fst = (s.db.rows.filter Database.isPending).map QueueRow.id

theorem mapM_opened {rows : List (QueueRow β)} {events : List (ℕ × Raw)}
    (opens : rows.map (fun r => opened q r.id r.event) = events.map some) :
    (rows.map fun r => (r.id, r.event)).mapM (fun row => opened q row.1 row.2) = some events ∧
      events.map Prod.fst = rows.map QueueRow.id := by
  induction rows generalizing events with
  | nil =>
    cases events with
    | nil => exact ⟨rfl, rfl⟩
    | cons => cases opens
  | cons r rows ih =>
    cases events with
    | nil => cases opens
    | cons e events =>
      obtain ⟨first, rest⟩ := List.cons.inj opens
      obtain ⟨read, ids⟩ := ih rest
      have id : e.1 = r.id := by
        obtain ⟨t, -, second⟩ := Option.bind_eq_some_iff.mp first
        split at second
        next => rw [← Option.some.inj second]
        next => cases second
      exact ⟨by simp [first, read], by rw [List.map_cons, List.map_cons, id, ids]⟩

theorem Inv.peeks {s : State β} (inv : Inv q s) : ∃ pending, PendingOf s pending ∧ ∀ limit : ℤ,
    peek q s.db limit = some (if limit < 0 then pending else pending.take limit.toNat) := by
  have kept : List.Sublist ((s.db.rows.filter Database.isPending).map fun r => opened q r.id r.event)
      (s.enqueued.map some) := (List.filter_sublist.map _).trans inv.opens
  obtain ⟨pending, sub, opens⟩ := List.sublist_map_iff.mp kept
  refine ⟨pending, ⟨sub, (mapM_opened opens).2⟩, fun limit => ?_⟩
  have cut (n : ℕ) : (s.db.peekBatch n).mapM (fun row => opened q row.1 row.2) = some (pending.take n) := by
    refine (mapM_opened ?_).1
    rw [List.map_take, opens, List.map_take]
  rw [peek, cut]
  split
  · have short : pending.length ≤ s.db.rows.length := by
      have sizes := congrArg List.length opens
      simp only [List.length_map] at sizes
      rw [← sizes]
      exact List.length_filter_le ..
    rw [List.take_of_length_le short]
  · rfl

/-- In every run whose enqueued events are JSON data and whose acknowledgements name no
dead letter: the capacity holds, a batch is the oldest pending events as enqueued, rows
leave by a vacuum after an acknowledgement, and dead letters stay. -/
theorem queue_ledger (along : Along (step q) (Admitted q) start calls) :
    (runCalls q calls).db.pendingCount ≤ q.maxQueueSize ∧
    (∃ pending, PendingOf (runCalls q calls) pending ∧ ∀ limit : ℤ,
      peek q (runCalls q calls).db limit = some (if limit < 0 then pending else pending.take limit.toNat)) ∧
    (∀ call, ∀ r ∈ (runCalls q calls).db.rows,
      (∀ status, ¬ HasStatus (step q (runCalls q calls) call).db r.id status) →
      call = .vacuumAcked ∧ r.id ∈ (runCalls q calls).acked) ∧
    ∀ before after, calls = before ++ after → ∀ id, HasStatus (runCalls q before).db id .deadLetter →
      HasStatus (runCalls q calls).db id .deadLetter := by
  have inv := run_inv start_inv along
  refine ⟨inv.bound, inv.peeks, ?_, ?_⟩
  · intro call r known gone
    obtain ⟨vacuum, acknowledged⟩ := step_removes known gone
    exact ⟨vacuum, inv.noted r known acknowledged⟩
  · rintro before after rfl id dead
    rw [runCalls, run_append]
    exact run_deadLetter (along_append_iff.mp along).2 dead

end

/-! A queue of one place, with the text itself as the blob. -/

def plainQueue : Queue Unit Text where
  fernet := ⟨fun _ t => t, some, fun _ _ => rfl⟩
  py := ⟨fun _ => ("0.0", some 0), fun _ => .ok []⟩
  maxQueueSize := 1
  variableLimit := 32766

def beat : Call Unit := .enqueue (.obj []) "2026-01-02T03:04:05.678Z" ()

def beatCalls : List (Call Unit) := [beat, .deadLetter [1] none, beat, .ack [2, -7], .vacuumAcked]

theorem beatCalls_ledger : HasStatus (runCalls plainQueue beatCalls).db 1 .deadLetter := by
  have carried : Carried plainQueue (.obj []) := by
    unfold Carried
    rfl
  have along : Along (step plainQueue) (Admitted plainQueue) start beatCalls := by
    refine ⟨carried, trivial, carried, ?_, trivial, trivial⟩
    rintro id mem ⟨r, known, same, dead⟩
    have rows : (runCalls plainQueue [beat, .deadLetter [1] none, beat]).db.rows.map
        (fun r => (r.id, r.status)) = [(1, .deadLetter), (2, .pending)] := rfl
    have pair : (r.id, r.status) ∈ [(1, Status.deadLetter), (2, .pending)] := rows ▸ List.mem_map_of_mem known
    have second : id = 2 := List.mem_singleton.mp (show id ∈ [2] from mem)
    rw [same, dead, second] at pair
    exact absurd pair (by decide)
  exact (queue_ledger along).2.2.2 [beat, .deadLetter [1] none] [beat, .ack [2, -7], .vacuumAcked] rfl 1
    ⟨_, List.mem_singleton_self _, rfl, rfl⟩

/-- The dead letter is acknowledged and vacuumed: it is no longer in the file. -/
theorem deadLetter_lost : ∃ (q : Queue Unit Text) (before after : List (Call Unit)) (id : ℕ),
    HasStatus (runCalls q before).db id .deadLetter ∧
    ∀ status, ¬ HasStatus (runCalls q (before ++ after)).db id status := by
  refine ⟨plainQueue, [beat, .deadLetter [1] none], [.ack [1], .vacuumAcked], 1, ?_, ?_⟩
  · exact ⟨_, List.mem_singleton_self _, rfl, rfl⟩
  · rintro status ⟨r, mem, -, -⟩
    exact absurd mem List.not_mem_nil

end Mirage.QueueLedger
