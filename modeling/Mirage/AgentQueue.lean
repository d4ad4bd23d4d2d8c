import Mirage.EventRun
import Mathlib.Data.List.Nodup

/-! The agents' local queue `EncryptedEventQueue` and its sequence counter, in one SQLite
file. -/

namespace Mirage.AgentQueue

inductive Status where
  | pending
  | acknowledged
  | deadLetter
  deriving DecidableEq

structure QueueRow (ε : Type) where
  id : ℕ
  enqueuedAt : String
  event : ε
  status : Status
  attempts : ℕ
  lastError : Option String

structure Database (ε : Type) where
  rows : List (QueueRow ε)
  /-- The largest id ever given out, as `sqlite_sequence` keeps it. -/
  lastRowId : ℕ
  sequence : ℕ
  ordered : (rows.map QueueRow.id).Pairwise (· < ·)
  bounded : ∀ r ∈ rows, r.id ≤ lastRowId

namespace Database

variable {ε : Type}

def fresh : Database ε := ⟨[], 0, 0, List.Pairwise.nil, by simp⟩

def isPending (r : QueueRow ε) : Bool := r.status = .pending

def pendingCount (db : Database ε) : ℕ := db.rows.countP isPending

def deadLetterCount (db : Database ε) : ℕ := db.rows.countP fun r => r.status = .deadLetter

def newRow (db : Database ε) (event : ε) (enqueuedAt : String) : QueueRow ε :=
  ⟨db.lastRowId + 1, enqueuedAt, event, .pending, 0, none⟩

def insert (db : Database ε) (event : ε) (enqueuedAt : String) : Database ε where
  rows := db.rows ++ [db.newRow event enqueuedAt]
  lastRowId := db.lastRowId + 1
  sequence := db.sequence
  ordered := by
    rw [List.map_append, List.pairwise_append]
    refine ⟨db.ordered, by simp, ?_⟩
    intro a ha b hb
    obtain ⟨r, hr, rfl⟩ := List.mem_map.mp ha
    have := db.bounded r hr
    simp only [List.map_cons, List.map_nil, List.mem_singleton] at hb
    subst hb
    simp only [newRow]
    omega
  bounded r hr := by
    rcases List.mem_append.mp hr with h | h
    · have := db.bounded r h
      omega
    · simp only [List.mem_singleton] at h
      subst h
      simp [newRow]

/-- `QueueCapacityExceeded` carries the capacity that was reached. -/
structure CapacityExceeded where
  maxQueueSize : ℕ
  deriving DecidableEq

def enqueue (maxQueueSize : ℕ) (db : Database ε) (event : ε) (enqueuedAt : String) :
    Except CapacityExceeded (Database ε × ℕ) :=
  if db.pendingCount ≥ maxQueueSize then .error ⟨maxQueueSize⟩
  else .ok (db.insert event enqueuedAt, db.lastRowId + 1)

def peekBatch (db : Database ε) (limit : ℕ) : List (ℕ × ε) :=
  ((db.rows.filter isPending).take limit).map fun r => (r.id, r.event)

/-- `UPDATE queue_events … WHERE id IN (ids)` for a change that keeps the id. -/
def change (db : Database ε) (ids : List ℕ) (f : QueueRow ε → QueueRow ε)
    (keeps : ∀ r, (f r).id = r.id) : Database ε where
  rows := db.rows.map fun r => if r.id ∈ ids then f r else r
  lastRowId := db.lastRowId
  sequence := db.sequence
  ordered := by
    have same : (db.rows.map fun r => if r.id ∈ ids then f r else r).map QueueRow.id =
        db.rows.map QueueRow.id := by
      rw [List.map_map]
      apply List.map_congr_left
      intro r _
      by_cases h : r.id ∈ ids <;> simp [h, keeps]
    rw [same]
    exact db.ordered
  bounded r hr := by
    obtain ⟨old, hold, rfl⟩ := List.mem_map.mp hr
    have := db.bounded old hold
    by_cases h : old.id ∈ ids <;> simp [h, keeps, this]

def ack (db : Database ε) (ids : List ℕ) : Database ε :=
  db.change ids (fun r => { r with status := .acknowledged }) fun _ => rfl

def deadLetter (db : Database ε) (ids : List ℕ) (error : Option String) : Database ε :=
  db.change ids (fun r => { r with status := .deadLetter, lastError := error.or r.lastError })
    fun _ => rfl

/-- Returns the new attempt count, or nothing when the row is gone: there
`cur.fetchone()[0]` raises. -/
def recordAttemptFailure (db : Database ε) (rowId : ℕ) (error : String) :
    Database ε × Option ℕ :=
  let db' := db.change [rowId]
    (fun r => { r with attempts := r.attempts + 1, lastError := some error }) fun _ => rfl
  (db', (db'.rows.find? (·.id = rowId)).map (·.attempts))

def vacuumAcked (db : Database ε) : Database ε where
  rows := db.rows.filter fun r => r.status ≠ .acknowledged
  lastRowId := db.lastRowId
  sequence := db.sequence
  ordered := db.ordered.sublist (List.filter_sublist.map QueueRow.id)
  bounded r hr := db.bounded r (List.mem_filter.mp hr).1

def nextSequence (db : Database ε) : Database ε × ℕ :=
  ({ db with sequence := db.sequence + 1 }, db.sequence + 1)

end Database

inductive File (ε : Type) where
  | absent
  | intact (db : Database ε)
  | corrupt

/-- `_open`: the file afterwards, and whether it was recovered from corruption. -/
def openFile {ε : Type} : File ε → File ε × Bool
  | .absent => (.intact .fresh, false)
  | .intact db => (.intact db, false)
  | .corrupt => (.intact .fresh, true)

/-- One queue path. -/
structure Path (ε : Type) where
  file : File ε
  isOpen : Bool
  recoveredFromCorruption : Bool
  issued : List ℕ
  forgotten : Bool

inductive Op (ε : Type) where
  | nextSequence
  | enqueue (event : ε) (enqueuedAt : String)
  | ack (ids : List ℕ)
  | recordAttemptFailure (rowId : ℕ) (error : String)
  | deadLetter (ids : List ℕ) (error : Option String)
  | vacuumAcked
  | close
  | reopen
  /-- The process dies in `_open` after moving the corrupt file aside. -/
  | reopenInterrupted
  | damage

section Path
variable {ε : Type}

/-- The database a call reaches: none on a closed queue, and on a file damaged
under the connection every statement raises. -/
def Path.current (p : Path ε) : Option (Database ε) :=
  match p.file with
  | .intact db => if p.isOpen then some db else none
  | _ => none

def Path.onDatabase (p : Path ε) (f : Database ε → Database ε) : Path ε :=
  match p.current with
  | some db => { p with file := .intact (f db) }
  | none => p

def Path.start (file : File ε) : Path ε := ⟨file, false, false, [], false⟩

def step (maxQueueSize : ℕ) (p : Path ε) : Op ε → Path ε
  | .nextSequence =>
    match p.current with
    | some db => { p with file := .intact db.nextSequence.1, issued := p.issued ++ [db.nextSequence.2] }
    | none => p
  | .enqueue event enqueuedAt => p.onDatabase fun db =>
      match db.enqueue maxQueueSize event enqueuedAt with
      | .ok (db', _) => db'
      | .error _ => db
  | .ack ids => p.onDatabase (·.ack ids)
  | .recordAttemptFailure rowId error => p.onDatabase fun db => (db.recordAttemptFailure rowId error).1
  | .deadLetter ids error => p.onDatabase (·.deadLetter ids error)
  | .vacuumAcked => p.onDatabase (·.vacuumAcked)
  | .close => { p with isOpen := false }
  | .reopen =>
    if p.isOpen then p
    else
      let opened := openFile p.file
      { p with
        file := opened.1
        isOpen := true
        recoveredFromCorruption := opened.2
        forgotten := p.forgotten || (opened.2 && !p.issued.isEmpty) }
  | .reopenInterrupted =>
    match p.isOpen, p.file with
    | false, .corrupt => { p with file := .absent, forgotten := p.forgotten || !p.issued.isEmpty }
    | _, _ => p
  | .damage => { p with file := .corrupt }

/-- The counter of the file covers what was issued, unless the file that
issued it was moved aside; then the counter starts again below it. -/
structure Counted (p : Path ε) : Prop where
  positive : ∀ v ∈ p.issued, 1 ≤ v
  present : p.forgotten = false → p.file = .absent → p.issued = []
  covered : p.forgotten = false → ∀ db, p.file = .intact db → ∀ v ∈ p.issued, v ≤ db.sequence
  restarted : p.forgotten = true → p.issued.Pairwise (· < ·) →
    p.issued ≠ [] ∧ ∀ db, p.file = .intact db → db.sequence = 0

theorem start_counted (file : File ε) : Counted (Path.start file) :=
  ⟨by simp [Path.start], by simp [Path.start], by simp [Path.start], by simp [Path.start]⟩

theorem current_eq_some {p : Path ε} {db : Database ε} (h : p.current = some db) :
    p.file = .intact db ∧ p.isOpen = true := by
  unfold Path.current at h
  split at h
  · rename_i db' hfile
    split at h
    · cases h
      exact ⟨hfile, ‹_›⟩
    · cases h
  · cases h

theorem onDatabase_counted {p : Path ε} (counted : Counted p) (f : Database ε → Database ε)
    (keeps : ∀ db, (f db).sequence = db.sequence) : Counted (p.onDatabase f) := by
  unfold Path.onDatabase
  split
  · rename_i db hcur
    obtain ⟨hfile, -⟩ := current_eq_some hcur
    refine ⟨counted.positive, fun _ h => ?_, fun hf db' hdb v hv => ?_, fun hf hp => ?_⟩
    · cases h
    · cases hdb
      rw [keeps]
      exact counted.covered hf db hfile v hv
    · obtain ⟨nonempty, zero⟩ := counted.restarted hf hp
      refine ⟨nonempty, fun db' hdb => ?_⟩
      cases hdb
      rw [keeps]
      exact zero db hfile
  · exact counted

theorem nextSequence_counted {p : Path ε} {db : Database ε} (counted : Counted p)
    (hcur : p.current = some db) :
    Counted { p with file := .intact db.nextSequence.1, issued := p.issued ++ [db.nextSequence.2] } := by
  obtain ⟨hfile, -⟩ := current_eq_some hcur
  refine ⟨?_, fun _ h => ?_, fun hf db' hdb v hv => ?_, fun hf hp => ?_⟩
  · intro v hv
    rcases List.mem_append.mp hv with h | h
    · exact counted.positive v h
    · simp only [Database.nextSequence, List.mem_singleton] at h
      omega
  · cases h
  · cases hdb
    rcases List.mem_append.mp hv with h | h
    · have := counted.covered hf db hfile v h
      simp only [Database.nextSequence]
      omega
    · simp only [List.mem_singleton] at h
      simp [h, Database.nextSequence]
  · exfalso
    rw [List.pairwise_append] at hp
    obtain ⟨nonempty, zero⟩ := counted.restarted hf hp.1
    obtain ⟨v, hv⟩ := List.exists_mem_of_ne_nil _ nonempty
    have less := hp.2.2 v hv _ (List.mem_singleton_self _)
    have := counted.positive v hv
    have := zero db hfile
    simp only [Database.nextSequence] at less
    omega

theorem reopen_counted {p : Path ε} (counted : Counted p) (file : File ε) (opened recovered : Bool)
    (kept : file = p.file ∨ ((p.file = .absent ∨ (p.file = .corrupt ∧ recovered = true)) ∧
      (file = .intact .fresh ∨ file = .absent)))
    (restart : recovered = true → file = .intact .fresh ∨ file = .absent) (flag : Bool) :
    Counted { p with
      file := file, isOpen := opened, recoveredFromCorruption := flag,
      forgotten := p.forgotten || (recovered && !p.issued.isEmpty) } := by
  have zero : ∀ db : Database ε, (file = .intact .fresh ∨ file = .absent) →
      file = .intact db → db.sequence = 0 := by
    rintro db (h | h) hdb
    · rw [h] at hdb
      cases hdb
      rfl
    · rw [h] at hdb
      cases hdb
  cases hr : recovered && !p.issued.isEmpty with
  | false =>
    simp only [Bool.or_false]
    have cases : file = p.file ∨ ((file = .intact .fresh ∨ file = .absent) ∧
        (p.file = .absent ∨ p.issued = [])) := by
      rcases kept with h | ⟨h | ⟨h, hrec⟩, hfile⟩
      · exact .inl h
      · exact .inr ⟨hfile, .inl h⟩
      · refine .inr ⟨hfile, .inr ?_⟩
        simpa [hrec] using hr
    refine ⟨counted.positive, fun hf h => ?_, fun hf db hdb v hv => ?_, fun hf hp => ?_⟩
    · rcases cases with same | ⟨-, gone | none⟩
      · exact counted.present hf (same ▸ h)
      · exact counted.present hf gone
      · exact none
    · rcases cases with same | ⟨-, gone | none⟩
      · exact counted.covered hf db (same ▸ hdb) v hv
      · rw [counted.present hf gone] at hv
        cases hv
      · rw [none] at hv
        cases hv
    · obtain ⟨nonempty, old⟩ := counted.restarted hf hp
      refine ⟨nonempty, fun db hdb => ?_⟩
      rcases cases with same | ⟨new, -⟩
      · exact old db (same ▸ hdb)
      · exact zero db new hdb
  | true =>
    simp only [Bool.or_true]
    simp only [Bool.and_eq_true, Bool.not_eq_true', List.isEmpty_eq_false_iff] at hr
    refine ⟨counted.positive, by simp, by simp, fun _ _ => ⟨hr.2, fun db hdb => ?_⟩⟩
    exact zero db (restart hr.1) hdb

theorem damage_counted {p : Path ε} (counted : Counted p) :
    Counted ({ p with file := .corrupt } : Path ε) := by
  refine ⟨counted.positive, fun _ h => ?_, fun _ _ h => ?_, fun hf hp => ?_⟩
  · cases h
  · cases h
  · exact ⟨(counted.restarted hf hp).1, fun _ h => by cases h⟩

theorem step_counted (maxQueueSize : ℕ) (p : Path ε) (op : Op ε) (counted : Counted p) :
    Counted (step maxQueueSize p op) := by
  cases op with
  | nextSequence =>
    simp only [step]
    split
    · exact nextSequence_counted counted ‹_›
    · exact counted
  | enqueue event enqueuedAt =>
    refine onDatabase_counted counted _ fun db => ?_
    split
    · rename_i db' id h
      unfold Database.enqueue at h
      split at h
      · cases h
      · cases h
        rfl
    · rfl
  | ack ids => exact onDatabase_counted counted _ fun _ => rfl
  | recordAttemptFailure rowId error => exact onDatabase_counted counted _ fun _ => rfl
  | deadLetter ids error => exact onDatabase_counted counted _ fun _ => rfl
  | vacuumAcked => exact onDatabase_counted counted _ fun _ => rfl
  | close => exact ⟨counted.positive, counted.present, counted.covered, counted.restarted⟩
  | reopen =>
    simp only [step]
    split
    · exact counted
    · cases hfile : p.file with
      | absent =>
        exact reopen_counted counted _ true false (.inr ⟨.inl hfile, .inl rfl⟩) (by simp) false
      | intact db => exact reopen_counted counted _ true false (.inl hfile.symm) (by simp) false
      | corrupt =>
        exact reopen_counted counted _ true true (.inr ⟨.inr ⟨hfile, rfl⟩, .inl rfl⟩)
          (fun _ => .inl rfl) true
  | reopenInterrupted =>
    simp only [step]
    split
    · rename_i hopen hfile
      have := reopen_counted counted .absent p.isOpen true (.inr ⟨.inr ⟨hfile, rfl⟩, .inr rfl⟩)
        (fun _ => .inr rfl) p.recoveredFromCorruption
      simpa using this
    · exact counted
  | damage => exact damage_counted counted

/-- `next_sequence` is not called on a queue whose counter was lost. -/
def Admitted (p : Path ε) (op : Op ε) : Prop :=
  op = .nextSequence → p.current.isSome → p.forgotten = false

theorem issued_step (maxQueueSize : ℕ) (p : Path ε) (op : Op ε) :
    p.issued <+: (step maxQueueSize p op).issued := by
  cases op with
  | nextSequence =>
    simp only [step]
    split
    · exact List.prefix_append _ _
    · exact List.prefix_refl _
  | close | damage => exact List.prefix_refl _
  | reopen | reopenInterrupted =>
    simp only [step]
    split <;> exact List.prefix_refl _
  | _ =>
    simp only [step, Path.onDatabase]
    split <;> exact List.prefix_refl _

theorem issued_run (maxQueueSize : ℕ) (p : Path ε) (ops : List (Op ε)) :
    p.issued <+: (EventRun.run (step maxQueueSize) p ops).issued := by
  induction ops generalizing p with
  | nil => exact List.prefix_refl _
  | cons op ops ih => exact (issued_step maxQueueSize p op).trans (ih _)

/-- Only `next_sequence` adds a value, and it stays increasing exactly when
the counter was not lost before. -/
theorem step_increasing (maxQueueSize : ℕ) (p : Path ε) (op : Op ε) (counted : Counted p)
    (increasing : p.issued.Pairwise (· < ·)) :
    (step maxQueueSize p op).issued.Pairwise (· < ·) ↔ Admitted p op := by
  unfold Admitted
  cases op with
  | nextSequence =>
    simp only [step]
    split
    · rename_i db hcur
      obtain ⟨hfile, -⟩ := current_eq_some hcur
      simp only [hcur, Option.isSome_some, forall_const]
      rw [List.pairwise_append]
      constructor
      · rintro ⟨-, -, above⟩
        by_contra lost
        obtain ⟨nonempty, zero⟩ := counted.restarted (by simpa using lost) increasing
        obtain ⟨v, hv⟩ := List.exists_mem_of_ne_nil _ nonempty
        have less := above v hv _ (List.mem_singleton_self _)
        have := counted.positive v hv
        have := zero db hfile
        simp only [Database.nextSequence] at less
        omega
      · intro kept
        refine ⟨increasing, List.pairwise_singleton _ _, fun v hv w hw => ?_⟩
        have := counted.covered kept db hfile v hv
        simp only [Database.nextSequence, List.mem_singleton] at hw
        omega
    · rename_i hcur
      simp [hcur, increasing]
  | close | damage => simpa [step] using increasing
  | reopen | reopenInterrupted =>
    simp only [step]
    split <;> simpa using increasing
  | _ =>
    simp only [step, Path.onDatabase]
    split <;> simpa using increasing

theorem run_increasing (maxQueueSize : ℕ) (p : Path ε) (ops : List (Op ε)) (counted : Counted p)
    (increasing : p.issued.Pairwise (· < ·)) :
    (EventRun.run (step maxQueueSize) p ops).issued.Pairwise (· < ·) ↔
      EventRun.Along (step maxQueueSize) Admitted p ops := by
  induction ops generalizing p with
  | nil => simp [EventRun.Along, increasing]
  | cons op ops ih =>
    rw [EventRun.run_cons, EventRun.Along]
    have one := step_increasing maxQueueSize p op counted increasing
    constructor
    · intro whole
      have next := whole.sublist (issued_run maxQueueSize _ ops).sublist
      exact ⟨one.mp next, (ih _ (step_counted maxQueueSize p op counted) next).mp whole⟩
    · rintro ⟨first, rest⟩
      exact (ih _ (step_counted maxQueueSize p op counted) (one.mpr first)).mpr rest

/-- Over any run on one path, from any content of the file, the values that
`next_sequence` returns are strictly increasing exactly when it is never called
on a queue that replaced a corrupt file from which values had been issued. -/
theorem nextSequence_increasing (maxQueueSize : ℕ) (file : File ε) (ops : List (Op ε)) :
    (EventRun.run (step maxQueueSize) (Path.start file) ops).issued.Pairwise (· < ·) ↔
      EventRun.Along (step maxQueueSize) Admitted (Path.start file) ops :=
  run_increasing maxQueueSize _ ops (start_counted file) List.Pairwise.nil

/-- A recovered file counts from the start again: the second event of this run
carries the sequence of the first. -/
theorem nextSequence_repeats :
    ¬ (EventRun.run (step 100000) (Path.start (.absent : File String))
      [.reopen, .nextSequence, .close, .damage, .reopen, .nextSequence]).issued.Pairwise
        (· < ·) := by
  decide

end Path

end Mirage.AgentQueue
