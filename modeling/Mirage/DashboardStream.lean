import Mirage.EventRun
import Mirage.JsonValue
import Mathlib.Data.List.Sort

/-! `dashboard_stream` of prompt3.py: the table of realtime updates, the generator behind
one client's connection, and the client that comes back with the id of the last frame it
received. -/

namespace Mirage.DashboardStream
open EventRun

def maxStreamBatch : ℕ := 100

structure UpdateRow where
  sequenceId : ℕ
  updateId : String
  updateType : String
  caseId : Option String
  projectionVersion : Int
  eventTime : String
  payload : Json
  correlationId : String
  minimumRole : Option String

structure Frame where
  id : ℕ
  event : String
  updateId : String
  updateType : String
  caseId : Option String
  projectionVersion : Int
  eventTime : String
  payload : Json
  correlationId : String

inductive Chunk where
  | frame (f : Frame)
  | heartbeat

def updateFrame (u : UpdateRow) : Frame :=
  ⟨u.sequenceId, u.updateType, u.updateId, u.updateType, u.caseId, u.projectionVersion, u.eventTime, u.payload,
    u.correlationId⟩

def refreshFrame (caseId : String) (u : UpdateRow) : Frame :=
  ⟨u.sequenceId, "FULL_REFRESH_REQUIRED", u.updateId, "FULL_REFRESH_REQUIRED", some caseId, u.projectionVersion,
    u.eventTime, .obj [("reason", .str "bounded_queue_overflow")], u.correlationId⟩

/-- The connection's generator between two queries: what it has yet to yield, the cursor that the next
query starts from, and the idle ticks. -/
structure Connection where
  cursor : ℕ
  idleTicks : ℕ
  queue : List Chunk

structure World where
  updates : List UpdateRow
  connection : Option Connection
  received : List Chunk

inductive Event where
  | commit (row : UpdateRow)
  | connect
  | poll
  | deliver
  | disconnect

def Chunk.frame? : Chunk → Option Frame
  | .frame f => some f
  | .heartbeat => none

def framesOf (chunks : List Chunk) : List Frame := chunks.filterMap Chunk.frame?

def World.frames (w : World) : List Frame := framesOf w.received

def lastEventId (frames : List Frame) : ℕ := (frames.getLast?.map Frame.id).getD 0

section
variable (caseId : String) (roles : List String)

def visible (u : UpdateRow) : Bool :=
  match u.minimumRole with
  | none => true
  | some role => role = "" || role ∈ roles || "platform_admin" ∈ roles

def ofCase (updates : List UpdateRow) : List UpdateRow := updates.filter fun u => u.caseId = some caseId

/-- `WHERE sequence_id>cursor AND case_id=… ORDER BY sequence_id LIMIT MAX_STREAM_BATCH + 1`. -/
def select (cursor : ℕ) (updates : List UpdateRow) : List UpdateRow :=
  (((ofCase caseId updates).filter fun u => cursor < u.sequenceId).insertionSort
    fun a b => a.sequenceId ≤ b.sequenceId).take (maxStreamBatch + 1)

def idle (cursor idleTicks : ℕ) : Connection :=
  if 30 ≤ idleTicks + 1 then ⟨cursor, 0, [.heartbeat]⟩ else ⟨cursor, idleTicks + 1, []⟩

def pass (cursor idleTicks : ℕ) (rows : List UpdateRow) : Connection :=
  match rows.getLast? with
  | none => idle cursor idleTicks
  | some last =>
    if maxStreamBatch < rows.length then
      ⟨last.sequenceId, idleTicks, [.frame (refreshFrame caseId last)]⟩
    else if rows.any (visible roles) then
      ⟨last.sequenceId, 0, (rows.filter (visible roles)).map fun u => .frame (updateFrame u)⟩
    else idle last.sequenceId idleTicks

def fresh (row : UpdateRow) (updates : List UpdateRow) : Bool :=
  0 < row.sequenceId && updates.all fun u =>
    u.sequenceId ≠ row.sequenceId && u.updateId ≠ row.updateId &&
      (u.caseId ≠ row.caseId || u.sequenceId < row.sequenceId)

def step (w : World) : Event → World
  | .commit row => if fresh row w.updates then { w with updates := w.updates ++ [row] } else w
  | .connect => match w.connection with
    | none => { w with connection := some ⟨lastEventId w.frames, 0, []⟩ }
    | some _ => w
  | .poll => match w.connection with
    | some ⟨cursor, idleTicks, []⟩ =>
      { w with connection := some (pass caseId roles cursor idleTicks (select caseId cursor w.updates)) }
    | _ => w
  | .deliver => match w.connection with
    | some ⟨cursor, idleTicks, chunk :: queue⟩ =>
      { w with connection := some ⟨cursor, idleTicks, queue⟩, received := w.received ++ [chunk] }
    | _ => w
  | .disconnect => { w with connection := none }

def start : World := ⟨[], none, []⟩

/-- The frames that stand for a stretch of the case's updates: a visible update has its own frame, a
hidden one has none, and one frame may stand for more than `maxStreamBatch` updates on end. -/
inductive Covers : List UpdateRow → List Frame → Prop where
  | nil : Covers [] []
  | hidden {u : UpdateRow} {us : List UpdateRow} {fs : List Frame} (unseen : visible roles u = false)
      (rest : Covers us fs) : Covers (u :: us) fs
  | seen {u : UpdateRow} {us : List UpdateRow} {fs : List Frame} (shown : visible roles u = true)
      (rest : Covers us fs) : Covers (u :: us) (updateFrame u :: fs)
  | stretch {block us : List UpdateRow} {last : UpdateRow} {fs : List Frame}
      (long : maxStreamBatch < block.length) (ends : block.getLast? = some last) (rest : Covers us fs) :
      Covers (block ++ us) (refreshFrame caseId last :: fs)

def lastSequence (us : List UpdateRow) : ℕ := (us.getLast?.map UpdateRow.sequenceId).getD 0

/-- The client has the frames of the updates up to the last id it received, none twice and in order; and
where nothing is under way and nothing is behind the cursor, those of all updates. -/
structure Complete (w : World) : Prop where
  covered : ∃ us vs, ofCase caseId w.updates = us ++ vs ∧ Covers caseId roles us w.frames ∧
    lastSequence us = lastEventId w.frames
  increasing : (w.frames.map Frame.id).Pairwise (· < ·)
  caughtUp : ∀ k, w.connection = some k → k.queue = [] → select caseId k.cursor w.updates = [] →
    Covers caseId roles (ofCase caseId w.updates) w.frames

/-- No frame has the identifiers of an update that the client may not see, and what a frame says of an
update is what some update says that the client may see. -/
structure Confidential (w : World) : Prop where
  hidden : ∀ f ∈ w.frames, ∀ u ∈ w.updates, visible roles u = false →
    f.id ≠ u.sequenceId ∧ f.updateId ≠ u.updateId
  shown : ∀ f ∈ w.frames, ∃ u ∈ ofCase caseId w.updates, visible roles u = true ∧
    (f = updateFrame u ∨ f = refreshFrame caseId u)

def admitted (w : World) : Event → Prop
  | .poll => ∀ k last, w.connection = some k → maxStreamBatch < (select caseId k.cursor w.updates).length →
    (select caseId k.cursor w.updates).getLast? = some last → visible roles last = true
  | _ => True

end

section
variable {caseId : String} {roles : List String}

theorem covers_append {us vs : List UpdateRow} {fs gs : List Frame} (first : Covers caseId roles us fs)
    (second : Covers caseId roles vs gs) : Covers caseId roles (us ++ vs) (fs ++ gs) := by
  induction first with
  | nil => exact second
  | hidden unseen _ ih => exact .hidden unseen ih
  | seen shown _ ih => exact .seen shown ih
  | stretch long ends _ ih =>
    rw [List.append_assoc]
    exact .stretch long ends ih

theorem covers_batch (rows : List UpdateRow) :
    Covers caseId roles rows ((rows.filter (visible roles)).map updateFrame) := by
  induction rows with
  | nil => exact .nil
  | cons u rows ih =>
    cases shown : visible roles u with
    | true =>
      rw [List.filter_cons_of_pos shown, List.map_cons]
      exact .seen shown ih
    | false =>
      rw [List.filter_cons_of_neg (by simp [shown])]
      exact .hidden shown ih

theorem getLast?_append_some {us vs : List UpdateRow} {last : UpdateRow} (ends : vs.getLast? = some last) :
    (us ++ vs).getLast? = some last := by
  rw [List.getLast?_append, ends, Option.some_or]

theorem covers_first {us : List UpdateRow} {f : Frame} {fs : List Frame}
    (covers : Covers caseId roles us (f :: fs)) : ∃ us₁ us₂ last, us = us₁ ++ us₂ ∧
      Covers caseId roles us₁ [f] ∧ us₁.getLast? = some last ∧ last.sequenceId = f.id ∧
      Covers caseId roles us₂ fs := by
  generalize all : f :: fs = frames at covers
  induction covers with
  | nil => cases all
  | @hidden u _ _ unseen _ ih =>
    obtain ⟨us₁, us₂, last, rfl, first, ends, same, rest⟩ := ih all
    exact ⟨u :: us₁, us₂, last, rfl, .hidden unseen first, @getLast?_append_some [u] us₁ last ends, same, rest⟩
  | @seen u us _ shown rest =>
    cases all
    exact ⟨[u], us, u, rfl, .seen shown .nil, rfl, rfl, rest⟩
  | @stretch block us last _ long ends rest =>
    cases all
    refine ⟨block, us, last, rfl, ?_, ends, rfl, rest⟩
    have whole := @Covers.stretch caseId roles _ _ _ _ long ends .nil
    rwa [List.append_nil] at whole

theorem covers_split {us : List UpdateRow} {fs gs : List Frame} (covers : Covers caseId roles us (fs ++ gs)) :
    ∃ us₁ us₂, us = us₁ ++ us₂ ∧ Covers caseId roles us₁ fs ∧
      us₁.getLast?.map UpdateRow.sequenceId = fs.getLast?.map Frame.id := by
  induction fs generalizing us with
  | nil => exact ⟨[], us, rfl, .nil, rfl⟩
  | cons f fs ih =>
    obtain ⟨first, behind, last, rfl, one, ends, same, rest⟩ := covers_first covers
    obtain ⟨us₁, us₂, rfl, more, closes⟩ := ih rest
    refine ⟨first ++ us₁, us₂, (List.append_assoc _ _ _).symm, covers_append one more, ?_⟩
    rw [List.getLast?_append, ends, ← List.singleton_append, List.getLast?_append, List.getLast?_singleton]
    cases found : us₁.getLast? with
    | none =>
      rw [found, Option.map_none, eq_comm, Option.map_eq_none_iff] at closes
      rw [closes, Option.none_or, Option.none_or, Option.map_some, Option.map_some, same]
    | some u =>
      rw [found, Option.map_some, eq_comm] at closes
      obtain ⟨g, shown, names⟩ := Option.map_eq_some_iff.mp closes
      rw [shown, Option.some_or, Option.some_or, Option.map_some, Option.map_some, names]

theorem covers_ascending {us : List UpdateRow} {fs : List Frame} (covers : Covers caseId roles us fs)
    (ascending : us.Pairwise fun a b => a.sequenceId < b.sequenceId) :
    (fs.map Frame.id).Pairwise (· < ·) ∧ ∀ f ∈ fs, ∃ u ∈ us, f.id = u.sequenceId := by
  induction covers with
  | nil => exact ⟨List.Pairwise.nil, fun f mem => by cases mem⟩
  | @hidden u us fs _ _ ih =>
    obtain ⟨order, named⟩ := ih (List.pairwise_cons.mp ascending).2
    refine ⟨order, fun f mem => ?_⟩
    obtain ⟨v, listed, same⟩ := named f mem
    exact ⟨v, List.mem_cons_of_mem u listed, same⟩
  | @seen u us fs _ _ ih =>
    obtain ⟨before, later⟩ := List.pairwise_cons.mp ascending
    obtain ⟨order, named⟩ := ih later
    constructor
    · rw [List.map_cons, List.pairwise_cons]
      refine ⟨fun n mem => ?_, order⟩
      obtain ⟨f, listed, rfl⟩ := List.mem_map.mp mem
      obtain ⟨v, known, same⟩ := named f listed
      rw [same]
      exact before v known
    · intro f mem
      rcases List.mem_cons.mp mem with rfl | mem
      · exact ⟨u, List.mem_cons_self, rfl⟩
      · obtain ⟨v, listed, same⟩ := named f mem
        exact ⟨v, List.mem_cons_of_mem u listed, same⟩
  | @stretch block us last fs _ ends _ ih =>
    obtain ⟨-, later, across⟩ := List.pairwise_append.mp ascending
    obtain ⟨order, named⟩ := ih later
    have inBlock := List.mem_of_getLast? ends
    constructor
    · rw [List.map_cons, List.pairwise_cons]
      refine ⟨fun n mem => ?_, order⟩
      obtain ⟨f, listed, rfl⟩ := List.mem_map.mp mem
      obtain ⟨v, known, same⟩ := named f listed
      rw [same]
      exact across last inBlock v known
    · intro f mem
      rcases List.mem_cons.mp mem with rfl | mem
      · exact ⟨last, List.mem_append_left us inBlock, rfl⟩
      · obtain ⟨v, listed, same⟩ := named f mem
        exact ⟨v, List.mem_append_right block listed, same⟩

theorem select_behind {updates us vs : List UpdateRow} (parts : ofCase caseId updates = us ++ vs)
    (ascending : (us ++ vs).Pairwise fun a b => a.sequenceId < b.sequenceId)
    (positive : ∀ u ∈ us ++ vs, 0 < u.sequenceId) :
    select caseId (lastSequence us) updates = vs.take (maxStreamBatch + 1) := by
  obtain ⟨front, back, across⟩ := List.pairwise_append.mp ascending
  have none : us.filter (fun u => lastSequence us < u.sequenceId) = [] := by
    rw [List.filter_eq_nil_iff]
    intro u mem
    obtain ⟨last, ends⟩ := Option.isSome_iff_exists.mp (List.getLast?_isSome.mpr (List.ne_nil_of_mem mem))
    obtain ⟨start, rfl⟩ := List.getLast?_eq_some_iff.mp ends
    rw [lastSequence, ends, Option.map_some, Option.getD_some, decide_eq_true_eq, not_lt]
    rcases List.mem_append.mp mem with early | same
    · exact ((List.pairwise_append.mp front).2.2 u early last List.mem_cons_self).le
    · rw [List.mem_singleton.mp same]
  have all : vs.filter (fun u => lastSequence us < u.sequenceId) = vs := by
    rw [List.filter_eq_self]
    intro v mem
    rw [decide_eq_true_eq, lastSequence]
    cases ends : us.getLast? with
    | none => exact positive v (List.mem_append_right us mem)
    | some last => exact across last (List.mem_of_getLast? ends) v mem
  have sorted : vs.insertionSort (fun a b => a.sequenceId ≤ b.sequenceId) = vs :=
    List.Pairwise.insertionSort_eq (back.imp fun less => less.le)
  rw [select, parts, List.filter_append, none, List.nil_append, all, sorted]

def World.pending (w : World) : List Frame := w.connection.elim [] fun k => framesOf k.queue

end

section
variable (caseId : String) (roles : List String)

def Shown (updates : List UpdateRow) (f : Frame) : Prop :=
  ∃ u ∈ ofCase caseId updates, visible roles u = true ∧ (f = updateFrame u ∨ f = refreshFrame caseId u)

structure Inv (w : World) : Prop where
  keys : (w.updates.map UpdateRow.sequenceId).Nodup
  names : (w.updates.map UpdateRow.updateId).Nodup
  ascending : (ofCase caseId w.updates).Pairwise fun a b => a.sequenceId < b.sequenceId
  positive : ∀ u ∈ w.updates, 0 < u.sequenceId
  closed : ∃ us vs, ofCase caseId w.updates = us ++ vs ∧ Covers caseId roles us w.frames ∧
    us.getLast?.map UpdateRow.sequenceId = w.frames.getLast?.map Frame.id
  opened : ∀ k, w.connection = some k → ∃ us vs, ofCase caseId w.updates = us ++ vs ∧
    Covers caseId roles us (w.frames ++ framesOf k.queue) ∧ lastSequence us = k.cursor
  shown : ∀ f ∈ w.frames ++ w.pending, Shown caseId roles w.updates f

end

section
variable {caseId : String} {roles : List String} {w : World}

theorem start_inv : Inv caseId roles start :=
  ⟨.nil, .nil, .nil, fun u mem => (by cases mem), ⟨[], [], rfl, .nil, rfl⟩, fun k opened => (by cases opened),
    fun f mem => (by cases mem)⟩

theorem ofCase_concat (updates : List UpdateRow) (row : UpdateRow) : ofCase caseId (updates ++ [row]) =
    ofCase caseId updates ++ if row.caseId = some caseId then [row] else [] := by
  rw [ofCase, List.filter_append, List.filter_singleton, ofCase]
  simp

theorem mem_ofCase {updates : List UpdateRow} {u : UpdateRow} :
    u ∈ ofCase caseId updates ↔ u ∈ updates ∧ u.caseId = some caseId := by
  rw [ofCase, List.mem_filter, decide_eq_true_eq]

theorem nodup_concat {β : Type} {key : UpdateRow → β} {updates : List UpdateRow} {row : UpdateRow}
    (unique : (updates.map key).Nodup) (new : ∀ u ∈ updates, key u ≠ key row) :
    ((updates ++ [row]).map key).Nodup := by
  rw [List.map_append, List.map_singleton, ← List.concat_eq_append, List.nodup_concat]
  refine ⟨fun mem => ?_, unique⟩
  obtain ⟨u, listed, same⟩ := List.mem_map.mp mem
  exact new u listed same

theorem commit_inv (inv : Inv caseId roles w) (row : UpdateRow) (new : fresh row w.updates = true) :
    Inv caseId roles { w with updates := w.updates ++ [row] } := by
  rw [fresh, Bool.and_eq_true, decide_eq_true_eq, List.all_eq_true] at new
  obtain ⟨positive, apart⟩ := new
  have other : ∀ u ∈ w.updates, u.sequenceId ≠ row.sequenceId ∧ u.updateId ≠ row.updateId ∧
      (u.caseId = row.caseId → u.sequenceId < row.sequenceId) := by
    intro u mem
    have facts := apart u mem
    simp only [Bool.and_eq_true, Bool.or_eq_true, decide_eq_true_eq, ne_eq, decide_not, Bool.not_eq_eq_eq_not,
      Bool.not_true, decide_eq_false_iff_not] at facts
    exact ⟨facts.1.1, facts.1.2, fun same => facts.2.resolve_left fun differs => differs same⟩
  obtain ⟨us, vs, parts, covers, ends⟩ := inv.closed
  have longer : ∀ {us vs}, ofCase caseId w.updates = us ++ vs → ofCase caseId (w.updates ++ [row]) =
      us ++ (vs ++ if row.caseId = some caseId then [row] else []) := fun parts => by
    rw [ofCase_concat, parts, List.append_assoc]
  refine ⟨?_, ?_, ?_, ?_, ⟨us, _, longer parts, covers, ends⟩, fun k opened => ?_, fun f mem => ?_⟩
  · exact nodup_concat inv.keys fun u mem => (other u mem).1
  · exact nodup_concat inv.names fun u mem => (other u mem).2.1
  · rw [ofCase_concat]
    refine List.pairwise_append.mpr ⟨inv.ascending, ?_, fun u mem v found => ?_⟩
    · split
      · exact List.pairwise_singleton _ row
      · exact List.Pairwise.nil
    · split at found
      · rename_i own
        rw [List.mem_singleton.mp found]
        obtain ⟨listed, here⟩ := mem_ofCase.mp mem
        exact (other u listed).2.2 (here.trans own.symm)
      · cases found
  · intro u mem
    rcases List.mem_append.mp mem with old | same
    · exact inv.positive u old
    · rw [List.mem_singleton.mp same]
      exact positive
  · obtain ⟨us, vs, parts, covers, ends⟩ := inv.opened k opened
    exact ⟨us, _, longer parts, covers, ends⟩
  · obtain ⟨u, listed, seen, form⟩ := inv.shown f mem
    exact ⟨u, by rw [ofCase_concat]; exact List.mem_append_left _ listed, seen, form⟩

theorem connect_inv (inv : Inv caseId roles w) (closed : w.connection = none) :
    Inv caseId roles { w with connection := some ⟨lastEventId w.frames, 0, []⟩ } := by
  refine ⟨inv.keys, inv.names, inv.ascending, inv.positive, inv.closed, fun k opened => ?_, fun f mem => ?_⟩
  · cases opened
    obtain ⟨us, vs, parts, covers, ends⟩ := inv.closed
    refine ⟨us, vs, parts, ?_, ?_⟩
    · change Covers caseId roles us (w.frames ++ [])
      rw [List.append_nil]
      exact covers
    · rw [lastSequence, ends]
      rfl
  · refine inv.shown f ?_
    rw [World.pending, closed]
    exact mem

theorem disconnect_inv (inv : Inv caseId roles w) : Inv caseId roles { w with connection := none } := by
  refine ⟨inv.keys, inv.names, inv.ascending, inv.positive, inv.closed, fun k opened => (by cases opened),
    fun f mem => inv.shown f ?_⟩
  change f ∈ w.frames ++ [] at mem
  rw [List.append_nil] at mem
  exact List.mem_append_left _ mem

theorem framesOf_append (cs ds : List Chunk) : framesOf (cs ++ ds) = framesOf cs ++ framesOf ds :=
  List.filterMap_append

theorem deliver_inv (inv : Inv caseId roles w) {cursor idleTicks : ℕ} {chunk : Chunk} {queue : List Chunk}
    (opened : w.connection = some ⟨cursor, idleTicks, chunk :: queue⟩) : Inv caseId roles
      { w with connection := some ⟨cursor, idleTicks, queue⟩, received := w.received ++ [chunk] } := by
  have moved : framesOf (w.received ++ [chunk]) ++ framesOf queue = w.frames ++ framesOf (chunk :: queue) := by
    rw [framesOf_append, List.append_assoc, ← framesOf_append]
    rfl
  obtain ⟨us, vs, parts, covers, ends⟩ := inv.opened _ opened
  rw [← moved] at covers
  refine ⟨inv.keys, inv.names, inv.ascending, inv.positive, ?_, fun k open_ => ?_, fun f mem => inv.shown f ?_⟩
  · obtain ⟨us₁, us₂, rfl, first, closes⟩ := covers_split covers
    exact ⟨us₁, us₂ ++ vs, parts.trans (List.append_assoc _ _ _), first, closes⟩
  · cases open_
    exact ⟨us, vs, parts, covers, ends⟩
  · rw [World.pending, opened]
    exact moved ▸ mem

theorem framesOf_idle (cursor idleTicks : ℕ) : framesOf (idle cursor idleTicks).queue = [] := by
  unfold idle
  split <;> rfl

theorem idle_cursor (cursor idleTicks : ℕ) : (idle cursor idleTicks).cursor = cursor := by
  unfold idle
  split <;> rfl

theorem framesOf_updates (rows : List UpdateRow) :
    framesOf (rows.map fun u => .frame (updateFrame u)) = rows.map updateFrame := by
  induction rows with
  | nil => rfl
  | cons u rows ih =>
    rw [List.map_cons, List.map_cons, ← ih]
    rfl

theorem pass_covers (cursor idleTicks : ℕ) (rows : List UpdateRow) :
    Covers caseId roles rows (framesOf (pass caseId roles cursor idleTicks rows).queue) ∧
      (pass caseId roles cursor idleTicks rows).cursor =
        (rows.getLast?.map UpdateRow.sequenceId).getD cursor := by
  unfold pass
  split
  next none =>
    rw [List.getLast?_eq_none_iff.mp none, framesOf_idle, idle_cursor]
    exact ⟨.nil, rfl⟩
  next last ends =>
    rw [ends]
    split
    next long =>
      have whole := @Covers.stretch caseId roles _ _ _ _ long ends .nil
      rw [List.append_nil] at whole
      exact ⟨whole, rfl⟩
    next =>
      have batch := @covers_batch caseId roles rows
      split
      next =>
        rw [framesOf_updates]
        exact ⟨batch, rfl⟩
      next unseen =>
        have none : rows.filter (visible roles) = [] := by
          rw [List.filter_eq_nil_iff]
          exact fun u mem shown => unseen (List.any_eq_true.mpr ⟨u, mem, shown⟩)
        rw [none] at batch
        rw [framesOf_idle, idle_cursor]
        exact ⟨batch, rfl⟩

theorem pass_shown {cursor idleTicks : ℕ} {rows : List UpdateRow}
    (ends : ∀ last, maxStreamBatch < rows.length → rows.getLast? = some last → visible roles last = true)
    {f : Frame} (mem : f ∈ framesOf (pass caseId roles cursor idleTicks rows).queue) :
    ∃ u ∈ rows, visible roles u = true ∧ (f = updateFrame u ∨ f = refreshFrame caseId u) := by
  unfold pass at mem
  split at mem
  next =>
    rw [framesOf_idle] at mem
    cases mem
  next last found =>
    split at mem
    next long =>
      exact ⟨last, List.mem_of_getLast? found, ends last long found, .inr (List.mem_singleton.mp mem)⟩
    next =>
      split at mem
      next =>
        rw [framesOf_updates] at mem
        obtain ⟨u, listed, rfl⟩ := List.mem_map.mp mem
        obtain ⟨listed, seen⟩ := List.mem_filter.mp listed
        exact ⟨u, listed, seen, .inl rfl⟩
      next =>
        rw [framesOf_idle] at mem
        cases mem

theorem Inv.selects (inv : Inv caseId roles w) {us vs : List UpdateRow} {cursor : ℕ}
    (parts : ofCase caseId w.updates = us ++ vs) (ends : lastSequence us = cursor) :
    select caseId cursor w.updates = vs.take (maxStreamBatch + 1) := by
  rw [← ends]
  refine select_behind parts (parts ▸ inv.ascending) fun u mem => inv.positive u ?_
  rw [← parts] at mem
  exact (mem_ofCase.mp mem).1

theorem poll_inv (inv : Inv caseId roles w) {cursor idleTicks : ℕ}
    (opened : w.connection = some ⟨cursor, idleTicks, []⟩) (ok : admitted caseId roles w .poll) :
    Inv caseId roles { w with
      connection := some (pass caseId roles cursor idleTicks (select caseId cursor w.updates)) } := by
  obtain ⟨us, vs, parts, covers, ends⟩ := inv.opened _ opened
  have rows := inv.selects parts ends
  change Covers caseId roles us (w.frames ++ []) at covers
  rw [List.append_nil] at covers
  have yields := @pass_covers caseId roles cursor idleTicks (select caseId cursor w.updates)
  refine ⟨inv.keys, inv.names, inv.ascending, inv.positive, inv.closed, fun k open_ => ?_, fun f mem => ?_⟩
  · cases open_
    refine ⟨us ++ select caseId cursor w.updates, vs.drop (maxStreamBatch + 1), ?_,
      covers_append covers yields.1, ?_⟩
    · rw [rows, List.append_assoc, List.take_append_drop, parts]
    · rw [yields.2, lastSequence, List.getLast?_append]
      cases (select caseId cursor w.updates).getLast? with
      | none => exact ends
      | some last => rfl
  · rcases List.mem_append.mp mem with old | new
    · exact inv.shown f (List.mem_append_left _ old)
    · obtain ⟨u, listed, seen, form⟩ := pass_shown (fun last long found => ok _ last opened long found) new
      refine ⟨u, ?_, seen, form⟩
      rw [parts]
      rw [rows] at listed
      exact List.mem_append_right us (List.mem_of_mem_take listed)

theorem step_inv (inv : Inv caseId roles w) (e : Event) (ok : admitted caseId roles w e) :
    Inv caseId roles (step caseId roles w e) := by
  cases e with
  | commit row =>
    rw [step]
    split
    · rename_i new
      exact commit_inv inv row new
    · exact inv
  | connect =>
    rw [step]
    split
    · rename_i closed
      exact connect_inv inv closed
    · exact inv
  | poll =>
    rw [step]
    split
    · rename_i cursor idleTicks opened
      exact poll_inv inv opened ok
    · exact inv
  | deliver =>
    rw [step]
    split
    · rename_i cursor idleTicks chunk queue opened
      exact deliver_inv inv opened
    · exact inv
  | disconnect => exact disconnect_inv inv

theorem Inv.complete (inv : Inv caseId roles w) : Complete caseId roles w := by
  obtain ⟨us, vs, parts, covers, ends⟩ := inv.closed
  have ascending := inv.ascending
  rw [parts] at ascending
  refine ⟨⟨us, vs, parts, covers, ?_⟩, (covers_ascending covers (List.pairwise_append.mp ascending).1).1,
    fun k opened empty found => ?_⟩
  · rw [lastSequence, ends, lastEventId]
  · obtain ⟨us, vs, parts, covers, ends⟩ := inv.opened k opened
    rw [inv.selects parts ends, List.take_eq_nil_iff] at found
    obtain rfl : vs = [] := found.resolve_left (by decide)
    rw [empty] at covers
    change Covers caseId roles us (w.frames ++ []) at covers
    rw [List.append_nil] at covers parts
    rw [parts]
    exact covers

theorem Inv.confidential (inv : Inv caseId roles w) : Confidential caseId roles w := by
  have shown : ∀ f ∈ w.frames, Shown caseId roles w.updates f :=
    fun f mem => inv.shown f (List.mem_append_left _ mem)
  refine ⟨fun f mem u listed unseen => ?_, shown⟩
  obtain ⟨v, known, seen, form⟩ := shown f mem
  have other : v ≠ u := fun same => by
    rw [same, unseen] at seen
    cases seen
  have id := fun same => other (List.inj_on_of_nodup_map inv.keys (mem_ofCase.mp known).1 listed same)
  have name := fun same => other (List.inj_on_of_nodup_map inv.names (mem_ofCase.mp known).1 listed same)
  rcases form with rfl | rfl
  · exact ⟨id, name⟩
  · exact ⟨id, name⟩

/-- What a client of one case receives over every run of commits, queries, deliveries, disconnects and
reconnects. -/
theorem stream_complete_and_confidential (caseId : String) (roles : List String) (events : List Event)
    (along : Along (step caseId roles) (admitted caseId roles) start events) :
    Throughout (step caseId roles) (fun w => Complete caseId roles w ∧ Confidential caseId roles w) start events := by
  refine throughout_of_along (I := Inv caseId roles) (fun w e inv ok => ?_) (fun w inv => ?_) start_inv along
  · exact step_inv inv e ok
  · exact ⟨inv.complete, inv.confidential⟩

end

def sampleRow (n : ℕ) (minimumRole : Option String) : UpdateRow :=
  ⟨n, toString n, "NOTIFICATION_CREATED", some "case-1", 1, "2026-01-02T03:04:05Z", .null, "event-1", minimumRole⟩

def sampleRun : List Event :=
  [.commit (sampleRow 1 none), .connect, .poll, .deliver, .disconnect, .commit (sampleRow 2 (some "platform_admin")),
    .connect, .poll]

theorem sampleRun_received : Throughout (step "case-1" ["read_only"])
    (fun w => Complete "case-1" ["read_only"] w ∧ Confidential "case-1" ["read_only"] w) start sampleRun := by
  refine stream_complete_and_confidential "case-1" ["read_only"] sampleRun
    ⟨trivial, trivial, fun k last opened long => ?_, trivial, trivial, trivial, trivial,
      fun k last opened long => ?_, trivial⟩
  · cases opened
    exact absurd long (by decide)
  · cases opened
    exact absurd long (by decide)

def overflowRun : List Event :=
  ((List.range 100).map fun i => .commit (sampleRow (i + 1) none)) ++
    [.commit (sampleRow 101 (some "platform_admin")), .connect, .poll, .deliver]

theorem overflowRun_leaks : ¬ Throughout (step "case-1" ["read_only"])
    (fun w => Complete "case-1" ["read_only"] w ∧ Confidential "case-1" ["read_only"] w) start overflowRun := by
  intro throughout
  have last := (throughout_last throughout).2
  have facts : (fun w : World => w.frames.any (fun f => f.id = 101) &&
      w.updates.any fun u => u.sequenceId = 101 && !visible ["read_only"] u)
      (run (step "case-1" ["read_only"]) start overflowRun) = true := by
    decide +kernel
  rw [Bool.and_eq_true, List.any_eq_true, List.any_eq_true] at facts
  obtain ⟨⟨f, mem, id⟩, u, listed, hidden⟩ := facts
  rw [Bool.and_eq_true, decide_eq_true_eq, Bool.not_eq_true'] at hidden
  rw [decide_eq_true_eq] at id
  exact (last.hidden f mem u listed hidden.2).1 (id.trans hidden.1.symm)

end Mirage.DashboardStream
