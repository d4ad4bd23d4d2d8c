import Mirage.DashboardProjection

/-! Runs of `project_event` over the events of one case, in any order and with
any redelivery. What the tables hold after a run is what they held before and
the records of each delivered event once, whatever the order of the deliveries. -/

namespace Mirage.DashboardRun
open DashboardRecords DashboardProjection

/-! Records less their versions. -/

def unversionedItem (item : TimelineItem) : TimelineItem := { item with version := 0 }

def unversionedNode (node : Node) : Node := { node with version := 0 }

def unversionedEdge (edge : Edge) : Edge := { edge with version := 0 }

def appended : Update → Option String
  | .timelineAppended _ _ _ item _ _ => some item.sourceEventId
  | _ => none

def projectedRows (caseId : String) (version : ℕ) (events : List Event) : List ProjectedEvent :=
  (events.zipIdx (version + 1)).map fun p => ⟨p.1.eventId, caseId, p.1.sequence, p.2⟩

section
variable (py : Python)

def itemsOf (caseId : String) (events : List Event) : List TimelineItem :=
  events.filterMap fun e => (eventToRecords py e caseId 0).map Records.timeline

def nodesOf (caseId : String) (events : List Event) : List Node :=
  events.filterMap fun e => (eventToRecords py e caseId 0).map Records.node

def edgesOf (caseId : String) (events : List Event) : List Edge :=
  events.filterMap fun e => (eventToRecords py e caseId 0).map Records.edge

def edgeMaterial (caseId : String) (e : Event) : String :=
  separator.intercalate [nodeId py e.eventId, caseId, "BELONGS_TO"]

structure Feed (db : Dashboard) (caseId : String) (events : List Event) : Prop where
  named : caseId ≠ ""
  ofCase : ∀ e ∈ events, e.caseId = some caseId
  distinct : (events.map Event.eventId).Nodup
  fresh : ∀ e ∈ events, Fresh py db caseId e

structure CollisionFree (caseId : String) (events : List Event) : Prop where
  ids : Set.InjOn py.digest { text | ∃ e ∈ events, text = e.eventId }
  edges : Set.InjOn py.digest { text | ∃ e ∈ events, text = edgeMaterial py caseId e }

def applying (db : Dashboard) (caseId : String) (applied : List Event) (d : Delivery) : List Event :=
  if d.event.eventId ∉ applied.map Event.eventId ∧ projectable py db caseId d.event = true then
    applied ++ [d.event]
  else applied

/-- The events that a run applies, in order: the first deliveries of those that
the database takes. -/
def appliedBy (db : Dashboard) (caseId : String) (deliveries : List Delivery) : List Event :=
  deliveries.foldl (applying py db caseId) []

def lastCaseNode (caseId : String) (version : ℕ) (applied : List Event) : Option Node :=
  applied.getLast?.bind fun e =>
    (contentOf py e).map fun c => caseNode py caseId version c.eventTime e.eventId

structure Holds (caseId : String) (applied : List Event) (db db' : Dashboard) : Prop where
  cases : db'.cases = db.cases
  sessions : db'.sessions = db.sessions
  version : (offsetOf db' caseId).projectionVersion =
    (offsetOf db caseId).projectionVersion + applied.length
  sequence : (offsetOf db' caseId).lastSourceSequence =
    (applied.map Event.sequence).foldl max (offsetOf db caseId).lastSourceSequence
  projected : db'.projected.rows =
    db.projected.rows ++ projectedRows caseId (offsetOf db caseId).projectionVersion applied
  items : db'.timeline.rows.map unversionedItem =
    db.timeline.rows.map unversionedItem ++ itemsOf py caseId applied
  nodes : (eventNodes db' caseId).map unversionedNode =
    (eventNodes db caseId).map unversionedNode ++ nodesOf py caseId applied
  caseRow : db.nodes.find (caseNodeId caseId) = none →
    db'.nodes.find (caseNodeId caseId) =
      lastCaseNode py caseId (offsetOf db' caseId).projectionVersion applied
  edges : db'.edges.rows.map unversionedEdge =
    db.edges.rows.map unversionedEdge ++ edgesOf py caseId applied
  updates : ∃ published, db'.updates = db.updates ++ published ∧
    published.filterMap appended = applied.map Event.eventId

theorem holds_refl (caseId : String) (db : Dashboard) : Holds py caseId [] db db where
  cases := rfl
  sessions := rfl
  version := rfl
  sequence := rfl
  projected := (List.append_nil _).symm
  items := (List.append_nil _).symm
  nodes := (List.append_nil _).symm
  caseRow := id
  edges := (List.append_nil _).symm
  updates := ⟨[], (List.append_nil _).symm, rfl⟩

theorem projectedRows_append (caseId : String) (version : ℕ) (events : List Event) (e : Event) :
    projectedRows caseId version (events ++ [e]) = projectedRows caseId version events ++
      [⟨e.eventId, caseId, e.sequence, version + events.length + 1⟩] := by
  rw [projectedRows, List.zipIdx_append, List.map_append, projectedRows]
  simp only [List.zipIdx_singleton, List.map_cons, List.map_nil]
  rw [Nat.add_right_comm]

theorem projectedRows_eventIds (caseId : String) (version : ℕ) (events : List Event) :
    (projectedRows caseId version events).map ProjectedEvent.eventId = events.map Event.eventId := by
  have events_zip := List.zipIdx_map_fst (version + 1) events
  conv_rhs => rw [← events_zip]
  rw [projectedRows, List.map_map, List.map_map]
  rfl

theorem projectedRows_versions (caseId : String) (version : ℕ) (events : List Event) :
    (projectedRows caseId version events).map ProjectedEvent.projectionVersion =
      List.range' (version + 1) events.length := by
  rw [← List.zipIdx_map_snd (version + 1) events, projectedRows, List.map_map]
  rfl

theorem eventToRecords_eq {e : Event} {c : Content} (content : contentOf py e = some c)
    (caseId : String) (version : ℕ) :
    eventToRecords py e caseId version = some (recordsOf py e caseId c version) := by
  rw [eventToRecords, content, Option.map_some]

theorem merge_caseNode (caseId : String) (version version' : ℕ) (eventTime eventTime' : Int)
    (eventId eventId' : String) :
    Node.merge (caseNode py caseId version eventTime eventId)
      (caseNode py caseId version' eventTime' eventId') =
        caseNode py caseId version' eventTime' eventId' := by
  simp only [Node.merge, caseNode]

theorem holds_applied {caseId : String} {applied : List Event} {db db' db'' : Dashboard} {e : Event}
    {c : Content} {gap : Bool} (holds : Holds py caseId applied db db')
    (content : contentOf py e = some c)
    (next : Applied py caseId e c ((offsetOf db' caseId).projectionVersion + 1) gap db' db'') :
    Holds py caseId (applied ++ [e]) db db'' where
  cases := next.cases.trans holds.cases
  sessions := next.sessions.trans holds.sessions
  version := by
    rw [next.offset, List.length_append]
    change (offsetOf db' caseId).projectionVersion + 1 = _
    rw [holds.version]
    rfl
  sequence := by
    rw [next.offset, List.map_append, List.foldl_append]
    change max (offsetOf db' caseId).lastSourceSequence e.sequence = _
    rw [holds.sequence]
    rfl
  projected := by
    rw [next.projected, holds.projected, holds.version, projectedRows_append, List.append_assoc]
  items := by
    rw [next.timeline, List.map_append, holds.items, itemsOf, itemsOf, List.filterMap_append,
      List.append_assoc]
    simp only [List.filterMap_cons, List.filterMap_nil, eventToRecords_eq py content, Option.map_some]
    rfl
  nodes := by
    rw [next.nodes, List.map_append, holds.nodes, nodesOf, nodesOf, List.filterMap_append,
      List.append_assoc]
    simp only [List.filterMap_cons, List.filterMap_nil, eventToRecords_eq py content, Option.map_some]
    rfl
  caseRow := by
    intro absent
    have latest : lastCaseNode py caseId (offsetOf db'' caseId).projectionVersion (applied ++ [e]) =
        some (caseNode py caseId ((offsetOf db' caseId).projectionVersion + 1) c.eventTime e.eventId) := by
      rw [lastCaseNode, List.getLast?_append, next.offset]
      simp only [List.getLast?_singleton, Option.some_or, Option.bind_some, content, Option.map_some]
      rfl
    rw [next.caseRow, holds.caseRow absent, latest, Option.some.injEq]
    cases before : lastCaseNode py caseId (offsetOf db' caseId).projectionVersion applied with
    | none => rfl
    | some row =>
      obtain ⟨e', -, made⟩ := Option.bind_eq_some_iff.mp before
      obtain ⟨c', -, rfl⟩ := Option.map_eq_some_iff.mp made
      exact merge_caseNode py caseId _ _ _ _ _ _
  edges := by
    rw [next.edges, List.map_append, holds.edges, edgesOf, edgesOf, List.filterMap_append,
      List.append_assoc]
    simp only [List.filterMap_cons, List.filterMap_nil, eventToRecords_eq py content, Option.map_some]
    rfl
  updates := by
    obtain ⟨published, earlier, announced⟩ := holds.updates
    have report : ∀ update : Update, appended update = none →
        (if gap then [update] else []).filterMap appended = [] := by
      intro update silent
      cases gap with
      | false => rfl
      | true => simp [silent]
    refine ⟨_, by rw [next.updates, earlier, List.append_assoc, List.append_assoc], ?_⟩
    rw [List.filterMap_append, List.filterMap_append, announced, report _ rfl, List.map_append]
    rfl

/-! The list of the events applied. -/

theorem mem_of_mem_applying {db : Dashboard} {caseId : String} {applied : List Event} {d : Delivery}
    {e : Event} (mem : e ∈ applying py db caseId applied d) : e ∈ applied ∨ e = d.event := by
  unfold applying at mem
  split at mem
  · rw [List.mem_append, List.mem_singleton] at mem
    exact mem
  · exact .inl mem

theorem applying_nodup {db : Dashboard} {caseId : String} {applied : List Event} (d : Delivery)
    (once : (applied.map Event.eventId).Nodup) :
    ((applying py db caseId applied d).map Event.eventId).Nodup := by
  unfold applying
  split
  · rename_i new
    rw [List.map_append, List.nodup_append]
    refine ⟨once, List.nodup_singleton _, ?_⟩
    rintro name listed name' last rfl
    rw [List.map_singleton, List.mem_singleton] at last
    exact new.1 (last ▸ listed)
  · exact once

theorem appliedBy_nodup (db : Dashboard) (caseId : String) (deliveries : List Delivery) :
    ((appliedBy py db caseId deliveries).map Event.eventId).Nodup := by
  suffices h : ∀ applied : List Event, (applied.map Event.eventId).Nodup →
      ((deliveries.foldl (applying py db caseId) applied).map Event.eventId).Nodup from
    h [] List.nodup_nil
  induction deliveries with
  | nil => exact fun _ once => once
  | cons d rest ih => exact fun applied once => ih _ (applying_nodup py d once)

theorem mem_applying {db : Dashboard} {caseId : String} {events applied : List Event} {d : Delivery}
    (distinct : (events.map Event.eventId).Nodup) (mem : d.event ∈ events)
    (within : ∀ e ∈ applied, e ∈ events) (e : Event) : e ∈ applying py db caseId applied d ↔
      e ∈ applied ∨ e = d.event ∧ projectable py db caseId e = true := by
  unfold applying
  split
  · rename_i new
    rw [List.mem_append, List.mem_singleton]
    exact or_congr_right ⟨fun equal => ⟨equal, equal ▸ new.2⟩, And.left⟩
  · rename_i old
    refine ⟨Or.inl, ?_⟩
    rintro (listed | ⟨rfl, taken⟩)
    · exact listed
    · have seen : d.event.eventId ∈ applied.map Event.eventId := by
        by_contra new
        exact old ⟨new, taken⟩
      obtain ⟨e, listed, same⟩ := List.mem_map.mp seen
      exact List.inj_on_of_nodup_map distinct (within e listed) mem same ▸ listed

theorem mem_appliedBy {db : Dashboard} {caseId : String} {events : List Event}
    {deliveries : List Delivery} (distinct : (events.map Event.eventId).Nodup)
    (only : ∀ d ∈ deliveries, d.event ∈ events) (e : Event) :
    e ∈ appliedBy py db caseId deliveries ↔
      (∃ d ∈ deliveries, d.event = e) ∧ projectable py db caseId e = true := by
  suffices h : ∀ applied : List Event, (∀ e ∈ applied, e ∈ events) →
      (e ∈ deliveries.foldl (applying py db caseId) applied ↔
        e ∈ applied ∨ (∃ d ∈ deliveries, d.event = e) ∧ projectable py db caseId e = true) by
    rw [appliedBy, h [] (by simp)]
    simp
  induction deliveries with
  | nil => simp
  | cons d rest ih =>
    intro applied within
    have mem := only d List.mem_cons_self
    have within' : ∀ e ∈ applying py db caseId applied d, e ∈ events := by
      intro e' listed
      rcases mem_of_mem_applying py listed with old | rfl
      · exact within e' old
      · exact mem
    rw [List.foldl_cons, ih (fun d' later => only d' (List.mem_cons_of_mem d later)) _ within',
      mem_applying py distinct mem within, List.exists_mem_cons_iff, or_assoc, eq_comm (a := e),
      or_and_right]

theorem mem_of_map_append {ρ : Type} {f : ρ → ρ} {rows rows' added : List ρ} {row : ρ}
    (grown : rows'.map f = rows.map f ++ added) (mem : row ∈ rows') :
    (∃ old ∈ rows, f old = f row) ∨ f row ∈ added := by
  have image := List.mem_map_of_mem (f := f) mem
  rw [grown, List.mem_append, List.mem_map] at image
  exact image

/-! The identifiers of the records. -/

theorem stableId_digest {kind : String} {parts parts' : List String}
    (same : stableId py kind parts = stableId py kind parts') :
    py.digest (separator.intercalate parts) = py.digest (separator.intercalate parts') := by
  rw [stableId, stableId, String.append_right_inj] at same
  exact same

theorem mem_parts {ρ : Type} {part : Records → ρ} {caseId : String} {events : List Event} {x : ρ} :
    x ∈ events.filterMap (fun e => (eventToRecords py e caseId 0).map part) ↔
      ∃ e ∈ events, ∃ c, contentOf py e = some c ∧ part (recordsOf py e caseId c 0) = x := by
  rw [List.mem_filterMap]
  simp only [eventToRecords, Option.map_map, Option.map_eq_some_iff, Function.comp_apply]

section
variable {caseId : String} {events : List Event} (apart : CollisionFree py caseId events)
include apart

theorem eventId_of_stableId {kind : String} {e e' : Event} (mem : e ∈ events) (mem' : e' ∈ events)
    (same : stableId py kind [e.eventId] = stableId py kind [e'.eventId]) : e.eventId = e'.eventId := by
  have digests := stableId_digest py same
  rw [String.intercalate_singleton, String.intercalate_singleton] at digests
  exact apart.ids ⟨e, mem, rfl⟩ ⟨e', mem', rfl⟩ digests

theorem eventId_of_edgeId {e e' : Event} (mem : e ∈ events) (mem' : e' ∈ events)
    (same : edgeId py (nodeId py e.eventId) caseId = edgeId py (nodeId py e'.eventId) caseId) :
    e.eventId = e'.eventId := by
  have materials : edgeMaterial py caseId e = edgeMaterial py caseId e' :=
    apart.edges ⟨e, mem, rfl⟩ ⟨e', mem', rfl⟩ (stableId_digest py same)
  simp only [edgeMaterial, String.intercalate_cons_cons, String.append_left_inj] at materials
  exact eventId_of_stableId py apart mem mem' materials

theorem fresh_of_holds {db db' : Dashboard} {applied : List Event} {e : Event}
    (holds : Holds py caseId applied db db') (fresh : Fresh py db caseId e) (mem : e ∈ events)
    (within : ∀ e' ∈ applied, e' ∈ events) (new : ∀ e' ∈ applied, e'.eventId ≠ e.eventId) :
    Fresh py db' caseId e where
  projected := by
    rw [KeyedTable.find_eq_none, holds.projected, List.map_append, projectedRows_eventIds,
      List.mem_append]
    rintro (old | listed)
    · exact db.projected.find_eq_none.mp fresh.projected old
    · obtain ⟨e', applied', same⟩ := List.mem_map.mp listed
      exact new e' applied' same
  item := by
    rw [KeyedTable.find_eq_none, List.mem_map]
    rintro ⟨row, stored, same⟩
    rcases mem_of_map_append holds.items stored with ⟨old, held, equal⟩ | added
    · exact db.timeline.find_eq_none.mp fresh.item
        (List.mem_map.mpr ⟨old, held, (congrArg TimelineItem.itemId equal).trans same⟩)
    · obtain ⟨e', applied', c, -, made⟩ := (mem_parts py).mp added
      exact new e' applied' (eventId_of_stableId py apart (within e' applied') mem
        ((congrArg TimelineItem.itemId made).trans same))
  source := by
    intro row stored same
    rcases mem_of_map_append holds.items stored with ⟨old, held, equal⟩ | added
    · exact fresh.source old held ((congrArg TimelineItem.sourceEventId equal).trans same)
    · obtain ⟨e', applied', c, -, made⟩ := (mem_parts py).mp added
      exact new e' applied' ((congrArg TimelineItem.sourceEventId made).trans same)
  node := by
    rw [KeyedTable.find_eq_none, List.mem_map]
    rintro ⟨row, stored, same⟩
    have selected : row ∈ eventNodes db' caseId := by
      rw [eventNodes, List.mem_filter, decide_eq_true_eq, same]
      exact ⟨stored, nodeId_ne_caseNodeId py e.eventId caseId⟩
    rcases mem_of_map_append holds.nodes selected with ⟨old, held, equal⟩ | added
    · exact db.nodes.find_eq_none.mp fresh.node
        (List.mem_map.mpr ⟨old, (List.mem_filter.mp held).1, (congrArg Node.nodeId equal).trans same⟩)
    · obtain ⟨e', applied', c, -, made⟩ := (mem_parts py).mp added
      exact new e' applied' (eventId_of_stableId py apart (within e' applied') mem
        ((congrArg Node.nodeId made).trans same))
  edge := by
    rw [KeyedTable.find_eq_none, List.mem_map]
    rintro ⟨row, stored, same⟩
    rcases mem_of_map_append holds.edges stored with ⟨old, held, equal⟩ | added
    · exact db.edges.find_eq_none.mp fresh.edge
        (List.mem_map.mpr ⟨old, held, (congrArg Edge.edgeId equal).trans same⟩)
    · obtain ⟨e', applied', c, -, made⟩ := (mem_parts py).mp added
      exact new e' applied' (eventId_of_edgeId py apart (within e' applied') mem
        ((congrArg Edge.edgeId made).trans same))

omit apart in
theorem projectable_of_holds {db db' : Dashboard} {applied : List Event}
    (holds : Holds py caseId applied db db') (e : Event) :
    projectable py db' caseId e = projectable py db caseId e := by
  simp only [projectable, admitted, holds.cases, holds.sessions]

omit apart in
theorem found_of_applied {db db' : Dashboard} {applied : List Event} {eventId : String}
    (holds : Holds py caseId applied db db') (seen : eventId ∈ applied.map Event.eventId) :
    ∃ row, db'.projected.find eventId = some row := by
  have stored : eventId ∈ db'.projected.rows.map ProjectedEvent.eventId := by
    rw [holds.projected, List.map_append, projectedRows_eventIds]
    exact List.mem_append_right _ seen
  cases found : db'.projected.find eventId with
  | none => exact absurd stored (db'.projected.find_eq_none.mp found)
  | some row => exact ⟨row, rfl⟩

omit apart in
theorem deliver_of_applied {db db' : Dashboard} {applied : List Event} {d : Delivery}
    (feed : Feed py db caseId events) (mem : d.event ∈ events)
    (holds : Holds py caseId applied db db') (seen : d.event.eventId ∈ applied.map Event.eventId) :
    deliver py db' d = db' := by
  obtain ⟨row, found⟩ := found_of_applied py holds seen
  exact deliver_of_projected py (feed.ofCase d.event mem) feed.named found

theorem applied_deliver {db db' : Dashboard} {applied : List Event} {d : Delivery}
    (feed : Feed py db caseId events) (mem : d.event ∈ events)
    (holds : Holds py caseId applied db db') (within : ∀ e ∈ applied, e ∈ events)
    (new : d.event.eventId ∉ applied.map Event.eventId)
    (taken : projectable py db caseId d.event = true) :
    ∃ c, contentOf py d.event = some c ∧
      (projectEvent py d db').map Prod.snd =
        some ⟨true, false, isGap (offsetOf db' caseId).lastSourceSequence d.event.sequence,
          (offsetOf db' caseId).projectionVersion + 1⟩ ∧
      Applied py caseId d.event c ((offsetOf db' caseId).projectionVersion + 1)
        (isGap (offsetOf db' caseId).lastSourceSequence d.event.sequence) db' (deliver py db' d) := by
  have unseen : ∀ e ∈ applied, e.eventId ≠ d.event.eventId :=
    fun e listed same => new (List.mem_map.mpr ⟨e, listed, same⟩)
  have fresh := fresh_of_holds py apart holds (feed.fresh d.event mem) mem within unseen
  rw [← projectable_of_holds py holds] at taken
  obtain ⟨c, content, -⟩ := projectable_spec py taken
  have ofCase := feed.ofCase d.event mem
  refine ⟨c, content, ?_, deliver_of_fresh py ofCase feed.named fresh taken content⟩
  rw [projectEvent_of_fresh py ofCase feed.named fresh taken content]
  rfl

theorem holds_deliver {db db' : Dashboard} {applied : List Event} {d : Delivery}
    (feed : Feed py db caseId events) (mem : d.event ∈ events)
    (holds : Holds py caseId applied db db') (within : ∀ e ∈ applied, e ∈ events) :
    Holds py caseId (applying py db caseId applied d) db (deliver py db' d) := by
  by_cases seen : d.event.eventId ∈ applied.map Event.eventId
  · rw [deliver_of_applied py feed mem holds seen, applying, if_neg (fun both => both.1 seen)]
    exact holds
  · cases taken : projectable py db caseId d.event with
    | false =>
      rw [deliver_of_refused py (feed.ofCase d.event mem) feed.named
        ((projectable_of_holds py holds d.event).trans taken), applying, if_neg (by simp [taken])]
      exact holds
    | true =>
      obtain ⟨c, content, -, next⟩ := applied_deliver py apart feed mem holds within seen taken
      rw [applying, if_pos ⟨seen, taken⟩]
      exact holds_applied py holds content next

theorem holds_run {db : Dashboard} (feed : Feed py db caseId events) (deliveries : List Delivery)
    (only : ∀ d ∈ deliveries, d.event ∈ events) {db' : Dashboard} {applied : List Event}
    (holds : Holds py caseId applied db db') (within : ∀ e ∈ applied, e ∈ events) :
    Holds py caseId (deliveries.foldl (applying py db caseId) applied) db
      (deliveries.foldl (deliver py) db') := by
  induction deliveries generalizing db' applied with
  | nil => exact holds
  | cons d rest ih =>
    have mem := only d List.mem_cons_self
    apply ih (fun d' later => only d' (List.mem_cons_of_mem d later))
      (holds_deliver py apart feed mem holds within)
    intro e listed
    rcases mem_of_mem_applying py listed with old | rfl
    · exact within e old
    · exact mem

theorem holds_appliedBy {db : Dashboard} (feed : Feed py db caseId events) {deliveries : List Delivery}
    (only : ∀ d ∈ deliveries, d.event ∈ events) :
    Holds py caseId (appliedBy py db caseId deliveries) db (deliveries.foldl (deliver py) db) :=
  holds_run py apart feed deliveries only (holds_refl py caseId db) (by simp)

omit apart in
/-- A run that delivers every event has applied those that the database takes, in
some order. -/
theorem appliedBy_perm {db : Dashboard} (distinct : (events.map Event.eventId).Nodup)
    {deliveries : List Delivery} (only : ∀ d ∈ deliveries, d.event ∈ events)
    (covers : ∀ e ∈ events, ∃ d ∈ deliveries, d.event = e) :
    (appliedBy py db caseId deliveries).Perm (events.filter (projectable py db caseId)) := by
  rw [List.perm_ext_iff_of_nodup (appliedBy_nodup py db caseId deliveries).of_map
    (distinct.of_map.filter _)]
  intro e
  rw [mem_appliedBy py distinct only, List.mem_filter]
  refine and_congr_left fun _ => ⟨?_, covers e⟩
  rintro ⟨d, delivered, rfl⟩
  exact only d delivered

/-- Projection is idempotent and blind to order: whatever the deliveries, each
event that the database takes is applied once, under a version of its own, and
the records are those of the set of these events. -/
theorem projection_once {db : Dashboard} (feed : Feed py db caseId events) (deliveries : List Delivery)
    (only : ∀ d ∈ deliveries, d.event ∈ events)
    (covers : ∀ e ∈ events, ∃ d ∈ deliveries, d.event = e) :
    let db' := deliveries.foldl (deliver py) db
    let applied := events.filter (projectable py db caseId)
    (offsetOf db' caseId).projectionVersion =
        (offsetOf db caseId).projectionVersion + applied.length ∧
      (∃ rows, db'.projected.rows = db.projected.rows ++ rows ∧
        (rows.map ProjectedEvent.eventId).Perm (applied.map Event.eventId) ∧
        (rows.map ProjectedEvent.projectionVersion).Nodup) ∧
      (db'.timeline.rows.map unversionedItem).Perm
        (db.timeline.rows.map unversionedItem ++ itemsOf py caseId applied) ∧
      ((eventNodes db' caseId).map unversionedNode).Perm
        ((eventNodes db caseId).map unversionedNode ++ nodesOf py caseId applied) ∧
      (db'.edges.rows.map unversionedEdge).Perm
        (db.edges.rows.map unversionedEdge ++ edgesOf py caseId applied) ∧
      (offsetOf db' caseId).lastSourceSequence =
        (applied.map Event.sequence).foldl max (offsetOf db caseId).lastSourceSequence ∧
      ∃ published, db'.updates = db.updates ++ published ∧
        (published.filterMap appended).Perm (applied.map Event.eventId) := by
  intro db' applied
  have holds := holds_appliedBy py apart feed only
  have perm : (appliedBy py db caseId deliveries).Perm applied :=
    appliedBy_perm py feed.distinct only covers
  refine ⟨?_, ⟨_, holds.projected, ?_, ?_⟩, ?_, ?_, ?_, ?_, ?_⟩
  · rw [holds.version, perm.length_eq]
  · rw [projectedRows_eventIds]
    exact perm.map _
  · rw [projectedRows_versions]
    exact List.nodup_range'
  · rw [holds.items]
    exact (perm.filterMap _).append_left _
  · rw [holds.nodes]
    exact (perm.filterMap _).append_left _
  · rw [holds.edges]
    exact (perm.filterMap _).append_left _
  · rw [holds.sequence]
    exact (perm.map _).foldl_eq _
  · obtain ⟨published, earlier, announced⟩ := holds.updates
    exact ⟨published, earlier, announced ▸ perm.map _⟩

end

end

/-! Four detections of one case, with the digests of their identifiers. -/

def sampleCase : String := "01HX3QK7Z0000000000000CASE"

def edgeText (node : String) : String := separator.intercalate [node, sampleCase, "BELONGS_TO"]

def sampleDigests : List (String × String) :=
  [("01HX3QK7Z0000000000000000A", "9be064a56b954edb95fbe6a15a1897cc"),
    ("01HX3QK7Z0000000000000000B", "f5ccbdb4a8a9d1e5bc529eda49355e1d"),
    ("01HX3QK7Z0000000000000000C", "8c4e4a43a9b8475ddd29c7a9ca5e022b"),
    ("01HX3QK7Z0000000000000000D", "8d3f99a21d658c9c916bb42107da079e"),
    (edgeText "node:9be064a56b954edb95fbe6a15a1897cc", "7fe249084f34b719e643cc1f43578e82"),
    (edgeText "node:f5ccbdb4a8a9d1e5bc529eda49355e1d", "9af9fe3b32a102b763c9bbad11c0cbcd"),
    (edgeText "node:8c4e4a43a9b8475ddd29c7a9ca5e022b", "7c74db576bf9a05eaa1fafb08f7f7de0"),
    (edgeText "node:8d3f99a21d658c9c916bb42107da079e", "ff52ade9b39213d1b9c85dc76795d302")]

def samplePython : Python where
  str _ := ""
  upper := String.toUpper
  lower := String.toLower
  title s := s
  fromisoformat s := if s = "2024-05-01T10:00:00+00:00" then some 1714557600 else none
  float _ := none
  digest s := (sampleDigests.lookup s).getD ""

def sampleEvent (eventId sourceId : String) (sequence : ℕ) : Event where
  eventId
  eventType := "detection.raised"
  eventTime := "2024-05-01T10:00:00+00:00"
  caseId := some sampleCase
  sessionId := none
  sourceId
  sequence
  actorType := "SYSTEM"
  classification := "INTERNAL"
  payload := [("summary", .str "Beacon seen")]

def sampleDashboard : Dashboard := ⟨[sampleCase], [], .empty, .empty, .empty, .empty, .empty, .empty, [], []⟩

def detections : List Event :=
  [sampleEvent "01HX3QK7Z0000000000000000A" "sensor-1" 1, sampleEvent "01HX3QK7Z0000000000000000B" "sensor-1" 2]

theorem fresh_sample (e : Event) : Fresh samplePython sampleDashboard sampleCase e where
  projected := rfl
  item := rfl
  source := by
    intro row stored
    cases stored
  node := rfl
  edge := rfl

theorem detections_apart : CollisionFree samplePython sampleCase detections where
  ids := by
    have apart : ∀ e ∈ detections, ∀ e' ∈ detections,
        samplePython.digest e.eventId = samplePython.digest e'.eventId → e.eventId = e'.eventId := by
      decide
    rintro _ ⟨e, listed, rfl⟩ _ ⟨e', listed', rfl⟩ same
    exact apart e listed e' listed' same
  edges := by
    have apart : ∀ e ∈ detections, ∀ e' ∈ detections,
        samplePython.digest (edgeMaterial samplePython sampleCase e) =
          samplePython.digest (edgeMaterial samplePython sampleCase e') →
        edgeMaterial samplePython sampleCase e = edgeMaterial samplePython sampleCase e' := by
      decide
    rintro _ ⟨e, listed, rfl⟩ _ ⟨e', listed', rfl⟩ same
    exact apart e listed e' listed' same

theorem detections_feed : Feed samplePython sampleDashboard sampleCase detections where
  named := by decide
  ofCase := by decide
  distinct := by decide
  fresh := fun e _ => fresh_sample e

theorem detections_taken :
    ∀ e ∈ detections, projectable samplePython sampleDashboard sampleCase e = true := by
  decide +kernel

/-- Two detections, each delivered twice. -/
theorem detections_once :
    (offsetOf (((detections ++ detections).reverse.map fun e => ⟨e, false⟩).foldl
      (deliver samplePython) sampleDashboard) sampleCase).projectionVersion = 2 := by
  have once := (projection_once samplePython detections_apart detections_feed
    ((detections ++ detections).reverse.map fun e => ⟨e, false⟩) (by simp) (by simp)).1
  rw [List.filter_eq_self.mpr detections_taken] at once
  exact once

/-- An event that names a session the database does not know is never applied. -/
theorem unknown_session_not_projected :
    let e := { sampleEvent "01HX3QK7Z0000000000000000A" "sensor-1" 1 with sessionId := some "01HX3QK7Z0000000000000SESS" }
    Fresh samplePython sampleDashboard sampleCase e ∧ (contentOf samplePython e).isSome ∧
      e.caseId = some sampleCase ∧
      (offsetOf (deliver samplePython sampleDashboard ⟨e, false⟩) sampleCase).projectionVersion ≠
        (offsetOf sampleDashboard sampleCase).projectionVersion + 1 :=
  ⟨fresh_sample _, by decide +kernel, rfl, by decide +kernel⟩

end Mirage.DashboardRun
