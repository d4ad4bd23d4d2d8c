import Mirage.DashboardRecords
import Mirage.KeyedTable
import Mirage.EventRun

/-! `DashboardProjector.project_event` over the tables of the dashboard. -/

namespace Mirage.DashboardProjection
open DashboardRecords EventRun

structure Offset where
  caseId : String
  projectionVersion : ℕ
  lastSourceSequence : ℕ
  lastEventId : Option String
  lastEventTime : Option Int
  gapDetected : Bool
  gapFrom : Option ℕ
  gapTo : Option ℕ

structure ProjectedEvent where
  eventId : String
  caseId : String
  sourceSequence : ℕ
  projectionVersion : ℕ
  deriving DecidableEq

inductive Freshness where
  | current | gapDetected | rebuilding
  deriving DecidableEq

structure Summary where
  caseId : String
  projectionVersion : ℕ
  lastEventTime : Int
  sourceEventIds : List String
  freshness : Freshness

structure Notification where
  caseId : String
  eventId : String
  gapFrom : ℕ
  gapTo : ℕ
  deriving DecidableEq

inductive Update where
  | timelineAppended (caseId : String) (version : ℕ) (eventTime : Int) (item : TimelineItem)
      (node : Node) (correlationId : String)
  | notificationCreated (caseId : String) (version gapFrom gapTo : ℕ) (correlationId : String)
  | caseUpdated (caseId : String) (version : ℕ)

structure Dashboard where
  cases : List String
  sessions : List String
  offsets : KeyedTable Offset.caseId
  projected : KeyedTable ProjectedEvent.eventId
  summaries : KeyedTable Summary.caseId
  timeline : KeyedTable TimelineItem.itemId
  nodes : KeyedTable Node.nodeId
  edges : KeyedTable Edge.edgeId
  notifications : List Notification
  updates : List Update

structure ProjectionResult where
  applied : Bool
  duplicate : Bool
  gapDetected : Bool
  projectionVersion : ℕ
  deriving DecidableEq

def maxBigint : ℕ := 2 ^ 63 - 1

/-! What Postgres stores: texts without U+0000, and JSON numbers that are finite. -/

def storableText (s : String) : Bool := Char.ofNat 0 ∉ s.toList

mutual
def storableJson : Json → Bool
  | .str s => storableText s
  | .float repr integral => match Json.floatNum repr integral with
    | .finite _ => true
    | _ => false
  | .arr items => storableItems items
  | .obj members => storableMembers members
  | _ => true
def storableItems : List Json → Bool
  | [] => true
  | item :: rest => storableJson item && storableItems rest
def storableMembers : List (String × Json) → Bool
  | [] => true
  | (name, value) :: rest => storableText name && storableJson value && storableMembers rest
end

def storableReference : SourceReference → Bool
  | .domainEvent sourceId _ eventId => storableText sourceId && storableText eventId
  | .domainRow sourceId | .case sourceId => storableText sourceId

def storableColumns (c : Columns) : Bool :=
  storableText c.label && storableText c.caseId && c.sessionId.all storableText &&
    c.sourceEventIds.all storableText && c.sourceReferences.all storableReference &&
    c.evidenceReferences.all storableText && storableJson c.displayMetadata

def admitted (db : Dashboard) (c : Columns) : Bool :=
  c.caseId ∈ db.cases && c.sessionId.all (· ∈ db.sessions) && storableColumns c

def TimelineItem.merge (row item : TimelineItem) : TimelineItem :=
  { row with
    label := item.label, description := item.description,
    evidenceReferences := item.evidenceReferences, displayMetadata := item.displayMetadata,
    permissions := item.permissions, version := item.version }

def Node.merge (row node : Node) : Node :=
  { row with
    label := node.label, eventTime := node.eventTime, sourceEventIds := node.sourceEventIds,
    sourceReferences := node.sourceReferences, evidenceReferences := node.evidenceReferences,
    classification := node.classification, confidence := node.confidence,
    outputTag := node.outputTag, displayMetadata := node.displayMetadata,
    permissions := node.permissions, version := node.version }

def Edge.merge (row edge : Edge) : Edge :=
  { row with
    label := edge.label, eventTime := edge.eventTime,
    evidenceReferences := edge.evidenceReferences, displayMetadata := edge.displayMetadata,
    permissions := edge.permissions, version := edge.version }

/-! The statements `INSERT … ON CONFLICT DO UPDATE`. -/

theorem TimelineItem.merge_itemId (row item : TimelineItem) : (merge row item).itemId = row.itemId := rfl

theorem Node.merge_nodeId (row node : Node) : (merge row node).nodeId = row.nodeId := rfl

@[simp] theorem Node.merge_caseId (row node : Node) : (merge row node).caseId = row.caseId := rfl

@[simp] theorem TimelineItem.merge_caseId (row item : TimelineItem) :
    (merge row item).caseId = row.caseId := rfl

@[simp] theorem TimelineItem.merge_sourceReferences (row item : TimelineItem) :
    (merge row item).sourceReferences = row.sourceReferences := rfl

theorem Edge.merge_edgeId (row edge : Edge) : (merge row edge).edgeId = row.edgeId := rfl

def putTimeline (item : TimelineItem) (t : KeyedTable TimelineItem.itemId) :
    KeyedTable TimelineItem.itemId :=
  t.upsert item (TimelineItem.merge · item) fun row => TimelineItem.merge_itemId row item

def putNode (node : Node) (t : KeyedTable Node.nodeId) : KeyedTable Node.nodeId :=
  t.upsert node (Node.merge · node) fun row => Node.merge_nodeId row node

def putEdge (edge : Edge) (t : KeyedTable Edge.edgeId) : KeyedTable Edge.edgeId :=
  t.upsert edge (Edge.merge · edge) fun row => Edge.merge_edgeId row edge

def putSummary (caseId : String) (version : ℕ) (eventTime : Int) (eventId : String)
    (t : KeyedTable Summary.caseId) : KeyedTable Summary.caseId :=
  t.upsert ⟨caseId, version, eventTime, [eventId], .current⟩
    (fun row => { row with
      projectionVersion := version, lastEventTime := max row.lastEventTime eventTime,
      sourceEventIds := (row.sourceEventIds ++ [eventId]).dedup }) fun _ => rfl

theorem putTimeline_of_absent {item : TimelineItem} {t : KeyedTable TimelineItem.itemId}
    (absent : t.find item.itemId = none) : (putTimeline item t).rows = t.rows ++ [item] :=
  KeyedTable.upsert_of_absent _ absent

theorem putEdge_of_absent {edge : Edge} {t : KeyedTable Edge.edgeId}
    (absent : t.find edge.edgeId = none) : (putEdge edge t).rows = t.rows ++ [edge] :=
  KeyedTable.upsert_of_absent _ absent

theorem putNode_of_absent {node : Node} {t : KeyedTable Node.nodeId}
    (absent : t.find node.nodeId = none) : (putNode node t).rows = t.rows ++ [node] :=
  KeyedTable.upsert_of_absent _ absent

theorem putNode_filter (node : Node) (t : KeyedTable Node.nodeId) :
    ((putNode node t).rows.filter fun row => row.nodeId ≠ node.nodeId) =
      t.rows.filter fun row => row.nodeId ≠ node.nodeId :=
  KeyedTable.filter_upsert t node _ _

theorem find_putNode (node : Node) (t : KeyedTable Node.nodeId) (k : String) :
    (putNode node t).find k = if k = node.nodeId then
      some (((t.find node.nodeId).map (Node.merge · node)).getD node) else t.find k :=
  KeyedTable.find_upsert t node _ _ k

theorem find_putSummary (caseId : String) (version : ℕ) (eventTime : Int) (eventId : String)
    (t : KeyedTable Summary.caseId) :
    ((putSummary caseId version eventTime eventId t).find caseId).map Summary.freshness =
      some (((t.find caseId).map Summary.freshness).getD .current) := by
  rw [putSummary, KeyedTable.find_upsert, if_pos rfl]
  cases t.find caseId <;> rfl

def upsertTimeline (item : TimelineItem) (db : Dashboard) : Option Dashboard :=
  if admitted db item.toColumns && storableText item.description && storableText item.itemType &&
      ((db.timeline.find item.itemId).isSome ||
        db.timeline.rows.all fun row => row.sourceEventId ≠ item.sourceEventId) then
    some { db with timeline := putTimeline item db.timeline }
  else none

def upsertNode (node : Node) (db : Dashboard) : Option Dashboard :=
  if admitted db node.toColumns then
    some { db with nodes := putNode node db.nodes }
  else none

def upsertEdge (edge : Edge) (db : Dashboard) : Option Dashboard :=
  if admitted db edge.toColumns && edge.sourceNodeId ≠ edge.targetNodeId &&
      (db.nodes.find edge.sourceNodeId).isSome && (db.nodes.find edge.targetNodeId).isSome then
    some { db with edges := putEdge edge db.edges }
  else none

theorem upsertTimeline_of_admitted {item : TimelineItem} {db : Dashboard}
    (taken : admitted db item.toColumns = true) (description : storableText item.description = true)
    (type : storableText item.itemType = true)
    (free : (db.timeline.rows.all fun row => decide (row.sourceEventId ≠ item.sourceEventId)) = true) :
    upsertTimeline item db = some { db with timeline := putTimeline item db.timeline } := by
  rw [upsertTimeline, if_pos]
  simp only [taken, description, type, free, Bool.or_true, Bool.and_self]

theorem upsertNode_of_admitted {node : Node} {db : Dashboard}
    (taken : admitted db node.toColumns = true) :
    upsertNode node db = some { db with nodes := putNode node db.nodes } := by
  rw [upsertNode, if_pos taken]

theorem upsertEdge_of_admitted {edge : Edge} {db : Dashboard}
    (taken : admitted db edge.toColumns = true) (apart : edge.sourceNodeId ≠ edge.targetNodeId)
    (source : (db.nodes.find edge.sourceNodeId).isSome = true)
    (target : (db.nodes.find edge.targetNodeId).isSome = true) :
    upsertEdge edge db = some { db with edges := putEdge edge db.edges } := by
  rw [upsertEdge, if_pos]
  simp only [taken, apart, source, target, ne_eq, not_false_eq_true, decide_true, Bool.and_self]

theorem upsertTimeline_eq_some {item : TimelineItem} {db db' : Dashboard}
    (wrote : upsertTimeline item db = some db') :
    (admitted db item.toColumns = true ∧ storableText item.description = true ∧
      storableText item.itemType = true) ∧
      db' = { db with timeline := putTimeline item db.timeline } := by
  rw [upsertTimeline, Option.ite_none_right_eq_some] at wrote
  simp only [Bool.and_eq_true] at wrote
  exact ⟨⟨wrote.1.1.1.1, wrote.1.1.1.2, wrote.1.1.2⟩, (Option.some.inj wrote.2).symm⟩

theorem upsertNode_eq_some {node : Node} {db db' : Dashboard} (wrote : upsertNode node db = some db') :
    admitted db node.toColumns = true ∧ db' = { db with nodes := putNode node db.nodes } := by
  rw [upsertNode, Option.ite_none_right_eq_some] at wrote
  exact ⟨wrote.1, (Option.some.inj wrote.2).symm⟩

theorem upsertEdge_eq_some {edge : Edge} {db db' : Dashboard} (wrote : upsertEdge edge db = some db') :
    admitted db edge.toColumns = true ∧ db' = { db with edges := putEdge edge db.edges } := by
  rw [upsertEdge, Option.ite_none_right_eq_some] at wrote
  simp only [Bool.and_eq_true] at wrote
  exact ⟨wrote.1.1.1.1, (Option.some.inj wrote.2).symm⟩

section
variable (py : Python)

def caseNode (caseId : String) (version : ℕ) (eventTime : Int) (eventId : String) : Node where
  label := safeDisplayText py (.str ("Case " ++ caseId)) maxLabelLength
  caseId
  sessionId := none
  eventTime
  sourceEventIds := [eventId]
  sourceReferences := [.case caseId]
  evidenceReferences := []
  classification := .systemAction
  confidence := none
  outputTag := none
  displayMetadata := .obj []
  permissions := ["dashboard:read"]
  version
  nodeId := caseNodeId caseId
  nodeType := .case

@[simp] theorem caseNode_nodeId (caseId : String) (version : ℕ) (eventTime : Int) (eventId : String) :
    (caseNode py caseId version eventTime eventId).nodeId = caseNodeId caseId := rfl

def newOffset (caseId : String) : Offset := ⟨caseId, 0, 0, none, none, false, none, none⟩

def ensureOffset (caseId : String) (t : KeyedTable Offset.caseId) : KeyedTable Offset.caseId :=
  (t.insert (newOffset caseId)).getD t

def isGap (prior sequence : ℕ) : Bool := 0 < prior && prior + 1 < sequence

def advanceOffset (e : Event) (version : ℕ) (eventTime : Int) (gap : Bool) (offset : Offset) : Offset :=
  { offset with
    projectionVersion := version
    lastSourceSequence := max offset.lastSourceSequence e.sequence
    lastEventId := some e.eventId
    lastEventTime := some eventTime
    gapDetected := offset.gapDetected || gap
    gapFrom := if gap then some (offset.lastSourceSequence + 1) else offset.gapFrom
    gapTo := if gap then some (e.sequence - 1) else offset.gapTo }

theorem advanceOffset_caseId (e : Event) (version : ℕ) (eventTime : Int) (gap : Bool) (offset : Offset) :
    (advanceOffset e version eventTime gap offset).caseId = offset.caseId := rfl

def advance (caseId : String) (e : Event) (version : ℕ) (eventTime : Int) (gap : Bool)
    (t : KeyedTable Offset.caseId) : KeyedTable Offset.caseId :=
  t.update caseId (advanceOffset e version eventTime gap) (advanceOffset_caseId e version eventTime gap)

def mark (caseId : String) (freshness : Freshness) (t : KeyedTable Summary.caseId) :
    KeyedTable Summary.caseId :=
  t.update caseId (fun row => { row with freshness }) fun _ => rfl

def reportGap (caseId : String) (e : Event) (version prior : ℕ) (db : Dashboard) : Dashboard :=
  { db with
    summaries := mark caseId .gapDetected db.summaries
    notifications := db.notifications ++ [⟨caseId, e.eventId, prior + 1, e.sequence - 1⟩]
    updates := db.updates ++
      [.notificationCreated caseId version (prior + 1) (e.sequence - 1) e.eventId] }

def correlationId (e : Event) : String :=
  str py (orElse (e.get "correlation_id") (.str e.eventId))

def projectLocked (e : Event) (caseId : String) (db : Dashboard) :
    Option (Dashboard × ProjectionResult) := do
  guard (caseId ∈ db.cases && e.sequence ≤ maxBigint)
  let offsets := ensureOffset caseId db.offsets
  let offset ← offsets.find caseId
  let version := offset.projectionVersion + 1
  let gap := isGap offset.lastSourceSequence e.sequence
  let eventTime ← py.fromisoformat e.eventTime
  let db ← upsertNode (caseNode py caseId version eventTime e.eventId)
    { db with offsets, summaries := putSummary caseId version eventTime e.eventId db.summaries }
  let records ← eventToRecords py e caseId version
  let db ← upsertTimeline records.timeline db
  let db ← upsertNode records.node db
  let db ← upsertEdge records.edge db
  let projected ← db.projected.insert ⟨e.eventId, caseId, e.sequence, version⟩
  let db := { db with projected, offsets := advance caseId e version eventTime gap db.offsets }
  let db := if gap then reportGap caseId e version offset.lastSourceSequence db else db
  guard (storableText (correlationId py e))
  let db := { db with updates := db.updates ++
    [.timelineAppended caseId version eventTime records.timeline records.node (correlationId py e)] }
  return (db, ⟨true, false, gap, version⟩)

/-- A delivery of an event. -/
structure Delivery where
  event : Event
  early : Bool

def projectEvent (d : Delivery) (db : Dashboard) : Option (Dashboard × ProjectionResult) :=
  match d.event.caseId with
  | none | some "" => some (db, ⟨false, false, false, 0⟩)
  | some caseId =>
    match db.projected.find d.event.eventId, d.early with
    | some row, false => some (db, ⟨false, true, false, row.projectionVersion⟩)
    | _, _ => projectLocked py d.event caseId db

def deliver (db : Dashboard) (d : Delivery) : Dashboard := ((projectEvent py d db).map Prod.fst).getD db

def projectable (db : Dashboard) (caseId : String) (e : Event) : Bool :=
  caseId ∈ db.cases && e.sequence ≤ maxBigint && storableText (correlationId py e) &&
    match contentOf py e with
    | none => false
    | some c =>
      let records := recordsOf py e caseId c 1
      admitted db (caseNode py caseId 1 c.eventTime e.eventId).toColumns &&
        admitted db records.timeline.toColumns && storableText c.description &&
        storableText e.eventType && admitted db records.node.toColumns &&
        admitted db records.edge.toColumns

structure Fresh (db : Dashboard) (caseId : String) (e : Event) : Prop where
  projected : db.projected.find e.eventId = none
  item : db.timeline.find (itemId py e.eventId) = none
  source : ∀ row ∈ db.timeline.rows, row.sourceEventId ≠ e.eventId
  node : db.nodes.find (nodeId py e.eventId) = none
  edge : db.edges.find (edgeId py (nodeId py e.eventId) caseId) = none

def offsetOf (db : Dashboard) (caseId : String) : Offset :=
  (db.offsets.find caseId).getD (newOffset caseId)

def eventNodes (db : Dashboard) (caseId : String) : List Node :=
  db.nodes.rows.filter fun row => row.nodeId ≠ caseNodeId caseId

def freshnessOf (db : Dashboard) (caseId : String) : Freshness :=
  ((db.summaries.find caseId).map Summary.freshness).getD .current

/-- What a call that applies an event leaves behind, with the version it takes
and whether it reports a gap. -/
structure Applied (caseId : String) (e : Event) (c : Content) (version : ℕ) (gap : Bool)
    (db db' : Dashboard) : Prop where
  cases : db'.cases = db.cases
  sessions : db'.sessions = db.sessions
  offset : offsetOf db' caseId = advanceOffset e version c.eventTime gap (offsetOf db caseId)
  projected : db'.projected.rows = db.projected.rows ++ [⟨e.eventId, caseId, e.sequence, version⟩]
  timeline : db'.timeline.rows = db.timeline.rows ++ [(recordsOf py e caseId c version).timeline]
  nodes : eventNodes db' caseId = eventNodes db caseId ++ [(recordsOf py e caseId c version).node]
  caseRow : db'.nodes.find (caseNodeId caseId) =
    some (((db.nodes.find (caseNodeId caseId)).map
      (Node.merge · (caseNode py caseId version c.eventTime e.eventId))).getD
      (caseNode py caseId version c.eventTime e.eventId))
  edges : db'.edges.rows = db.edges.rows ++ [(recordsOf py e caseId c version).edge]
  notifications : db'.notifications = db.notifications ++
    if gap then [⟨caseId, e.eventId, (offsetOf db caseId).lastSourceSequence + 1, e.sequence - 1⟩] else []
  updates : db'.updates = db.updates ++
    (if gap then [.notificationCreated caseId version ((offsetOf db caseId).lastSourceSequence + 1)
      (e.sequence - 1) e.eventId] else []) ++
    [.timelineAppended caseId version c.eventTime (recordsOf py e caseId c version).timeline
      (recordsOf py e caseId c version).node (correlationId py e)]
  freshness : freshnessOf db' caseId = if gap then .gapDetected else freshnessOf db caseId

theorem caseNodeId_ne_stableId (caseId kind : String) (parts : List String) (other : kind.toList.head? ≠ some 'c')
    (some' : kind ≠ "") : stableId py kind parts ≠ caseNodeId caseId := by
  intro equal
  have chars := congrArg String.toList equal
  rw [stableId, caseNodeId, String.toList_append, String.toList_append, String.toList_append] at chars
  cases form : kind.toList with
  | nil => exact some' (String.toList_inj.mp (by rw [form]; rfl))
  | cons d rest =>
    rw [form] at other chars
    have heads := congrArg List.head? chars
    exact other heads

theorem nodeId_ne_caseNodeId (eventId caseId : String) : nodeId py eventId ≠ caseNodeId caseId :=
  caseNodeId_ne_stableId py caseId "node" [eventId] (by decide) (by decide)

theorem ensureOffset_find (db : Dashboard) (caseId : String) :
    (ensureOffset caseId db.offsets).find caseId = some (offsetOf db caseId) := by
  rw [ensureOffset, offsetOf]
  cases known : db.offsets.find caseId with
  | none =>
    obtain ⟨offsets, inserted⟩ := KeyedTable.insert_isSome (t := db.offsets) (r := newOffset caseId)
      (db.offsets.find_eq_none.mp known)
    rw [inserted]
    exact (KeyedTable.find_insert inserted caseId).trans (if_pos rfl)
  | some row =>
    have taken : db.offsets.insert (newOffset caseId) = none := by
      cases inserted : db.offsets.insert (newOffset caseId) with
      | none => rfl
      | some offsets =>
        have absent := db.offsets.find_eq_none.mpr (KeyedTable.insert_eq_some inserted).1
        rw [show (newOffset caseId).caseId = caseId from rfl, known] at absent
        cases absent
    rw [taken]
    exact known

theorem projectable_spec {db : Dashboard} {caseId : String} {e : Event}
    (taken : projectable py db caseId e = true) : ∃ c, contentOf py e = some c ∧
      caseId ∈ db.cases ∧ e.sequence ≤ maxBigint ∧ storableText (correlationId py e) = true ∧
      storableText c.description = true ∧ storableText e.eventType = true ∧ ∀ version,
      admitted db (caseNode py caseId version c.eventTime e.eventId).toColumns = true ∧
      admitted db (recordsOf py e caseId c version).timeline.toColumns = true ∧
      admitted db (recordsOf py e caseId c version).node.toColumns = true ∧
      admitted db (recordsOf py e caseId c version).edge.toColumns = true := by
  unfold projectable at taken
  simp only [Bool.and_eq_true, decide_eq_true_eq] at taken
  obtain ⟨⟨⟨known, bounded⟩, correlated⟩, rows⟩ := taken
  split at rows
  · cases rows
  · rename_i c content
    simp only [Bool.and_eq_true] at rows
    obtain ⟨⟨⟨⟨⟨case', timeline⟩, description⟩, type⟩, node⟩, edge⟩ := rows
    exact ⟨c, content, known, bounded, correlated, description, type,
      fun _ => ⟨case', timeline, node, edge⟩⟩

theorem contentOf_eventTime {e : Event} {c : Content} (content : contentOf py e = some c) :
    py.fromisoformat e.eventTime = some c.eventTime := by
  simp only [contentOf, Option.bind_eq_bind, Option.bind_eq_some_iff, Option.pure_def,
    Option.some.injEq] at content
  obtain ⟨time, parsed, -, -, -, -, rfl⟩ := content
  exact parsed

theorem contentOf_sourceRef {e : Event} {c : Content} (content : contentOf py e = some c) :
    c.sourceRef = .domainEvent (safeDisplayText py (.str e.sourceId) 256) e.sequence e.eventId := by
  simp only [contentOf, Option.bind_eq_bind, Option.bind_eq_some_iff, Option.pure_def,
    Option.some.injEq] at content
  obtain ⟨time, -, -, -, -, -, rfl⟩ := content
  rfl

def written (e : Event) (caseId : String) (c : Content) (version : ℕ) (gap : Bool) (db : Dashboard) :
    Dashboard :=
  let records := recordsOf py e caseId c version
  let node := caseNode py caseId version c.eventTime e.eventId
  let prior := (offsetOf db caseId).lastSourceSequence
  let summaries := putSummary caseId version c.eventTime e.eventId db.summaries
  { db with
    offsets := advance caseId e version c.eventTime gap (ensureOffset caseId db.offsets)
    projected := (db.projected.insert ⟨e.eventId, caseId, e.sequence, version⟩).getD db.projected
    summaries := if gap then mark caseId .gapDetected summaries else summaries
    timeline := putTimeline records.timeline db.timeline
    nodes := putNode records.node (putNode node db.nodes)
    edges := putEdge records.edge db.edges
    notifications := db.notifications ++
      if gap then [⟨caseId, e.eventId, prior + 1, e.sequence - 1⟩] else []
    updates := db.updates ++
      (if gap then [.notificationCreated caseId version (prior + 1) (e.sequence - 1) e.eventId] else []) ++
      [.timelineAppended caseId version c.eventTime records.timeline records.node (correlationId py e)] }

theorem projectLocked_written {db : Dashboard} {caseId : String} {e : Event} {c : Content}
    (fresh : Fresh py db caseId e) (taken : projectable py db caseId e = true)
    (content : contentOf py e = some c) :
    projectLocked py e caseId db =
      some (written py e caseId c ((offsetOf db caseId).projectionVersion + 1)
          (isGap (offsetOf db caseId).lastSourceSequence e.sequence) db,
        ⟨true, false, isGap (offsetOf db caseId).lastSourceSequence e.sequence,
          (offsetOf db caseId).projectionVersion + 1⟩) := by
  obtain ⟨c', content', known, bounded, correlated, description, type, rows⟩ := projectable_spec py taken
  rw [content, Option.some.injEq] at content'
  subst content'
  obtain ⟨caseTaken, timelineTaken, nodeTaken, edgeTaken⟩ :=
    rows ((offsetOf db caseId).projectionVersion + 1)
  obtain ⟨projected, inserted⟩ := KeyedTable.insert_isSome (t := db.projected)
    (r := ⟨e.eventId, caseId, e.sequence, (offsetOf db caseId).projectionVersion + 1⟩)
    (db.projected.find_eq_none.mp fresh.projected)
  have time := contentOf_eventTime py content
  have apart := nodeId_ne_caseNodeId py e.eventId caseId
  have free : (db.timeline.rows.all fun row => decide (row.sourceEventId ≠ e.eventId)) = true := by
    rw [List.all_eq_true]
    intro row mem
    rw [decide_eq_true_eq]
    exact fresh.source row mem
  unfold projectLocked
  simp only [known, bounded, decide_true, Bool.and_self, guard, if_true, ensureOffset_find, time,
    Option.bind_eq_bind, Option.bind_some, Option.pure_def]
  generalize (offsetOf db caseId).projectionVersion + 1 = version at *
  have records : eventToRecords py e caseId version = some (recordsOf py e caseId c version) := by
    rw [eventToRecords, content, Option.map_some]
  rw [upsertNode_of_admitted, Option.bind_some, records, Option.bind_some,
    upsertTimeline_of_admitted, Option.bind_some, upsertNode_of_admitted, Option.bind_some,
    upsertEdge_of_admitted, Option.bind_some]
  · simp only [inserted, Option.bind_some, correlated, if_true, written, Option.getD_some]
    cases isGap (offsetOf db caseId).lastSourceSequence e.sequence <;> simp [reportGap]
  · exact edgeTaken
  · exact apart
  · simp [find_putNode]
  · simp [find_putNode, Ne.symm apart]
  · exact nodeTaken
  · exact timelineTaken
  · exact description
  · exact type
  · exact free
  · exact caseTaken

theorem offsetOf_advance (db : Dashboard) (caseId : String) (e : Event) (version : ℕ) (eventTime : Int)
    (gap : Bool) :
    (advance caseId e version eventTime gap (ensureOffset caseId db.offsets)).find caseId =
      some (advanceOffset e version eventTime gap (offsetOf db caseId)) := by
  rw [advance, KeyedTable.find_update, if_pos rfl, ensureOffset_find, Option.map_some]

theorem find_mark (caseId : String) (freshness : Freshness) (t : KeyedTable Summary.caseId) :
    ((mark caseId freshness t).find caseId).map Summary.freshness =
      (t.find caseId).map fun _ => freshness := by
  rw [mark, KeyedTable.find_update, if_pos rfl, Option.map_map]
  rfl

theorem eventNodes_written (e : Event) (caseId : String) (c : Content) (version : ℕ) (gap : Bool)
    {db : Dashboard} (absent : db.nodes.find (nodeId py e.eventId) = none) :
    eventNodes (written py e caseId c version gap db) caseId =
      eventNodes db caseId ++ [(recordsOf py e caseId c version).node] := by
  have apart := nodeId_ne_caseNodeId py e.eventId caseId
  have free : (putNode (caseNode py caseId version c.eventTime e.eventId) db.nodes).find
      (recordsOf py e caseId c version).node.nodeId = none := by
    rw [find_putNode, recordsOf_nodeId, caseNode_nodeId, if_neg apart, absent]
  have others := putNode_filter (caseNode py caseId version c.eventTime e.eventId) db.nodes
  rw [caseNode_nodeId] at others
  rw [eventNodes, written, putNode_of_absent free, List.filter_append, others, eventNodes]
  simp [apart]

theorem freshnessOf_written (e : Event) (caseId : String) (c : Content) (version : ℕ) (gap : Bool)
    (db : Dashboard) : freshnessOf (written py e caseId c version gap db) caseId =
      if gap then .gapDetected else freshnessOf db caseId := by
  have put := find_putSummary caseId version c.eventTime e.eventId db.summaries
  rw [freshnessOf, written]
  cases gap with
  | false =>
    simp only [Bool.false_eq_true, if_false]
    rw [put, Option.getD_some]
    rfl
  | true =>
    simp only [if_true]
    rw [find_mark]
    cases found : (putSummary caseId version c.eventTime e.eventId db.summaries).find caseId with
    | none =>
      rw [found] at put
      cases put
    | some row => rfl

theorem written_applied {db : Dashboard} {caseId : String} {e : Event} (c : Content) (version : ℕ)
    (gap : Bool) (fresh : Fresh py db caseId e) :
    Applied py caseId e c version gap db (written py e caseId c version gap db) where
  cases := rfl
  sessions := rfl
  offset := by
    rw [offsetOf, written, offsetOf_advance, Option.getD_some]
  projected := by
    obtain ⟨projected, inserted⟩ := KeyedTable.insert_isSome (t := db.projected)
      (r := ⟨e.eventId, caseId, e.sequence, version⟩) (db.projected.find_eq_none.mp fresh.projected)
    rw [written, inserted, Option.getD_some, (KeyedTable.insert_eq_some inserted).2]
  timeline := putTimeline_of_absent fresh.item
  nodes := eventNodes_written py e caseId c version gap fresh.node
  caseRow := by
    rw [written, find_putNode, recordsOf_nodeId,
      if_neg (Ne.symm (nodeId_ne_caseNodeId py e.eventId caseId)), find_putNode, caseNode_nodeId,
      if_pos rfl]
  edges := putEdge_of_absent fresh.edge
  notifications := rfl
  updates := rfl
  freshness := freshnessOf_written py e caseId c version gap db

theorem projectLocked_eq_some {db : Dashboard} {e : Event} {caseId : String}
    {result : Dashboard × ProjectionResult} (returned : projectLocked py e caseId db = some result) :
    projectable py db caseId e = true ∧ db.projected.find e.eventId = none := by
  simp only [projectLocked, guard, Option.bind_eq_bind, Option.bind_eq_some_iff] at returned
  obtain ⟨_, known, offset, -, time, parsed, db₁, wroteCase, records, converted, db₂, wroteItem, db₃,
    wroteNode, db₄, wroteEdge, projected, inserted, _, correlated, -⟩ := returned
  obtain ⟨c, content, rfl⟩ := Option.map_eq_some_iff.mp converted
  have sameTime := contentOf_eventTime py content
  rw [parsed, Option.some.injEq] at sameTime
  subst sameTime
  obtain ⟨caseTaken, rfl⟩ := upsertNode_eq_some wroteCase
  obtain ⟨itemTaken, rfl⟩ := upsertTimeline_eq_some wroteItem
  obtain ⟨nodeTaken, rfl⟩ := upsertNode_eq_some wroteNode
  obtain ⟨edgeTaken, rfl⟩ := upsertEdge_eq_some wroteEdge
  have known' := (Option.ite_none_right_eq_some.mp known).1
  have correlated' := (Option.ite_none_right_eq_some.mp correlated).1
  refine ⟨?_, db.projected.find_eq_none.mpr (KeyedTable.insert_eq_some inserted).1⟩
  rw [projectable, content, known', correlated']
  simp only [Bool.true_and, Bool.and_eq_true]
  exact ⟨⟨⟨⟨⟨caseTaken, itemTaken.1⟩, itemTaken.2.1⟩, itemTaken.2.2⟩, nodeTaken⟩, edgeTaken⟩

theorem projectLocked_of_projected {db : Dashboard} {e : Event} {row : ProjectedEvent} (caseId : String)
    (found : db.projected.find e.eventId = some row) : projectLocked py e caseId db = none := by
  rw [Option.eq_none_iff_forall_ne_some]
  intro result returned
  have absent := (projectLocked_eq_some py returned).2
  rw [found] at absent
  cases absent

theorem projectEvent_eq {d : Delivery} {caseId : String} (ofCase : d.event.caseId = some caseId)
    (named : caseId ≠ "") (db : Dashboard) : projectEvent py d db =
      match db.projected.find d.event.eventId, d.early with
      | some row, false => some (db, ⟨false, true, false, row.projectionVersion⟩)
      | _, _ => projectLocked py d.event caseId db := by
  unfold projectEvent
  rw [ofCase]
  split
  · contradiction
  · rename_i equal
    exact absurd (Option.some.inj equal) named
  · rename_i other equal
    rw [← Option.some.inj equal]

theorem deliver_of_projected {d : Delivery} {caseId : String} {db : Dashboard} {row : ProjectedEvent}
    (ofCase : d.event.caseId = some caseId) (named : caseId ≠ "")
    (found : db.projected.find d.event.eventId = some row) : deliver py db d = db := by
  rw [deliver, projectEvent_eq py ofCase named, found]
  cases d.early with
  | false => rfl
  | true =>
    simp only [projectLocked_of_projected py caseId found]
    rfl

theorem deliver_of_refused {d : Delivery} {caseId : String} {db : Dashboard}
    (ofCase : d.event.caseId = some caseId) (named : caseId ≠ "")
    (refused : projectable py db caseId d.event = false) : deliver py db d = db := by
  have raised : projectLocked py d.event caseId db = none := by
    rw [Option.eq_none_iff_forall_ne_some]
    intro result returned
    rw [(projectLocked_eq_some py returned).1] at refused
    cases refused
  rw [deliver, projectEvent_eq py ofCase named]
  split
  · rfl
  · rw [raised]
    rfl

theorem projectEvent_of_fresh {d : Delivery} {caseId : String} {db : Dashboard} {c : Content}
    (ofCase : d.event.caseId = some caseId) (named : caseId ≠ "") (fresh : Fresh py db caseId d.event)
    (taken : projectable py db caseId d.event = true) (content : contentOf py d.event = some c) :
    projectEvent py d db =
      some (written py d.event caseId c ((offsetOf db caseId).projectionVersion + 1)
          (isGap (offsetOf db caseId).lastSourceSequence d.event.sequence) db,
        ⟨true, false, isGap (offsetOf db caseId).lastSourceSequence d.event.sequence,
          (offsetOf db caseId).projectionVersion + 1⟩) := by
  rw [projectEvent_eq py ofCase named, fresh.projected]
  exact projectLocked_written py fresh taken content

theorem deliver_of_fresh {d : Delivery} {caseId : String} {db : Dashboard} {c : Content}
    (ofCase : d.event.caseId = some caseId) (named : caseId ≠ "") (fresh : Fresh py db caseId d.event)
    (taken : projectable py db caseId d.event = true) (content : contentOf py d.event = some c) :
    Applied py caseId d.event c ((offsetOf db caseId).projectionVersion + 1)
      (isGap (offsetOf db caseId).lastSourceSequence d.event.sequence) db (deliver py db d) := by
  rw [deliver, projectEvent_of_fresh py ofCase named fresh taken content]
  exact written_applied py c _ _ fresh

end

end Mirage.DashboardProjection
