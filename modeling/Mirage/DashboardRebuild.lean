import Mathlib.Data.List.Sort
import Mirage.DashboardRun

/-! `rebuild_case`: it clears the projection of one case, replays the events that
the outbox holds for the case, and takes a snapshot of the domain tables where the
outbox holds nothing for it. -/

namespace Mirage.DashboardRebuild
open DashboardRecords DashboardProjection DashboardRun

/-! The snapshot of the domain tables. -/

structure SessionRow where
  sessionId : String
  protocol : String
  status : String
  createdAt : Int

structure EvidenceRow where
  evidenceId : String
  evidenceType : String
  acquisitionTime : Int
  sourceId : String
  sourceSequence : Json
  relatedEventIds : Json
  classification : String

structure EntityRow where
  entityId : String
  label : String
  eventTime : Int

structure Domain where
  createdAt : Int
  sessions : List SessionRow
  evidence : List EvidenceRow
  aiSnapshots : List EntityRow
  aiProposals : List EntityRow
  policyDecisions : List EntityRow
  sandboxActions : List EntityRow
  artifacts : List EntityRow
  canaryTokens : List EntityRow
  analystDirectives : List EntityRow
  analystMessages : List EntityRow
  evidenceExports : List EntityRow
  canaryCallbacks : List EntityRow

def nodeTypeName : NodeType → String
  | .case => "CASE"
  | .session => "SESSION"
  | .host => "HOST"
  | .user => "USER"
  | .process => "PROCESS"
  | .file => "FILE"
  | .directory => "DIRECTORY"
  | .networkConnection => "NETWORK_CONNECTION"
  | .alert => "ALERT"
  | .detection => "DETECTION"
  | .artifact => "ARTIFACT"
  | .canaryToken => "CANARY_TOKEN"
  | .canaryCallback => "CANARY_CALLBACK"
  | .aiSnapshot => "AI_SNAPSHOT"
  | .aiProposal => "AI_PROPOSAL"
  | .policyDecision => "POLICY_DECISION"
  | .sandboxAction => "SANDBOX_ACTION"
  | .analystDirective => "ANALYST_DIRECTIVE"
  | .analystMessage => "ANALYST_MESSAGE"
  | .evidenceObject => "EVIDENCE_OBJECT"
  | .export => "EXPORT"

/-- The arguments of `_upsert_snapshot_entity`. -/
structure SnapshotEntity where
  entityId : String
  nodeType : NodeType
  label : String
  eventTime : Int
  classification : Classification
  metadata : List (String × Json) := []
  sessionId : Option String := none
  evidenceRefs : List String := []
  sourceEventIds : List String := []
  outputTag : Option String := none

section
variable (py : Python)

def sessionEntity (row : SessionRow) : SnapshotEntity where
  entityId := row.sessionId
  nodeType := .session
  label := row.protocol ++ " session"
  eventTime := row.createdAt
  classification := .observedFact
  metadata := [("status", .str row.status), ("protocol", .str row.protocol)]
  sessionId := some row.sessionId

def evidenceEntity (row : EvidenceRow) : SnapshotEntity where
  entityId := row.evidenceId
  nodeType := .evidenceObject
  label := row.evidenceType ++ " evidence"
  eventTime := row.acquisitionTime
  classification := .observedFact
  metadata := [("source_id", .str row.sourceId), ("source_sequence", row.sourceSequence),
    ("evidence_classification", .str row.classification)]
  evidenceRefs := [row.evidenceId]
  sourceEventIds := stringList py row.relatedEventIds

def entityTitle (nodeType : NodeType) : String :=
  py.title (String.ofList ((nodeTypeName nodeType).toList.map fun c => if c = '_' then ' ' else c))

def rowEntity (nodeType : NodeType) (classification : Classification) (row : EntityRow) :
    SnapshotEntity where
  entityId := row.entityId
  nodeType
  label := entityTitle py nodeType ++ ": " ++ row.label
  eventTime := row.eventTime
  classification
  outputTag := if nodeType = .analystMessage then some "ANALYST_MESSAGE" else none

def callbackEntity (row : EntityRow) : SnapshotEntity where
  entityId := row.entityId
  nodeType := .canaryCallback
  label := "Canary Callback: " ++ row.label
  eventTime := row.eventTime
  classification := .observedFact

def snapshotEntities (domain : Domain) : List SnapshotEntity :=
  domain.sessions.map sessionEntity ++ domain.evidence.map (evidenceEntity py) ++
    domain.aiSnapshots.map (rowEntity py .aiSnapshot .aiInference) ++
    domain.aiProposals.map (rowEntity py .aiProposal .aiInference) ++
    domain.policyDecisions.map (rowEntity py .policyDecision .deterministicCorrelation) ++
    domain.sandboxActions.map (rowEntity py .sandboxAction .systemAction) ++
    domain.artifacts.map (rowEntity py .artifact .observedFact) ++
    domain.canaryTokens.map (rowEntity py .canaryToken .systemAction) ++
    domain.analystDirectives.map (rowEntity py .analystDirective .analystAction) ++
    domain.analystMessages.map (rowEntity py .analystMessage .analystAction) ++
    domain.evidenceExports.map (rowEntity py .export .systemAction) ++
    domain.canaryCallbacks.map callbackEntity

def entityColumns (caseId : String) (version : ℕ) (x : SnapshotEntity) (label : String)
    (metadata : Json) : Columns where
  label
  caseId
  sessionId := x.sessionId
  eventTime := x.eventTime
  sourceEventIds := x.sourceEventIds
  sourceReferences := [.domainRow x.entityId]
  evidenceReferences := x.evidenceRefs
  classification := x.classification
  confidence := none
  outputTag := x.outputTag
  displayMetadata := metadata
  permissions := ["dashboard:read"]
  version

def entityNodeId (x : SnapshotEntity) : String := py.lower (nodeTypeName x.nodeType) ++ ":" ++ x.entityId

def entityNode (caseId : String) (version : ℕ) (x : SnapshotEntity) : Node :=
  { entityColumns caseId version x (safeDisplayText py (.str x.label) maxLabelLength)
      (sanitiseDisplayMetadata py 0 (.obj x.metadata)) with
    nodeId := entityNodeId py x
    nodeType := x.nodeType }

def entityEdge (caseId : String) (version : ℕ) (x : SnapshotEntity) : Edge :=
  { entityColumns caseId version x "belongs to case" (.obj []) with
    edgeId := edgeId py (entityNodeId py x) caseId
    edgeType := "BELONGS_TO"
    sourceNodeId := entityNodeId py x
    targetNodeId := caseNodeId caseId }

def entityItem (caseId : String) (version : ℕ) (x : SnapshotEntity) : TimelineItem :=
  { entityColumns caseId version x (safeDisplayText py (.str x.label) maxLabelLength)
      (sanitiseDisplayMetadata py 0 (.obj x.metadata)) with
    itemId := stableId py "timeline" [nodeTypeName x.nodeType, x.entityId]
    itemType := nodeTypeName x.nodeType
    description := safeDisplayText py (.str x.label) maxLabelLength
    sourceEventId := stableId py "source" [nodeTypeName x.nodeType, x.entityId] }

def upsertSnapshotEntity (caseId : String) (version : ℕ) (db : Dashboard) (x : SnapshotEntity) :
    Option Dashboard := do
  let db ← upsertNode (entityNode py caseId version x) db
  let db ← upsertEdge (entityEdge py caseId version x) db
  upsertTimeline (entityItem py caseId version x) db

def bump (caseId : String) (t : KeyedTable Offset.caseId) : KeyedTable Offset.caseId :=
  (ensureOffset caseId t).update caseId
    (fun row => { row with projectionVersion := row.projectionVersion + 1 }) fun _ => rfl

def projectAuthoritativeSnapshot (domain : Domain) (caseId : String) (db : Dashboard) :
    Option Dashboard := do
  guard (caseId ∈ db.cases)
  let version := (offsetOf db caseId).projectionVersion + 1
  let db ← upsertNode (caseNode py caseId version domain.createdAt caseId)
    { db with
      offsets := bump caseId db.offsets
      summaries := putSummary caseId version domain.createdAt caseId db.summaries }
  (snapshotEntities py domain).foldlM (upsertSnapshotEntity py caseId version) db

inductive Envelope where
  | event (e : Event)
  | command (commandId : String) (caseId : Option String)

def Envelope.caseId : Envelope → Option String
  | .event e => e.caseId
  | .command _ caseId => caseId

structure OutboxRow where
  createdAt : Int
  payload : Envelope

def OutboxRow.eventId (row : OutboxRow) : String :=
  match row.payload with
  | .event e => e.eventId
  | .command commandId _ => commandId

def OutboxRow.le (a b : OutboxRow) : Prop :=
  a.createdAt < b.createdAt ∨ a.createdAt = b.createdAt ∧ a.eventId ≤ b.eventId

instance : DecidableRel OutboxRow.le := fun a b =>
  inferInstanceAs (Decidable (a.createdAt < b.createdAt ∨ a.createdAt = b.createdAt ∧ a.eventId ≤ b.eventId))

def outboxOf (caseId : String) (outbox : KeyedTable OutboxRow.eventId) : List OutboxRow :=
  (outbox.rows.filter fun row => row.payload.caseId = some caseId).insertionSort OutboxRow.le

def eventOf (row : OutboxRow) : Option Event :=
  match row.payload with
  | .event e => if e.eventId = "" then none else some e
  | .command _ _ => none

def outboxEvents (caseId : String) (outbox : KeyedTable OutboxRow.eventId) : List Event :=
  (outboxOf caseId outbox).filterMap eventOf

def resetOffset (row : Offset) : Offset :=
  { row with
    lastSourceSequence := 0, lastEventId := none, lastEventTime := none, gapDetected := false,
    gapFrom := none, gapTo := none }

theorem resetOffset_caseId (row : Offset) : (resetOffset row).caseId = row.caseId := rfl

def clear (caseId : String) (db : Dashboard) : Dashboard :=
  { db with
    offsets := (ensureOffset caseId db.offsets).update caseId resetOffset resetOffset_caseId
    summaries := mark caseId .rebuilding db.summaries
    edges := db.edges.delete fun row => row.caseId = caseId ||
      db.nodes.rows.any fun node => node.caseId = caseId &&
        (node.nodeId = row.sourceNodeId || node.nodeId = row.targetNodeId)
    nodes := db.nodes.delete fun row => row.caseId = caseId
    timeline := db.timeline.delete fun row => row.caseId = caseId
    projected := db.projected.delete fun row => row.caseId = caseId }

def replay (db : Dashboard) (e : Event) : Option Dashboard :=
  (projectEvent py ⟨e, false⟩ db).map Prod.fst

def settle (caseId : String) (db : Dashboard) : Dashboard :=
  { db with
    offsets := db.offsets.update caseId
      (fun row => { row with gapDetected := false, gapFrom := none, gapTo := none }) fun _ => rfl
    summaries := mark caseId .current db.summaries
    updates := db.updates ++ [.caseUpdated caseId (offsetOf db caseId).projectionVersion] }

def rebuildCase (domain : Domain) (outbox : KeyedTable OutboxRow.eventId) (caseId : String)
    (db : Dashboard) : Option (Dashboard × ℕ) := do
  guard (caseId ∈ db.cases)
  let replayed ← (outboxEvents caseId outbox).foldlM (replay py) (clear caseId db)
  let projected ← if (outboxOf caseId outbox).isEmpty then
    projectAuthoritativeSnapshot py domain caseId replayed else some replayed
  return (settle caseId projected, (offsetOf projected caseId).projectionVersion)

end

/-! What the tables show of a case, versions and the time of the case node aside. -/

def timeless (caseId : String) (node : Node) : Node :=
  if node.nodeId = caseNodeId caseId then { node with eventTime := 0 } else node

def itemsAt (db : Dashboard) (caseId : String) : Set TimelineItem :=
  { item | ∃ row ∈ db.timeline.rows, row.caseId = caseId ∧ unversionedItem row = item }

def nodesAt (db : Dashboard) (caseId : String) : Set Node :=
  { node | ∃ row ∈ db.nodes.rows, row.caseId = caseId ∧ timeless caseId (unversionedNode row) = node }

def edgesAt (db : Dashboard) (caseId : String) : Set Edge :=
  { edge | ∃ row ∈ db.edges.rows, row.caseId = caseId ∧ unversionedEdge row = edge }

structure SameView (caseId : String) (db db' : Dashboard) : Prop where
  items : itemsAt db' caseId = itemsAt db caseId
  nodes : nodesAt db' caseId = nodesAt db caseId
  edges : edgesAt db' caseId = edgesAt db caseId

structure Clean (db : Dashboard) (caseId : String) : Prop where
  items : ∀ row ∈ db.timeline.rows, row.caseId ≠ caseId
  nodes : ∀ row ∈ db.nodes.rows, row.caseId ≠ caseId
  edges : ∀ row ∈ db.edges.rows, row.caseId ≠ caseId
  caseNode : db.nodes.find (caseNodeId caseId) = none

theorem selected_of_append {ρ : Type} (f : ρ → ρ) (case : ρ → String) {k : String}
    (keeps : ∀ r, case (f r) = case r) {rows rows' added : List ρ}
    (grown : rows'.map f = rows.map f ++ added) (old : ∀ r ∈ rows, case r ≠ k)
    (new : ∀ r ∈ added, case r = k) (x : ρ) :
    (∃ row ∈ rows', case row = k ∧ f row = x) ↔ x ∈ added := by
  constructor
  · rintro ⟨row, mem, ofCase, rfl⟩
    rcases mem_of_map_append grown mem with ⟨earlier, held, same⟩ | listed
    · rw [← keeps, ← same, keeps] at ofCase
      exact absurd ofCase (old earlier held)
    · exact listed
  · intro listed
    have image : x ∈ rows'.map f := grown ▸ List.mem_append_right _ listed
    obtain ⟨row, mem, rfl⟩ := List.mem_map.mp image
    exact ⟨row, mem, (keeps row).symm.trans (new _ listed), rfl⟩

theorem old_of_other {ρ : Type} (f : ρ → ρ) (case : ρ → String) {k : String}
    (keeps : ∀ r, case (f r) = case r) {rows rows' added : List ρ}
    (grown : rows'.map f = rows.map f ++ added) (new : ∀ r ∈ added, case r = k) {row : ρ}
    (mem : row ∈ rows') (other : case row ≠ k) : ∃ old ∈ rows, f old = f row := by
  rcases mem_of_map_append grown mem with earlier | listed
  · exact earlier
  · exact absurd ((keeps row).symm.trans (new _ listed)) other

section
variable (py : Python)

theorem itemsOf_caseId {caseId : String} {events : List Event} (item : TimelineItem)
    (mem : item ∈ itemsOf py caseId events) : item.caseId = caseId := by
  obtain ⟨e, -, c, -, rfl⟩ := (mem_parts py).mp mem
  rfl

theorem nodesOf_caseId {caseId : String} {events : List Event} (node : Node)
    (mem : node ∈ nodesOf py caseId events) : node.caseId = caseId := by
  obtain ⟨e, -, c, -, rfl⟩ := (mem_parts py).mp mem
  rfl

theorem edgesOf_caseId {caseId : String} {events : List Event} (edge : Edge)
    (mem : edge ∈ edgesOf py caseId events) : edge.caseId = caseId := by
  obtain ⟨e, -, c, -, rfl⟩ := (mem_parts py).mp mem
  rfl

theorem timeless_of_event {caseId : String} {row : Node} (other : row.nodeId ≠ caseNodeId caseId) :
    timeless caseId (unversionedNode row) = unversionedNode row :=
  if_neg other

theorem timeless_caseNode (caseId : String) (version : ℕ) (eventTime : Int) (eventId : String) :
    timeless caseId (unversionedNode (caseNode py caseId version eventTime eventId)) =
      caseNode py caseId 0 0 eventId := by
  have isCase : (unversionedNode (caseNode py caseId version eventTime eventId)).nodeId =
      caseNodeId caseId := rfl
  rw [timeless, if_pos isCase]
  simp only [unversionedNode, caseNode]

section
variable {caseId : String} {applied : List Event} {db db' : Dashboard}
  (holds : Holds py caseId applied db db') (clean : Clean db caseId)
include holds clean

theorem mem_itemsAt_of_holds (item : TimelineItem) :
    item ∈ itemsAt db' caseId ↔ item ∈ itemsOf py caseId applied := by
  apply selected_of_append unversionedItem (fun row => row.caseId) (fun _ => rfl) holds.items
    clean.items
  exact itemsOf_caseId py

theorem mem_edgesAt_of_holds (edge : Edge) :
    edge ∈ edgesAt db' caseId ↔ edge ∈ edgesOf py caseId applied := by
  apply selected_of_append unversionedEdge (fun row => row.caseId) (fun _ => rfl) holds.edges
    clean.edges
  exact edgesOf_caseId py

theorem mem_eventNodes_of_holds (node : Node) :
    (∃ row ∈ eventNodes db' caseId, row.caseId = caseId ∧ unversionedNode row = node) ↔
      node ∈ nodesOf py caseId applied := by
  apply selected_of_append unversionedNode (fun row => row.caseId) (fun _ => rfl) holds.nodes
  · intro row mem
    exact clean.nodes row (List.mem_filter.mp mem).1
  · exact nodesOf_caseId py

theorem mem_nodesAt_of_holds (converted : ∀ e ∈ applied, (contentOf py e).isSome) (node : Node) :
    node ∈ nodesAt db' caseId ↔ node ∈ nodesOf py caseId applied ∨
      ∃ e, applied.getLast? = some e ∧ caseNode py caseId 0 0 e.eventId = node := by
  have caseRow := holds.caseRow clean.caseNode
  constructor
  · rintro ⟨row, stored, ofCase, rfl⟩
    by_cases isCase : row.nodeId = caseNodeId caseId
    · have found := db'.nodes.find_eq_some.mpr ⟨stored, isCase⟩
      rw [caseRow] at found
      obtain ⟨e, last, made⟩ := Option.bind_eq_some_iff.mp found
      obtain ⟨c, -, rfl⟩ := Option.map_eq_some_iff.mp made
      exact .inr ⟨e, last, (timeless_caseNode py caseId _ _ _).symm⟩
    · have selected : row ∈ eventNodes db' caseId :=
        List.mem_filter.mpr ⟨stored, by simp [isCase]⟩
      rw [timeless_of_event isCase]
      exact .inl ((mem_eventNodes_of_holds py holds clean _).mp ⟨row, selected, ofCase, rfl⟩)
  · rintro (listed | ⟨e, last, rfl⟩)
    · obtain ⟨row, selected, ofCase, rfl⟩ := (mem_eventNodes_of_holds py holds clean _).mpr listed
      obtain ⟨stored, other⟩ := List.mem_filter.mp selected
      exact ⟨row, stored, ofCase, timeless_of_event (of_decide_eq_true other)⟩
    · obtain ⟨c, content⟩ := Option.isSome_iff_exists.mp
        (converted e (List.mem_of_getLast? last))
      rw [lastCaseNode, last, Option.bind_some, content, Option.map_some] at caseRow
      exact ⟨_, db'.nodes.mem_of_find caseRow, rfl, timeless_caseNode py caseId _ _ _⟩

theorem clear_clean : Clean (clear caseId db') caseId where
  items := by
    intro row stored
    exact of_decide_eq_false (KeyedTable.mem_delete.mp stored).2
  nodes := by
    intro row stored
    exact of_decide_eq_false (KeyedTable.mem_delete.mp stored).2
  edges := by
    intro row stored
    exact of_decide_eq_false (Bool.or_eq_false_iff.mp (KeyedTable.mem_delete.mp stored).2).1
  caseNode := by
    rw [Option.eq_none_iff_forall_ne_some]
    intro row found
    obtain ⟨stored, isCase⟩ := (clear caseId db').nodes.find_eq_some.mp found
    obtain ⟨held, other⟩ := KeyedTable.mem_delete.mp stored
    have before := db'.nodes.find_eq_some.mpr ⟨held, isCase⟩
    rw [holds.caseRow clean.caseNode] at before
    obtain ⟨e, -, made⟩ := Option.bind_eq_some_iff.mp before
    obtain ⟨c, -, rfl⟩ := Option.map_eq_some_iff.mp made
    exact of_decide_eq_false other rfl

omit clean in
theorem clear_fresh {e : Event} (fresh : Fresh py db caseId e) : Fresh py (clear caseId db') caseId e where
  projected := by
    rw [KeyedTable.find_eq_none, List.mem_map]
    rintro ⟨row, stored, same⟩
    obtain ⟨held, other⟩ := KeyedTable.mem_delete.mp stored
    rw [holds.projected, List.mem_append] at held
    rcases held with old | listed
    · exact db.projected.find_eq_none.mp fresh.projected (List.mem_map.mpr ⟨row, old, same⟩)
    · obtain ⟨p, -, rfl⟩ := List.mem_map.mp listed
      exact of_decide_eq_false other rfl
  item := by
    rw [KeyedTable.find_eq_none, List.mem_map]
    rintro ⟨row, stored, same⟩
    obtain ⟨held, other⟩ := KeyedTable.mem_delete.mp stored
    obtain ⟨old, earlier, equal⟩ := old_of_other unversionedItem (fun row => row.caseId) (fun _ => rfl)
      holds.items (itemsOf_caseId py) held (of_decide_eq_false other)
    exact db.timeline.find_eq_none.mp fresh.item
      (List.mem_map.mpr ⟨old, earlier, (congrArg TimelineItem.itemId equal).trans same⟩)
  source := by
    intro row stored same
    obtain ⟨held, other⟩ := KeyedTable.mem_delete.mp stored
    obtain ⟨old, earlier, equal⟩ := old_of_other unversionedItem (fun row => row.caseId) (fun _ => rfl)
      holds.items (itemsOf_caseId py) held (of_decide_eq_false other)
    exact fresh.source old earlier ((congrArg TimelineItem.sourceEventId equal).trans same)
  node := by
    rw [KeyedTable.find_eq_none, List.mem_map]
    rintro ⟨row, stored, same⟩
    obtain ⟨held, other⟩ := KeyedTable.mem_delete.mp stored
    have selected : row ∈ eventNodes db' caseId := by
      rw [eventNodes, List.mem_filter, decide_eq_true_eq, same]
      exact ⟨held, nodeId_ne_caseNodeId py e.eventId caseId⟩
    obtain ⟨old, earlier, equal⟩ := old_of_other unversionedNode (fun row => row.caseId) (fun _ => rfl)
      holds.nodes (nodesOf_caseId py) selected (of_decide_eq_false other)
    exact db.nodes.find_eq_none.mp fresh.node
      (List.mem_map.mpr ⟨old, (List.mem_filter.mp earlier).1, (congrArg Node.nodeId equal).trans same⟩)
  edge := by
    rw [KeyedTable.find_eq_none, List.mem_map]
    rintro ⟨row, stored, same⟩
    obtain ⟨held, other⟩ := KeyedTable.mem_delete.mp stored
    obtain ⟨old, earlier, equal⟩ := old_of_other unversionedEdge (fun row => row.caseId) (fun _ => rfl)
      holds.edges (edgesOf_caseId py) held (of_decide_eq_false (Bool.or_eq_false_iff.mp other).1)
    exact db.edges.find_eq_none.mp fresh.edge
      (List.mem_map.mpr ⟨old, earlier, (congrArg Edge.edgeId equal).trans same⟩)

end

section
variable {caseId : String} {events : List Event} {db : Dashboard}
  (apart : CollisionFree py caseId events) (feed : Feed py db caseId events)
include apart feed

theorem replay_eq_deliver {db' : Dashboard} {applied : List Event} {e : Event}
    (holds : Holds py caseId applied db db') (within : ∀ e ∈ applied, e ∈ events) (mem : e ∈ events)
    (taken : projectable py db caseId e = true) : replay py db' e = some (deliver py db' ⟨e, false⟩) := by
  have returns : ∃ result, projectEvent py ⟨e, false⟩ db' = some result := by
    by_cases seen : e.eventId ∈ applied.map Event.eventId
    · obtain ⟨row, found⟩ := found_of_applied py holds seen
      rw [projectEvent_eq py (d := ⟨e, false⟩) (feed.ofCase e mem) feed.named, found]
      exact ⟨_, rfl⟩
    · obtain ⟨c, -, returned, -⟩ :=
        applied_deliver py apart feed (d := ⟨e, false⟩) mem holds within seen taken
      obtain ⟨result, projected, -⟩ := Option.map_eq_some_iff.mp returned
      exact ⟨result, projected⟩
  obtain ⟨result, projected⟩ := returns
  rw [replay, deliver, projected]
  rfl

theorem replay_run {db' : Dashboard} {applied : List Event} (listed : List Event)
    (holds : Holds py caseId applied db db') (within : ∀ e ∈ applied, e ∈ events)
    (known : ∀ e ∈ listed, e ∈ events ∧ projectable py db caseId e = true) :
    listed.foldlM (replay py) db' =
      some ((listed.map fun e => ⟨e, false⟩).foldl (deliver py) db') := by
  induction listed generalizing db' applied with
  | nil => rfl
  | cons e rest ih =>
    obtain ⟨mem, taken⟩ := known e List.mem_cons_self
    rw [List.foldlM_cons, replay_eq_deliver py apart feed holds within mem taken]
    apply ih (holds_deliver py apart feed (d := ⟨e, false⟩) mem holds within)
    · intro e' applied'
      rcases mem_of_mem_applying py applied' with old | rfl
      · exact within e' old
      · exact mem
    · exact fun e' later => known e' (List.mem_cons_of_mem e later)

end

theorem appliedBy_map {db : Dashboard} {caseId : String} {listed : List Event}
    (once : (listed.map Event.eventId).Nodup)
    (taken : ∀ e ∈ listed, projectable py db caseId e = true) :
    appliedBy py db caseId (listed.map fun e => ⟨e, false⟩) = listed := by
  suffices h : ∀ applied : List Event, ((applied ++ listed).map Event.eventId).Nodup →
      (listed.map fun e => (⟨e, false⟩ : Delivery)).foldl (applying py db caseId) applied =
        applied ++ listed from h [] once
  clear once
  induction listed with
  | nil => exact fun applied _ => (List.append_nil applied).symm
  | cons e rest ih =>
    intro applied once
    have new : e.eventId ∉ applied.map Event.eventId := by
      intro seen
      rw [List.map_append, List.nodup_append] at once
      exact once.2.2 _ seen _ List.mem_cons_self rfl
    rw [List.map_cons, List.foldl_cons, applying, if_pos ⟨new, taken e List.mem_cons_self⟩,
      ih (fun e' later => taken e' (List.mem_cons_of_mem e later)), List.append_assoc]
    · rfl
    · rw [List.append_assoc]
      exact once

structure Snapshotted (caseId : String) (db : Dashboard) : Prop where
  caseRow : ∃ row, db.nodes.find (caseNodeId caseId) = some row ∧ row.caseId = caseId
  items : ∀ row ∈ db.timeline.rows, row.caseId = caseId →
    ∃ entityId, row.sourceReferences = [.domainRow entityId]

/-- A row behind an upsert is the new one, or an old one, as it was or with the
new one merged into it. -/
theorem mem_putTimeline {item row : TimelineItem} {t : KeyedTable TimelineItem.itemId}
    (mem : row ∈ (putTimeline item t).rows) :
    row = item ∨ row ∈ t.rows ∨ ∃ old ∈ t.rows, row = TimelineItem.merge old item := by
  have found := (putTimeline item t).find_of_mem mem
  rw [putTimeline, KeyedTable.find_upsert] at found
  split at found
  · cases before : t.find item.itemId with
    | none =>
      rw [before] at found
      exact .inl (Option.some.inj found).symm
    | some old =>
      rw [before] at found
      exact .inr (.inr ⟨old, t.mem_of_find before, (Option.some.inj found).symm⟩)
  · exact .inr (.inl (t.mem_of_find found))

theorem snapshotted_entity {caseId : String} {version : ℕ} {db db' : Dashboard} {x : SnapshotEntity}
    (before : Snapshotted caseId db) (wrote : upsertSnapshotEntity py caseId version db x = some db') :
    Snapshotted caseId db' := by
  simp only [upsertSnapshotEntity, Option.bind_eq_bind, Option.bind_eq_some_iff] at wrote
  obtain ⟨db₁, wroteNode, db₂, wroteEdge, wroteItem⟩ := wrote
  obtain ⟨-, rfl⟩ := upsertNode_eq_some wroteNode
  obtain ⟨-, rfl⟩ := upsertEdge_eq_some wroteEdge
  obtain ⟨-, rfl⟩ := upsertTimeline_eq_some wroteItem
  obtain ⟨row, found, ofCase⟩ := before.caseRow
  constructor
  · rw [find_putNode]
    split
    · rename_i same
      rw [← same, found]
      exact ⟨Node.merge row _, rfl, (Node.merge_caseId row _).trans ofCase⟩
    · exact ⟨row, found, ofCase⟩
  · intro item stored itemOfCase
    rcases mem_putTimeline stored with new | old | ⟨old, held, merged⟩
    · rw [new]
      exact ⟨x.entityId, rfl⟩
    · exact before.items item old itemOfCase
    · rw [merged, TimelineItem.merge_caseId] at itemOfCase
      rw [merged, TimelineItem.merge_sourceReferences]
      exact before.items old held itemOfCase

theorem snapshotted_entities {caseId : String} {version : ℕ} (entities : List SnapshotEntity)
    {db db' : Dashboard} (before : Snapshotted caseId db)
    (wrote : entities.foldlM (upsertSnapshotEntity py caseId version) db = some db') :
    Snapshotted caseId db' := by
  induction entities generalizing db with
  | nil =>
    cases wrote
    exact before
  | cons x rest ih =>
    rw [List.foldlM_cons, Option.bind_eq_bind, Option.bind_eq_some_iff] at wrote
    obtain ⟨db₁, first, later⟩ := wrote
    exact ih (snapshotted_entity py before first) later

theorem snapshot_spec {domain : Domain} {caseId : String} {db db' : Dashboard} (clean : Clean db caseId)
    (wrote : projectAuthoritativeSnapshot py domain caseId db = some db') : Snapshotted caseId db' := by
  simp only [projectAuthoritativeSnapshot, Option.bind_eq_bind, Option.bind_eq_some_iff] at wrote
  obtain ⟨-, -, db₁, wroteCase, entities⟩ := wrote
  obtain ⟨-, rfl⟩ := upsertNode_eq_some wroteCase
  refine snapshotted_entities py _ ⟨?_, fun row stored ofCase => ?_⟩ entities
  · rw [find_putNode, caseNode_nodeId, if_pos rfl]
    change ∃ row, some (((db.nodes.find (caseNodeId caseId)).map _).getD _) = some row ∧ _
    rw [clean.caseNode]
    exact ⟨_, rfl, rfl⟩
  · exact absurd ofCase (clean.items row stored)

/-! The rebuild against the history. -/

theorem caseNode_notMem_nodesOf {caseId eventId : String} {applied : List Event} :
    caseNode py caseId 0 0 eventId ∉ nodesOf py caseId applied := by
  intro listed
  obtain ⟨e, -, c, -, made⟩ := (mem_parts py).mp listed
  exact nodeId_ne_caseNodeId py e.eventId caseId (congrArg Node.nodeId made)

/-- Two runs over the same case show the same exactly if they applied the same
events, and the same event last. -/
theorem sameView_iff {caseId : String} {events applied replayed : List Event}
    {db db₁ base db₂ : Dashboard} (apart : CollisionFree py caseId events)
    (distinct : (events.map Event.eventId).Nodup) (within : ∀ e ∈ applied, e ∈ events)
    (converted : ∀ e ∈ applied, (contentOf py e).isSome)
    (holds : Holds py caseId applied db db₁) (clean : Clean db caseId)
    (holds' : Holds py caseId replayed base db₂) (clean' : Clean base caseId)
    (subset : ∀ e ∈ replayed, e ∈ applied) (some' : replayed ≠ []) :
    SameView caseId db₁ db₂ ↔ (∀ e ∈ applied, e ∈ replayed) ∧
      applied.getLast?.map Event.eventId = replayed.getLast?.map Event.eventId := by
  have converted' : ∀ e ∈ replayed, (contentOf py e).isSome := fun e mem => converted e (subset e mem)
  have nodes := mem_nodesAt_of_holds py holds clean converted
  have nodes' := mem_nodesAt_of_holds py holds' clean' converted'
  constructor
  · intro same
    constructor
    · intro e mem
      obtain ⟨c, content⟩ := Option.isSome_iff_exists.mp (converted e mem)
      have shown : (recordsOf py e caseId c 0).timeline ∈ itemsAt db₂ caseId := by
        rw [same.items, mem_itemsAt_of_holds py holds clean]
        exact (mem_parts py).mpr ⟨e, mem, c, content, rfl⟩
      rw [mem_itemsAt_of_holds py holds' clean'] at shown
      obtain ⟨e', listed, c', -, made⟩ := (mem_parts py).mp shown
      have ids : e'.eventId = e.eventId :=
        eventId_of_stableId py apart (within e' (subset e' listed)) (within e mem)
          (congrArg TimelineItem.itemId made)
      have equal : e' = e :=
        List.inj_on_of_nodup_map distinct (within e' (subset e' listed)) (within e mem) ids
      exact equal ▸ listed
    · cases last : replayed.getLast? with
      | none => exact absurd (List.getLast?_eq_none_iff.mp last) some'
      | some e' =>
        have shown : caseNode py caseId 0 0 e'.eventId ∈ nodesAt db₁ caseId := by
          rw [← same.nodes, nodes']
          exact .inr ⟨e', last, rfl⟩
        rw [nodes] at shown
        rcases shown with listed | ⟨e, last', made⟩
        · exact absurd listed (caseNode_notMem_nodesOf py)
        · rw [last', Option.map_some, Option.map_some, Option.some.injEq]
          exact (List.cons.inj (congrArg (fun node : Node => node.sourceEventIds) made)).1
  · rintro ⟨all, lasts⟩
    have members : ∀ e, e ∈ replayed ↔ e ∈ applied := fun e => ⟨subset e, all e⟩
    refine ⟨Set.ext fun item => ?_, Set.ext fun node => ?_, Set.ext fun edge => ?_⟩
    · rw [mem_itemsAt_of_holds py holds' clean', mem_itemsAt_of_holds py holds clean, itemsOf, itemsOf,
        mem_parts, mem_parts]
      simp only [members]
    · rw [nodes', nodes, nodesOf, nodesOf, mem_parts, mem_parts]
      simp only [members]
      apply or_congr_right
      constructor
      · rintro ⟨e, last, made⟩
        rw [last] at lasts
        obtain ⟨e', last', same⟩ := Option.map_eq_some_iff.mp lasts
        exact ⟨e', last', same ▸ made⟩
      · rintro ⟨e, last, made⟩
        rw [last] at lasts
        obtain ⟨e', last', same⟩ := Option.map_eq_some_iff.mp lasts.symm
        exact ⟨e', last', same ▸ made⟩
    · rw [mem_edgesAt_of_holds py holds' clean', mem_edgesAt_of_holds py holds clean, edgesOf, edgesOf,
        mem_parts, mem_parts]
      simp only [members]

theorem snapshot_differs {caseId : String} {applied : List Event} {db db₁ db₂ : Dashboard}
    (converted : ∀ e ∈ applied, (contentOf py e).isSome) (holds : Holds py caseId applied db db₁)
    (clean : Clean db caseId) (snapshot : Snapshotted caseId db₂) : ¬ SameView caseId db₁ db₂ := by
  intro same
  cases applied with
  | nil =>
    obtain ⟨row, found, ofCase⟩ := snapshot.caseRow
    have shown : timeless caseId (unversionedNode row) ∈ nodesAt db₁ caseId :=
      same.nodes ▸ ⟨row, db₂.nodes.mem_of_find found, ofCase, rfl⟩
    rw [mem_nodesAt_of_holds py holds clean converted] at shown
    rcases shown with listed | ⟨e, last, -⟩
    · cases listed
    · cases last
  | cons e rest =>
    obtain ⟨c, content⟩ := Option.isSome_iff_exists.mp (converted e List.mem_cons_self)
    have shown : (recordsOf py e caseId c 0).timeline ∈ itemsAt db₂ caseId := by
      rw [same.items, mem_itemsAt_of_holds py holds clean]
      exact (mem_parts py).mpr ⟨e, List.mem_cons_self, c, content, rfl⟩
    obtain ⟨row, stored, ofCase, made⟩ := shown
    obtain ⟨entityId, reference⟩ := snapshot.items row stored ofCase
    have references : row.sourceReferences = [c.sourceRef] :=
      congrArg (fun item : TimelineItem => item.sourceReferences) made
    rw [reference, contentOf_sourceRef py content] at references
    cases references

/-- The rebuild returns and shows what the tables showed before, and where the
outbox holds no event of the case, it shows the snapshot of the domain tables. -/
def Agrees (domain : Domain) (outbox : KeyedTable OutboxRow.eventId) (caseId : String)
    (db : Dashboard) : Prop :=
  ∃ db' version, rebuildCase py domain outbox caseId db = some (db', version) ∧
    SameView caseId db db' ∧
    (outboxEvents caseId outbox = [] →
      ∃ snapshot, projectAuthoritativeSnapshot py domain caseId (clear caseId db) = some snapshot ∧
        db'.timeline = snapshot.timeline ∧ db'.nodes = snapshot.nodes ∧ db'.edges = snapshot.edges)

theorem sameView_settle {caseId : String} {db db' : Dashboard} :
    SameView caseId db (settle caseId db') ↔ SameView caseId db db' :=
  ⟨fun same => ⟨same.items, same.nodes, same.edges⟩, fun same => ⟨same.items, same.nodes, same.edges⟩⟩

theorem rebuildCase_eq (domain : Domain) {outbox : KeyedTable OutboxRow.eventId} {caseId : String}
    {db replayed : Dashboard} (known : caseId ∈ db.cases)
    (replays : (outboxEvents caseId outbox).foldlM (replay py) (clear caseId db) = some replayed) :
    rebuildCase py domain outbox caseId db =
      (if (outboxOf caseId outbox).isEmpty then projectAuthoritativeSnapshot py domain caseId replayed
        else some replayed).map fun db' =>
          (settle caseId db', (offsetOf db' caseId).projectionVersion) := by
  rw [rebuildCase]
  simp only [known, guard, if_true, Option.pure_def, Option.bind_eq_bind, Option.bind_some,
    replays]
  split
  · rw [Option.map_eq_bind]
    rfl
  · rfl

theorem eventOf_eq_some {row : OutboxRow} {e : Event} (made : eventOf row = some e) :
    row.payload = .event e := by
  unfold eventOf at made
  split at made
  · rename_i payload
    rw [payload, (Option.ite_none_left_eq_some.mp made).2 |> Option.some.inj]
  · cases made

theorem mem_outboxEvents {caseId : String} {outbox : KeyedTable OutboxRow.eventId} {e : Event}
    (mem : e ∈ outboxEvents caseId outbox) :
    ∃ row ∈ outbox.rows, row.payload = .event e ∧ e.caseId = some caseId := by
  obtain ⟨row, listed, made⟩ := List.mem_filterMap.mp mem
  rw [outboxOf, List.mem_insertionSort, List.mem_filter, decide_eq_true_eq] at listed
  have payload := eventOf_eq_some made
  refine ⟨row, listed.1, payload, ?_⟩
  rw [← listed.2, payload]
  rfl

theorem eventIds_sublist (rows : List OutboxRow) :
    ((rows.filterMap eventOf).map Event.eventId).Sublist (rows.map OutboxRow.eventId) := by
  induction rows with
  | nil => exact List.Sublist.refl _
  | cons row rest ih =>
    cases made : eventOf row with
    | none =>
      rw [List.filterMap_cons_none made]
      exact ih.cons _
    | some e =>
      have name : row.eventId = e.eventId := by rw [OutboxRow.eventId, eventOf_eq_some made]
      rw [List.filterMap_cons_some made, List.map_cons, List.map_cons, name]
      exact ih.cons_cons _

theorem outboxEvents_nodup (caseId : String) (outbox : KeyedTable OutboxRow.eventId) :
    ((outboxEvents caseId outbox).map Event.eventId).Nodup := by
  have rows : ((outboxOf caseId outbox).map OutboxRow.eventId).Nodup := by
    have sorted := (List.perm_insertionSort OutboxRow.le (outbox.rows.filter fun row =>
      row.payload.caseId = some caseId)).map OutboxRow.eventId
    exact sorted.nodup_iff.mpr ((List.filter_sublist.map _).nodup outbox.unique)
  exact (eventIds_sublist _).nodup rows

section
variable {caseId : String} {events : List Event} {db : Dashboard} {history : List Delivery}
  {outbox : KeyedTable OutboxRow.eventId}
  (apart : CollisionFree py caseId events) (feed : Feed py db caseId events) (clean : Clean db caseId)
  (only : ∀ d ∈ history, d.event ∈ events)
  (projected : ∀ row ∈ outbox.rows, ∀ e, row.payload = .event e → e.caseId = some caseId →
    e ∈ appliedBy py db caseId history)
include apart feed only projected

theorem replay_outbox : ∃ db', (outboxEvents caseId outbox).foldlM (replay py)
      (clear caseId (history.foldl (deliver py) db)) = some db' ∧
    Holds py caseId (outboxEvents caseId outbox) (clear caseId (history.foldl (deliver py) db)) db' := by
  have holds := holds_appliedBy py apart feed only
  have same : ∀ e, projectable py (clear caseId (history.foldl (deliver py) db)) caseId e =
      projectable py db caseId e := fun e => projectable_of_holds py holds e
  have feed' : Feed py (clear caseId (history.foldl (deliver py) db)) caseId events :=
    ⟨feed.named, feed.ofCase, feed.distinct, fun e mem => clear_fresh py holds (feed.fresh e mem)⟩
  have known : ∀ e ∈ outboxEvents caseId outbox, e ∈ events ∧
      projectable py (clear caseId (history.foldl (deliver py) db)) caseId e = true := by
    intro e mem
    obtain ⟨row, listed, payload, ofCase⟩ := mem_outboxEvents mem
    obtain ⟨⟨d, delivered, rfl⟩, taken⟩ := (mem_appliedBy py feed.distinct only e).mp
      (projected row listed e payload ofCase)
    exact ⟨only d delivered, (same _).trans taken⟩
  refine ⟨_, replay_run py apart feed' _ (holds_refl py caseId _) (by simp) known, ?_⟩
  have order := appliedBy_map py (outboxEvents_nodup caseId outbox) fun e mem => (known e mem).2
  conv => arg 3; rw [← order]
  apply holds_appliedBy py apart feed'
  intro d delivered
  obtain ⟨e, mem, rfl⟩ := List.mem_map.mp delivered
  exact (known e mem).1

/-- The rebuild agrees with the history exactly if the outbox holds an event of
the case and every event the history applied, and the last one the history applied
is the last one of the outbox. -/
theorem rebuild_agrees_iff (clean : Clean db caseId) (case' : caseId ∈ db.cases) (domain : Domain) :
    Agrees py domain outbox caseId (history.foldl (deliver py) db) ↔
      outboxEvents caseId outbox ≠ [] ∧
      (∀ e ∈ appliedBy py db caseId history, e ∈ outboxEvents caseId outbox) ∧
      (appliedBy py db caseId history).getLast?.map Event.eventId =
        (outboxEvents caseId outbox).getLast?.map Event.eventId := by
  have holds := holds_appliedBy py apart feed only
  have clean' := clear_clean py holds clean
  have members : ∀ e, e ∈ appliedBy py db caseId history ↔
      (∃ d ∈ history, d.event = e) ∧ projectable py db caseId e = true :=
    mem_appliedBy py feed.distinct only
  have converted : ∀ e ∈ appliedBy py db caseId history, (contentOf py e).isSome := by
    intro e mem
    obtain ⟨c, content, -⟩ := projectable_spec py ((members e).mp mem).2
    rw [content]
    rfl
  have within : ∀ e ∈ appliedBy py db caseId history, e ∈ events := by
    intro e mem
    obtain ⟨⟨d, delivered, rfl⟩, -⟩ := (members e).mp mem
    exact only d delivered
  have subset : ∀ e ∈ outboxEvents caseId outbox, e ∈ appliedBy py db caseId history := by
    intro e mem
    obtain ⟨row, listed, payload, ofCase⟩ := mem_outboxEvents mem
    exact projected row listed e payload ofCase
  obtain ⟨replayed, replays, holds'⟩ := replay_outbox py apart feed only projected
  generalize history.foldl (deliver py) db = db₁ at *
  have known : caseId ∈ db₁.cases := holds.cases ▸ case'
  have rebuilt := rebuildCase_eq py domain known replays
  constructor
  · rintro ⟨db', version, returned, same, snapshotted⟩
    rw [rebuilt] at returned
    obtain ⟨final, shown, pair⟩ := Option.map_eq_some_iff.mp returned
    cases pair
    rw [sameView_settle] at same
    by_cases none : outboxEvents caseId outbox = []
    · -- without an event to replay, a snapshot is missing or shows something else
      rw [none] at replays
      cases replays
      obtain ⟨snapshot, taken, -, nodes, -⟩ := snapshotted none
      split at shown
      · exact absurd same (snapshot_differs py converted holds clean (snapshot_spec py clean' shown))
      · cases shown
        obtain ⟨row, found, -⟩ := (snapshot_spec py clean' taken).caseRow
        rw [← nodes] at found
        change (clear caseId db₁).nodes.find (caseNodeId caseId) = some row at found
        rw [clean'.caseNode] at found
        cases found
    · refine ⟨none, ?_⟩
      split at shown
      · rename_i empty
        rw [List.isEmpty_iff] at empty
        rw [outboxEvents, empty] at none
        exact absurd rfl none
      · cases shown
        exact (sameView_iff py apart feed.distinct within converted holds clean holds' clean' subset
          none).mp same
  · rintro ⟨some', all, lasts⟩
    have filled : ¬ (outboxOf caseId outbox).isEmpty = true := by
      intro empty
      rw [List.isEmpty_iff] at empty
      rw [outboxEvents, empty] at some'
      exact some' rfl
    rw [if_neg filled, Option.map_some] at rebuilt
    have same := (sameView_iff py apart feed.distinct within converted holds clean holds' clean' subset
      some').mpr ⟨all, lasts⟩
    exact ⟨_, _, rebuilt, sameView_settle.mpr same, fun none => absurd none some'⟩

end

end

def noRows : Domain := ⟨1714557600, [], [], [], [], [], [], [], [], [], [], [], []⟩

def inOrder : List Delivery := detections.map fun e => ⟨e, false⟩

theorem clean_sample : Clean sampleDashboard sampleCase where
  items := by
    intro row stored
    cases stored
  nodes := by
    intro row stored
    cases stored
  edges := by
    intro row stored
    cases stored
  caseNode := rfl

theorem inOrder_applied : appliedBy samplePython sampleDashboard sampleCase inOrder = detections :=
  appliedBy_map samplePython detections_feed.distinct detections_taken

def outboxWith (events : List Event) (distinct : (events.map Event.eventId).Nodup) :
    KeyedTable OutboxRow.eventId :=
  ⟨events.map fun e => ⟨e.sequence, .event e⟩, by
    rw [List.map_map]
    exact distinct⟩

/-- Two detections that both come from the outbox. -/
theorem detections_rebuilt :
    Agrees samplePython noRows (outboxWith detections (by decide)) sampleCase
      (inOrder.foldl (deliver samplePython) sampleDashboard) := by
  have outbox : outboxEvents sampleCase (outboxWith detections (by decide)) = detections := rfl
  refine (rebuild_agrees_iff samplePython detections_apart detections_feed (by simp [inOrder]) ?_
    clean_sample (by decide) noRows).mpr ?_
  · intro row listed e payload ofCase
    rw [inOrder_applied]
    obtain ⟨e', mem, rfl⟩ := List.mem_map.mp listed
    cases payload
    exact mem
  · rw [outbox, inOrder_applied]
    exact ⟨by simp [detections], fun e mem => mem, rfl⟩

/-- The second detection was published without the outbox, as telemetry is: the
rebuild takes it off the timeline. -/
theorem telemetry_removed :
    (∀ row ∈ (outboxWith (detections.take 1) (by decide)).rows, ∀ e, row.payload = .event e →
      e ∈ appliedBy samplePython sampleDashboard sampleCase inOrder) ∧
    ¬ Agrees samplePython noRows (outboxWith (detections.take 1) (by decide)) sampleCase
      (inOrder.foldl (deliver samplePython) sampleDashboard) := by
  constructor
  · intro row listed e payload
    rw [inOrder_applied]
    obtain ⟨e', mem, rfl⟩ := List.mem_map.mp listed
    cases payload
    exact List.mem_of_mem_take mem
  · rintro ⟨db', version, returned, same, -⟩
    have kept : ((rebuildCase samplePython noRows (outboxWith (detections.take 1) (by decide)) sampleCase
        (inOrder.foldl (deliver samplePython) sampleDashboard)).map
          fun result => result.1.timeline.rows.map TimelineItem.sourceEventId) =
        some ["01HX3QK7Z0000000000000000A"] := by
      decide +kernel
    rw [returned, Option.map_some, Option.some.injEq] at kept
    have only : ∀ d ∈ inOrder, d.event ∈ detections := by simp [inOrder]
    have holds := holds_appliedBy samplePython detections_apart detections_feed only
    have second : sampleEvent "01HX3QK7Z0000000000000000B" "sensor-1" 2 ∈ detections :=
      List.mem_cons_of_mem _ List.mem_cons_self
    obtain ⟨c, content, -⟩ := projectable_spec samplePython (detections_taken _ second)
    have shown : (recordsOf samplePython (sampleEvent "01HX3QK7Z0000000000000000B" "sensor-1" 2) sampleCase c
        0).timeline ∈ itemsAt db' sampleCase := by
      rw [same.items, mem_itemsAt_of_holds samplePython holds clean_sample, inOrder_applied]
      exact (mem_parts samplePython).mpr ⟨_, second, c, content, rfl⟩
    obtain ⟨row, stored, -, equal⟩ := shown
    have source : row.sourceEventId = "01HX3QK7Z0000000000000000B" :=
      congrArg TimelineItem.sourceEventId equal
    have listed := List.mem_map_of_mem (f := TimelineItem.sourceEventId) stored
    rw [kept, source] at listed
    simp at listed

end Mirage.DashboardRebuild
