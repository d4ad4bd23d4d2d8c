import Mathlib.Data.Prod.Lex
import Mathlib.Data.String.Basic
import Mirage.DashboardRebuild

/-! The graph that `_read_graph` returns of a case: its first nodes by time and id,
and the edges between them. Every event that is projected writes its own time into
the node of the case, so the node of the case can come after others. -/

namespace Mirage.GraphConnectivity
open DashboardRecords DashboardProjection DashboardRun DashboardRebuild

section
variable {α ι : Type} [LinearOrder ι] {rank : α → ι}

theorem mem_take_sorted {l : List α} (sorted : l.Pairwise fun a b => rank a < rank b) {a : α} (mem : a ∈ l)
    (n : ℕ) : a ∈ l.take n ↔ l.countP (fun b => rank b < rank a) < n := by
  induction l generalizing n with
  | nil => cases mem
  | cons x xs ih =>
    obtain ⟨above, rest⟩ := List.pairwise_cons.mp sorted
    cases mem with
    | head =>
      have first : (a :: xs).countP (fun b => rank b < rank a) = 0 := by
        rw [List.countP_eq_zero]
        intro b mem
        rw [decide_eq_true_eq, not_lt]
        rcases List.mem_cons.mp mem with rfl | mem
        · exact le_rfl
        · exact (above b mem).le
      rw [first]
      cases n <;> simp
    | tail _ mem =>
      have below := above a mem
      have counted : (fun b => decide (rank b < rank a)) x = true := decide_eq_true below
      rw [@List.countP_cons_of_pos _ (fun b => decide (rank b < rank a)) _ _ counted]
      cases n with
      | zero => simp
      | succ n =>
        have other : a ≠ x := by
          rintro rfl
          exact lt_irrefl _ below
        rw [List.take_succ_cons, List.mem_cons, or_iff_right other, ih rest mem, Nat.succ_lt_succ_iff]

theorem mem_take_insertionSort {xs : List α} (distinct : (xs.map rank).Nodup) {a : α} (mem : a ∈ xs) (n : ℕ) :
    a ∈ (xs.insertionSort fun a b => rank a ≤ rank b).take n ↔ xs.countP (fun b => rank b < rank a) < n := by
  have perm := List.perm_insertionSort (fun a b => rank a ≤ rank b) xs
  have unequal : (xs.insertionSort fun a b => rank a ≤ rank b).Pairwise fun a b => rank a ≠ rank b :=
    List.pairwise_map.mp ((perm.map rank).nodup_iff.mpr distinct)
  have sorted := (List.pairwise_insertionSort (fun a b => rank a ≤ rank b) xs).and unequal
  rw [mem_take_sorted (sorted.imp fun both => lt_of_le_of_ne both.1 both.2) (perm.mem_iff.mpr mem),
    perm.countP_eq]

end

structure Collation (κ : Type) where
  key : String → κ
  injective : Function.Injective key

structure Filters where
  sessionId : Option String
  nodeTypes : List String
  evidenceOnly : Bool

def noFilters : Filters := ⟨none, [], false⟩

structure Graph where
  nodes : List Node
  edges : List Edge
  sampled : Bool
  totalNodes : ℕ
  totalEdges : ℕ

def Filters.takes (filters : Filters) (caseId : String) (row : Node) : Bool :=
  let nodeTypes := filters.nodeTypes.filter fun item => item ≠ ""
  row.caseId = caseId &&
    (match filters.sessionId with
      | none | some "" => true
      | some sessionId => row.sessionId = some sessionId || row.nodeType = .case) &&
    (nodeTypes.isEmpty || nodeTypeName row.nodeType ∈ nodeTypes) &&
    (!filters.evidenceOnly || 0 < row.evidenceReferences.length)

section
variable {κ : Type} [LinearOrder κ] (collation : Collation κ)

def nodeRank (row : Node) : Int ×ₗ κ := toLex (row.eventTime, collation.key row.nodeId)

def edgeRank (row : Edge) : Int ×ₗ κ := toLex (row.eventTime, collation.key row.edgeId)

def readGraph (db : Dashboard) (caseId : String) (filters : Filters) (maxNodes : ℕ) : Graph :=
  let rows := db.nodes.rows.filter (filters.takes caseId)
  let nodes := (rows.insertionSort fun a b => nodeRank collation a ≤ nodeRank collation b).take maxNodes
  let nodeIds := nodes.map Node.nodeId
  let edges := db.edges.rows.filter fun edge =>
    edge.caseId = caseId && edge.sourceNodeId ∈ nodeIds && edge.targetNodeId ∈ nodeIds
  { nodes
    edges := if nodeIds.isEmpty then [] else
      edges.insertionSort fun a b => edgeRank collation a ≤ edgeRank collation b
    sampled := nodes.length < rows.length
    totalNodes := rows.length
    totalEdges := db.edges.rows.countP fun edge => edge.caseId = caseId }

end

structure Connected (db : Dashboard) (caseId : String) (graph : Graph) : Prop where
  caseNode : ∃ node ∈ graph.nodes, node.nodeId = caseNodeId caseId
  belongs : ∀ node ∈ graph.nodes, node.nodeId ≠ caseNodeId caseId →
    ∃ edge ∈ graph.edges, edge.edgeType = "BELONGS_TO" ∧ edge.sourceNodeId = node.nodeId ∧
      edge.targetNodeId = caseNodeId caseId
  closed : ∀ edge ∈ graph.edges, (∃ node ∈ graph.nodes, node.nodeId = edge.sourceNodeId) ∧
    ∃ node ∈ graph.nodes, node.nodeId = edge.targetNodeId
  sampled : graph.sampled = true ↔ ∃ row ∈ db.nodes.rows, row.caseId = caseId ∧
    ∀ node ∈ graph.nodes, node.nodeId ≠ row.nodeId

section
variable {κ : Type} [LinearOrder κ] (py : Python) (collation : Collation κ)

/-- Fewer nodes of events than the limit come before the case's, which has the
time of the last event. -/
def Reaches (caseId : String) (applied : List Event) (maxNodes : ℕ) : Prop :=
  ∃ last, (nodesOf py caseId applied).getLast? = some last ∧
    (nodesOf py caseId applied).countP (fun node =>
      nodeRank collation node < toLex (last.eventTime, collation.key (caseNodeId caseId))) < maxNodes

end

section
variable {κ : Type} [LinearOrder κ] {collation : Collation κ} {db : Dashboard} {caseId : String}

theorem takes_noFilters (row : Node) : noFilters.takes caseId row = decide (row.caseId = caseId) := by
  simp [Filters.takes, noFilters]

omit [LinearOrder κ] in
theorem ranks_distinct (p : Node → Bool) : ((db.nodes.rows.filter p).map (nodeRank collation)).Nodup := by
  have ids : ((db.nodes.rows.filter p).map Node.nodeId).Nodup :=
    db.nodes.unique.sublist ((List.filter_sublist).map _)
  have keys : ((db.nodes.rows.filter p).map fun row => collation.key row.nodeId).Nodup := by
    rw [← Function.comp_def, ← List.map_map]
    exact ids.map collation.injective
  have second : ((db.nodes.rows.filter p).map (nodeRank collation)).map (fun rank => (ofLex rank).2) =
      (db.nodes.rows.filter p).map fun row => collation.key row.nodeId := by
    rw [List.map_map]
    rfl
  exact List.Nodup.of_map _ (second ▸ keys)

theorem mem_nodes {node : Node} {filters : Filters} {maxNodes : ℕ}
    (mem : node ∈ (readGraph collation db caseId filters maxNodes).nodes) :
    node ∈ db.nodes.rows ∧ filters.takes caseId node = true :=
  List.mem_filter.mp ((List.mem_insertionSort _).mp (List.mem_of_mem_take mem))

theorem mem_edges {edge : Edge} {filters : Filters} {maxNodes : ℕ} :
    edge ∈ (readGraph collation db caseId filters maxNodes).edges ↔
      edge ∈ db.edges.rows ∧ edge.caseId = caseId ∧
        (∃ node ∈ (readGraph collation db caseId filters maxNodes).nodes, node.nodeId = edge.sourceNodeId) ∧
        ∃ node ∈ (readGraph collation db caseId filters maxNodes).nodes, node.nodeId = edge.targetNodeId := by
  simp only [readGraph]
  generalize ((db.nodes.rows.filter (filters.takes caseId)).insertionSort fun a b =>
    nodeRank collation a ≤ nodeRank collation b).take maxNodes = nodes
  cases nodes with
  | nil => simp
  | cons node nodes =>
    rw [if_neg (by simp), List.mem_insertionSort, List.mem_filter]
    simp only [Bool.and_eq_true, decide_eq_true_eq, List.mem_map, and_assoc]

theorem sampled_iff {maxNodes : ℕ} :
    (readGraph collation db caseId noFilters maxNodes).sampled = true ↔
      ∃ row ∈ db.nodes.rows, row.caseId = caseId ∧
        ∀ node ∈ (readGraph collation db caseId noFilters maxNodes).nodes, node.nodeId ≠ row.nodeId := by
  have listed (row : Node) : row ∈ (db.nodes.rows.filter (noFilters.takes caseId)).insertionSort
      (fun a b => nodeRank collation a ≤ nodeRank collation b) ↔ row ∈ db.nodes.rows ∧ row.caseId = caseId := by
    rw [List.mem_insertionSort, List.mem_filter, takes_noFilters, decide_eq_true_eq]
  have size := List.length_insertionSort (fun a b => nodeRank collation a ≤ nodeRank collation b)
    (db.nodes.rows.filter (noFilters.takes caseId))
  have unique : (((db.nodes.rows.filter (noFilters.takes caseId)).insertionSort
      fun a b => nodeRank collation a ≤ nodeRank collation b).map Node.nodeId).Nodup :=
    (((List.perm_insertionSort _ _).map _).nodup_iff).mpr
      (db.nodes.unique.sublist ((List.filter_sublist).map _))
  simp only [readGraph, decide_eq_true_eq]
  rw [← size]
  generalize (db.nodes.rows.filter (noFilters.takes caseId)).insertionSort
    (fun a b => nodeRank collation a ≤ nodeRank collation b) = rows at listed unique
  constructor
  · intro fewer
    have left : rows.drop maxNodes ≠ [] := by
      intro none
      rw [List.length_take] at fewer
      have short := List.drop_eq_nil_iff.mp none
      omega
    obtain ⟨row, mem⟩ := List.exists_mem_of_ne_nil _ left
    obtain ⟨stored, ofCase⟩ := (listed row).mp (List.mem_of_mem_drop mem)
    refine ⟨row, stored, ofCase, fun node taken same => ?_⟩
    have split := unique
    rw [← List.take_append_drop maxNodes rows, List.map_append] at split
    exact (List.disjoint_of_nodup_append split) (List.mem_map_of_mem taken)
      (same ▸ List.mem_map_of_mem mem)
  · rintro ⟨row, stored, ofCase, absent⟩
    by_contra all
    have whole : rows.take maxNodes = rows :=
      List.take_of_length_le (by rw [List.length_take] at all; omega)
    refine absent row ?_ rfl
    rw [whole]
    exact (listed row).mpr ⟨stored, ofCase⟩

end

section
variable {κ : Type} [LinearOrder κ] {py : Python} {collation : Collation κ} {db db' : Dashboard}
  {caseId : String} {applied : List Event} {maxNodes : ℕ}

theorem nodesOf_concat {front : List Event} {e : Event} {c : Content} (content : contentOf py e = some c) :
    nodesOf py caseId (front ++ [e]) = nodesOf py caseId front ++ [(recordsOf py e caseId c 0).node] := by
  rw [nodesOf, nodesOf, List.filterMap_append]
  simp only [List.filterMap_cons, List.filterMap_nil, eventToRecords_eq py content, Option.map_some]

section
variable (holds : Holds py caseId applied db db') (clean : Clean db caseId)
include holds clean

theorem caseRow_of_holds (converted : ∀ e ∈ applied, (contentOf py e).isSome) :
    (db'.nodes.find (caseNodeId caseId)).map (fun row => row.eventTime) =
        (nodesOf py caseId applied).getLast?.map (fun row => row.eventTime) ∧
      ∀ row, db'.nodes.find (caseNodeId caseId) = some row → row.caseId = caseId := by
  rw [holds.caseRow clean.caseNode]
  rcases List.eq_nil_or_concat' applied with rfl | ⟨front, e, rfl⟩
  · refine ⟨rfl, fun row found => ?_⟩
    simp [lastCaseNode] at found
  · obtain ⟨c, content⟩ := Option.isSome_iff_exists.mp (converted e (by simp))
    rw [nodesOf_concat content, List.getLast?_concat, lastCaseNode, List.getLast?_concat, Option.bind_some,
      content, Option.map_some]
    refine ⟨?_, fun row same => ?_⟩
    · show some c.eventTime = _
      rfl
    · rw [← Option.some.inj same]
      rfl

theorem preceding_count {caseRow : Node} (found : db'.nodes.find (caseNodeId caseId) = some caseRow) :
    (db'.nodes.rows.filter (noFilters.takes caseId)).countP
        (fun row => nodeRank collation row < nodeRank collation caseRow) =
      (nodesOf py caseId applied).countP fun node => nodeRank collation node < nodeRank collation caseRow := by
  have others : (db'.nodes.rows.filter (noFilters.takes caseId)).filter (fun row => row.nodeId ≠ caseNodeId caseId) =
      (eventNodes db' caseId).filter fun row => row.caseId = caseId := by
    rw [eventNodes, List.filter_filter, List.filter_filter]
    exact List.filter_congr fun row _ => by rw [takes_noFilters, Bool.and_comm]
  have self : ((db'.nodes.rows.filter (noFilters.takes caseId)).filter
      fun row => !decide (row.nodeId ≠ caseNodeId caseId)).countP
        (fun row => nodeRank collation row < nodeRank collation caseRow) = 0 := by
    rw [List.countP_eq_zero]
    intro row mem
    obtain ⟨listed, isCase⟩ := List.mem_filter.mp mem
    have stored := db'.nodes.find_of_mem (List.mem_filter.mp listed).1
    have named : row.nodeId = caseNodeId caseId := by simpa using isCase
    rw [named, found] at stored
    cases stored
    rw [decide_eq_true_eq]
    exact lt_irrefl _
  have events : ((eventNodes db' caseId).filter fun row => row.caseId = caseId).map unversionedNode =
      nodesOf py caseId applied := by
    have mapped : ((eventNodes db' caseId).map unversionedNode).filter (fun row => row.caseId = caseId) =
        nodesOf py caseId applied := by
      rw [holds.nodes, List.filter_append, List.filter_eq_nil_iff.mpr, List.nil_append, List.filter_eq_self]
      · exact fun node mem => decide_eq_true (nodesOf_caseId py node mem)
      · intro node mem ofCase
        obtain ⟨row, listed, rfl⟩ := List.mem_map.mp mem
        exact clean.nodes row (List.mem_filter.mp listed).1 (of_decide_eq_true ofCase)
    rw [← mapped, List.filter_map]
    rfl
  rw [List.countP_eq_countP_filter_add _ _ fun row => decide (row.nodeId ≠ caseNodeId caseId), others, self,
    ← events, List.countP_map]
  rfl

theorem caseNode_iff (converted : ∀ e ∈ applied, (contentOf py e).isSome) :
    (∃ node ∈ (readGraph collation db' caseId noFilters maxNodes).nodes, node.nodeId = caseNodeId caseId) ↔
      Reaches py collation caseId applied maxNodes := by
  obtain ⟨times, ofCase⟩ := caseRow_of_holds holds clean converted
  constructor
  · rintro ⟨row, mem, isCase⟩
    obtain ⟨stored, taken⟩ := mem_nodes mem
    have found := db'.nodes.find_eq_some.mpr ⟨stored, isCase⟩
    rw [found, Option.map_some] at times
    obtain ⟨last, isLast, same⟩ := Option.map_eq_some_iff.mp times.symm
    refine ⟨last, isLast, ?_⟩
    rw [same, ← isCase]
    have few := (mem_take_insertionSort (ranks_distinct _) (List.mem_filter.mpr ⟨stored, taken⟩) _).mp mem
    rwa [preceding_count holds clean found] at few
  · rintro ⟨last, isLast, few⟩
    rw [isLast, Option.map_some] at times
    obtain ⟨row, found, same⟩ := Option.map_eq_some_iff.mp times
    obtain ⟨stored, isCase⟩ := db'.nodes.find_eq_some.mp found
    have taken : noFilters.takes caseId row = true := by
      rw [takes_noFilters]
      exact decide_eq_true (ofCase row found)
    refine ⟨row, (mem_take_insertionSort (ranks_distinct _) (List.mem_filter.mpr ⟨stored, taken⟩) _).mpr ?_,
      isCase⟩
    rw [preceding_count holds clean found]
    rwa [← same, ← isCase] at few

theorem belongs_of_caseNode (reached : ∃ node ∈ (readGraph collation db' caseId noFilters maxNodes).nodes,
      node.nodeId = caseNodeId caseId) {node : Node}
    (mem : node ∈ (readGraph collation db' caseId noFilters maxNodes).nodes)
    (other : node.nodeId ≠ caseNodeId caseId) :
    ∃ edge ∈ (readGraph collation db' caseId noFilters maxNodes).edges, edge.edgeType = "BELONGS_TO" ∧
      edge.sourceNodeId = node.nodeId ∧ edge.targetNodeId = caseNodeId caseId := by
  obtain ⟨stored, taken⟩ := mem_nodes mem
  rw [takes_noFilters, decide_eq_true_eq] at taken
  have ofEvent := (mem_eventNodes_of_holds py holds clean (unversionedNode node)).mp
    ⟨node, List.mem_filter.mpr ⟨stored, decide_eq_true other⟩, taken, rfl⟩
  obtain ⟨e, applied', c, content, same⟩ := (mem_parts py).mp ofEvent
  have edge : (recordsOf py e caseId c 0).edge ∈ edgesAt db' caseId :=
    (mem_edgesAt_of_holds py holds clean _).mpr ((mem_parts py).mpr ⟨e, applied', c, content, rfl⟩)
  obtain ⟨row, held, ofCase, equal⟩ := edge
  have source : row.sourceNodeId = node.nodeId :=
    (congrArg Edge.sourceNodeId equal).trans (congrArg Node.nodeId same)
  have target : row.targetNodeId = caseNodeId caseId := congrArg Edge.targetNodeId equal
  obtain ⟨caseRow, returned, isCase⟩ := reached
  exact ⟨row, mem_edges.mpr ⟨held, ofCase, ⟨node, mem, source.symm⟩, caseRow, returned, isCase.trans target.symm⟩,
    congrArg Edge.edgeType equal, source, target⟩

theorem connected_of_reaches (converted : ∀ e ∈ applied, (contentOf py e).isSome)
    (reaches : Reaches py collation caseId applied maxNodes) :
    Connected db' caseId (readGraph collation db' caseId noFilters maxNodes) where
  caseNode := (caseNode_iff holds clean converted).mpr reaches
  belongs _ := belongs_of_caseNode holds clean ((caseNode_iff holds clean converted).mpr reaches)
  closed _ mem := (mem_edges.mp mem).2.2
  sampled := sampled_iff

end

/-- Whatever was delivered, the graph of the case hangs together just when its
node comes early enough. -/
theorem connected_iff {events : List Event} {deliveries : List Delivery}
    (apart : CollisionFree py caseId events) (feed : Feed py db caseId events)
    (only : ∀ d ∈ deliveries, d.event ∈ events) (clean : Clean db caseId) :
    Connected (deliveries.foldl (deliver py) db) caseId
        (readGraph collation (deliveries.foldl (deliver py) db) caseId noFilters maxNodes) ↔
      Reaches py collation caseId (appliedBy py db caseId deliveries) maxNodes := by
  have holds := holds_appliedBy py apart feed only
  have converted (e : Event) (mem : e ∈ appliedBy py db caseId deliveries) : (contentOf py e).isSome := by
    obtain ⟨c, content, -⟩ := projectable_spec py ((mem_appliedBy py feed.distinct only e).mp mem).2
    exact Option.isSome_iff_exists.mpr ⟨c, content⟩
  exact ⟨fun connected => (caseNode_iff holds clean converted).mp connected.caseNode,
    connected_of_reaches holds clean converted⟩

end

/-! Two detections of one case, five minutes apart. -/

def laterPython : Python :=
  { samplePython with
    fromisoformat := fun s =>
      if s = "2024-05-01T10:00:00+00:00" then some 1714557600
      else if s = "2024-05-01T10:05:00+00:00" then some 1714557900
      else none }

def twoDetections : List Event :=
  [ sampleEvent "01HX3QK7Z0000000000000000A" "sensor-1" 1,
    { sampleEvent "01HX3QK7Z0000000000000000B" "sensor-1" 2 with eventTime := "2024-05-01T10:05:00+00:00" } ]

def byText : Collation String := ⟨id, Function.injective_id⟩

theorem two_apart : CollisionFree laterPython sampleCase twoDetections where
  ids := by
    have apart : ∀ e ∈ twoDetections, ∀ e' ∈ twoDetections,
        laterPython.digest e.eventId = laterPython.digest e'.eventId → e.eventId = e'.eventId := by decide
    rintro _ ⟨e, listed, rfl⟩ _ ⟨e', listed', rfl⟩ same
    exact apart e listed e' listed' same
  edges := by
    have apart : ∀ e ∈ twoDetections, ∀ e' ∈ twoDetections,
        laterPython.digest (edgeMaterial laterPython sampleCase e) =
          laterPython.digest (edgeMaterial laterPython sampleCase e') →
        edgeMaterial laterPython sampleCase e = edgeMaterial laterPython sampleCase e' := by decide
    rintro _ ⟨e, listed, rfl⟩ _ ⟨e', listed', rfl⟩ same
    exact apart e listed e' listed' same

theorem two_feed : Feed laterPython sampleDashboard sampleCase twoDetections where
  named := by decide
  ofCase := by decide
  distinct := by decide
  fresh := fun _ _ => ⟨rfl, rfl, fun _ stored => (nomatch stored), rfl, rfl⟩

theorem two_computed : (∀ e ∈ twoDetections, projectable laterPython sampleDashboard sampleCase e = true) ∧
    (nodesOf laterPython sampleCase twoDetections).getLast?.map (fun last =>
      (nodesOf laterPython sampleCase twoDetections).countP fun node =>
        nodeRank byText node < toLex (last.eventTime, byText.key (caseNodeId sampleCase))) = some 1 := by
  decide +kernel

theorem two_applied : appliedBy laterPython sampleDashboard sampleCase
    (twoDetections.map fun e => ⟨e, false⟩) = twoDetections :=
  appliedBy_map laterPython two_feed.distinct two_computed.1

theorem two_connected :
    let db := (twoDetections.map fun e => (⟨e, false⟩ : Delivery)).foldl (deliver laterPython) sampleDashboard
    Connected db sampleCase (readGraph byText db sampleCase noFilters 2) :=
  (connected_iff two_apart two_feed (by simp) clean_sample).mpr (by
    rw [two_applied]
    obtain ⟨last, isLast, one⟩ := Option.map_eq_some_iff.mp two_computed.2
    exact ⟨last, isLast, one.trans_lt Nat.one_lt_two⟩)

/-- With a limit of one node, the detection before the last event is returned,
and the case is not. -/
theorem case_left_out :
    let db := (twoDetections.map fun e => (⟨e, false⟩ : Delivery)).foldl (deliver laterPython) sampleDashboard
    ¬ Connected db sampleCase (readGraph byText db sampleCase noFilters 1) := by
  intro db connected
  have holds : Holds laterPython sampleCase
      (appliedBy laterPython sampleDashboard sampleCase (twoDetections.map fun e => ⟨e, false⟩))
      sampleDashboard db := holds_appliedBy laterPython two_apart two_feed (by simp)
  rw [two_applied] at holds
  have converted : ∀ e ∈ twoDetections, (contentOf laterPython e).isSome := by
    intro e mem
    obtain ⟨c, content, -⟩ := projectable_spec laterPython (two_computed.1 e mem)
    exact Option.isSome_iff_exists.mpr ⟨c, content⟩
  obtain ⟨last, isLast, few⟩ := (caseNode_iff holds clean_sample converted).mp connected.caseNode
  have one := two_computed.2
  rw [isLast, Option.map_some] at one
  exact absurd (Option.some.inj one ▸ few) (Nat.lt_irrefl 1)

end Mirage.GraphConnectivity
