import Mirage.PythonValues
import Mathlib

/-! `filterGraph` and `sampleGraph` of the dashboard's graph.ts. Both choose nodes and
then keep the edges between them, except that a graph with few enough nodes is returned as
it is. -/

namespace Mirage.GraphSampling

inductive NodeType where
  | case | session | host | user | process | file | directory | ipAddress | networkConnection | alert
  | detection | artifact | canaryToken | canaryCallback | aiSnapshot | aiProposal | policyDecision
  | sandboxAction | analystDirective | analystMessage | evidenceObject | export | certificate | agent
  deriving DecidableEq

def NodeType.text : NodeType → String
  | .case => "CASE"
  | .session => "SESSION"
  | .host => "HOST"
  | .user => "USER"
  | .process => "PROCESS"
  | .file => "FILE"
  | .directory => "DIRECTORY"
  | .ipAddress => "IP_ADDRESS"
  | .networkConnection => "NETWORK_CONNECTION"
  | .alert => "ALERT"
  | .detection => "DETECTION"
  | .artifact => "ARTIFACT"
  | .canaryToken => "CANARY_TOKEN"
  | .canaryCallback => "CANARY_CALLBACK"
  | .aiSnapshot => "AI_SNAPSHOT"
  | .aiProposal => "AI_PROPOSAL"
  | .policyDecision => "POLICY_DECISION"
  | .sandboxAction => "SANDBOX_ACTION"
  | .analystDirective => "ANALYST_DIRECTIVE"
  | .analystMessage => "ANALYST_MESSAGE"
  | .evidenceObject => "EVIDENCE_OBJECT"
  | .export => "EXPORT"
  | .certificate => "CERTIFICATE"
  | .agent => "AGENT"

structure GraphNode where
  nodeId : String
  nodeType : NodeType
  sessionId : Option String
  eventTime : String
  evidenceReferences : List String
  classification : String
  confidence : Option Json.Num
  outputTag : Option String

structure GraphEdge where
  edgeId : String
  sourceNodeId : String
  targetNodeId : String

structure CanonicalGraph where
  nodes : List GraphNode
  edges : List GraphEdge
  sampled : Bool
  totalNodes : ℕ
  totalEdges : ℕ

structure GraphFilters where
  sessionId : Option String
  nodeTypes : Option (List String)
  minimumConfidence : Option Json.Num
  evidenceOnly : Bool
  classifications : Option (List String)
  outputTags : Option (List String)
  fromTime : Option Json.Num
  toTime : Option Json.Num

/-- What `localeCompare` gives on two texts. -/
structure Collation where
  localeCompare : String → String → Ordering
  swap : ∀ a b, localeCompare b a = (localeCompare a b).swap
  trans : ∀ a b c, localeCompare a b ≠ .gt → localeCompare b c ≠ .gt → localeCompare a c ≠ .gt

def truthy (text : Option String) : Bool := text.any fun t => t ≠ ""

def chosen (set : Option (List String)) (value : String) : Bool :=
  match set with
  | none | some [] => true
  | some values => value ∈ values

def chosenTag (set : Option (List String)) (tag : Option String) : Bool :=
  match set with
  | none | some [] => true
  | some values => truthy tag && tag.any (· ∈ values)

def admits (parseDate : String → Json.Num) (filters : GraphFilters) (node : GraphNode) : Bool :=
  let time := parseDate node.eventTime
  (!truthy filters.sessionId || !truthy node.sessionId || node.sessionId = filters.sessionId) &&
    chosen filters.nodeTypes node.nodeType.text &&
    filters.minimumConfidence.all (fun minimum => minimum.le (node.confidence.getD (.finite 1))) &&
    (!filters.evidenceOnly || !node.evidenceReferences.isEmpty) &&
    chosen filters.classifications node.classification &&
    chosenTag filters.outputTags node.outputTag &&
    filters.fromTime.all (fun start => start.le time) &&
    filters.toTime.all fun stop => time.le stop

def hasNode (nodes : List GraphNode) (id : String) : Bool := nodes.any fun node => node.nodeId = id

def edgesAmong (nodes : List GraphNode) (edges : List GraphEdge) : List GraphEdge :=
  edges.filter fun edge => hasNode nodes edge.sourceNodeId && hasNode nodes edge.targetNodeId

def filterGraph (parseDate : String → Json.Num) (graph : CanonicalGraph) (filters : GraphFilters) :
    CanonicalGraph :=
  let nodes := graph.nodes.filter (admits parseDate filters)
  { graph with nodes, edges := edgesAmong nodes graph.edges }

def slice {α : Type} (xs : List α) : Json.Num → List α
  | .posInf => xs
  | .finite q => if q < 0 then xs.take (xs.length - ⌈q⌉.natAbs) else xs.take ⌊q⌋₊
  | .nan | .negInf => []

def isMandatory (node : GraphNode) : Bool := node.nodeType ∈ [.case, .evidenceObject, .alert]

def notAfter (collation : Collation) (a b : GraphNode) : Prop :=
  collation.localeCompare a.nodeId b.nodeId ≠ .gt

instance (collation : Collation) : DecidableRel (notAfter collation) := fun a b =>
  inferInstanceAs (Decidable (collation.localeCompare a.nodeId b.nodeId ≠ .gt))

def ordered (collation : Collation) (nodes : List GraphNode) : List GraphNode :=
  nodes.insertionSort (notAfter collation)

def ranked (nodes : List GraphNode) : List GraphNode :=
  let mandatory := nodes.filter isMandatory
  mandatory ++ nodes.filter fun node => !hasNode mandatory node.nodeId

def sampleNodes (collation : Collation) (nodes : List GraphNode) (maximum : Json.Num) : List GraphNode :=
  slice (ranked (ordered collation nodes)) maximum

def sampleGraph (collation : Collation) (graph : CanonicalGraph) (maximum : Json.Num) : CanonicalGraph :=
  if (Json.Num.finite graph.nodes.length).le maximum then graph
  else
    let nodes := sampleNodes collation graph.nodes maximum
    { graph with nodes, edges := edgesAmong nodes graph.edges, sampled := true }

/-! What the operations keep to. -/

def Induced (graph result : CanonicalGraph) : Prop :=
  ∀ edge, edge ∈ result.edges ↔ edge ∈ graph.edges ∧
    (∃ node ∈ result.nodes, node.nodeId = edge.sourceNodeId) ∧
      ∃ node ∈ result.nodes, node.nodeId = edge.targetNodeId

structure FilterLaws (parseDate : String → Json.Num) (graph : CanonicalGraph) (f g : GraphFilters) : Prop where
  induced : Induced graph (filterGraph parseDate graph f)
  idempotent : filterGraph parseDate (filterGraph parseDate graph f) f = filterGraph parseDate graph f
  commutes : filterGraph parseDate (filterGraph parseDate graph f) g =
    filterGraph parseDate (filterGraph parseDate graph g) f

structure SampleLaws (collation : Collation) (graph : CanonicalGraph) (maximum : Json.Num) : Prop where
  bounded : (Json.Num.finite (sampleGraph collation graph maximum).nodes.length).le maximum = true
  mandatory : (Json.Num.finite (graph.nodes.countP isMandatory)).le maximum = true →
    ∀ node ∈ graph.nodes, isMandatory node = true → node ∈ (sampleGraph collation graph maximum).nodes
  idempotent : sampleGraph collation (sampleGraph collation graph maximum) maximum =
    sampleGraph collation graph maximum

def OrderFree (collation : Collation) (graph : CanonicalGraph) (maximum : Json.Num) : Prop :=
  ∀ nodes, nodes.Perm graph.nodes → ∀ node,
    node ∈ (sampleGraph collation { graph with nodes } maximum).nodes ↔
      node ∈ (sampleGraph collation graph maximum).nodes

def Closed (graph : CanonicalGraph) : Prop :=
  ∀ edge ∈ graph.edges, hasNode graph.nodes edge.sourceNodeId = true ∧
    hasNode graph.nodes edge.targetNodeId = true

def Apart (collation : Collation) (graph : CanonicalGraph) : Prop :=
  ∀ a ∈ graph.nodes, ∀ b ∈ graph.nodes, collation.localeCompare a.nodeId b.nodeId = .eq → a.nodeId = b.nodeId

theorem hasNode_iff {nodes : List GraphNode} {id : String} :
    hasNode nodes id = true ↔ ∃ node ∈ nodes, node.nodeId = id := by
  simp [hasNode]

theorem mem_edgesAmong {nodes : List GraphNode} {edges : List GraphEdge} {edge : GraphEdge} :
    edge ∈ edgesAmong nodes edges ↔ edge ∈ edges ∧
      (∃ node ∈ nodes, node.nodeId = edge.sourceNodeId) ∧ ∃ node ∈ nodes, node.nodeId = edge.targetNodeId := by
  rw [edgesAmong, List.mem_filter, Bool.and_eq_true, hasNode_iff, hasNode_iff]

theorem edgesAmong_edgesAmong {fewer nodes : List GraphNode} (subset : fewer ⊆ nodes)
    (edges : List GraphEdge) : edgesAmong fewer (edgesAmong nodes edges) = edgesAmong fewer edges := by
  rw [edgesAmong, edgesAmong, edgesAmong, List.filter_filter]
  refine List.filter_congr fun edge _ => ?_
  have wider (id : String) : hasNode fewer id = true → hasNode nodes id = true := by
    rw [hasNode_iff, hasNode_iff]
    rintro ⟨node, mem, same⟩
    exact ⟨node, subset mem, same⟩
  rw [Bool.eq_iff_iff]
  simp only [Bool.and_eq_true]
  exact ⟨And.left, fun both => ⟨both, wider _ both.1, wider _ both.2⟩⟩

theorem filter_laws (parseDate : String → Json.Num) (graph : CanonicalGraph) (f g : GraphFilters) :
    FilterLaws parseDate graph f g := by
  have twice (f g : GraphFilters) : filterGraph parseDate (filterGraph parseDate graph f) g =
      { graph with
        nodes := graph.nodes.filter fun node => admits parseDate g node && admits parseDate f node
        edges := edgesAmong (graph.nodes.filter fun node => admits parseDate g node && admits parseDate f node)
          graph.edges } := by
    simp only [filterGraph, List.filter_filter, CanonicalGraph.mk.injEq, true_and, and_true]
    refine edgesAmong_edgesAmong (fun node mem => ?_) graph.edges
    simp only [List.mem_filter, Bool.and_eq_true] at mem ⊢
    exact ⟨mem.1, mem.2.2⟩
  refine ⟨fun edge => mem_edgesAmong, ?_, ?_⟩
  · rw [twice]
    simp only [Bool.and_self]
    rfl
  · rw [twice, twice]
    simp only [Bool.and_comm]

section
variable (collation : Collation)

instance : Std.Total (notAfter collation) where
  total a b := by
    unfold notAfter
    rw [collation.swap a.nodeId b.nodeId]
    cases collation.localeCompare a.nodeId b.nodeId <;> simp

instance : IsTrans GraphNode (notAfter collation) where
  trans a b c := collation.trans a.nodeId b.nodeId c.nodeId

theorem ordered_perm (nodes : List GraphNode) : (ordered collation nodes).Perm nodes :=
  List.perm_insertionSort (notAfter collation) nodes

end

section
variable {collation : Collation}

theorem eq_of_notAfter {a b : GraphNode} (first : notAfter collation a b) (second : notAfter collation b a) :
    collation.localeCompare a.nodeId b.nodeId = .eq := by
  unfold notAfter at first second
  rw [collation.swap a.nodeId b.nodeId] at second
  cases compared : collation.localeCompare a.nodeId b.nodeId with
  | lt =>
    rw [compared] at second
    exact absurd rfl second
  | eq => rfl
  | gt => exact absurd compared first

theorem ordered_congr {nodes nodes' : List GraphNode} (perm : nodes'.Perm nodes)
    (distinct : (nodes.map (·.nodeId)).Nodup)
    (apart : ∀ a ∈ nodes, ∀ b ∈ nodes,
      collation.localeCompare a.nodeId b.nodeId = .eq → a.nodeId = b.nodeId) :
    ordered collation nodes' = ordered collation nodes := by
  have antisymm : ∀ a b, a ∈ ordered collation nodes' → b ∈ ordered collation nodes →
      notAfter collation a b → notAfter collation b a → a = b := by
    intro a b memA memB first second
    have memA' : a ∈ nodes := perm.mem_iff.mp ((ordered_perm collation nodes').mem_iff.mp memA)
    have memB' : b ∈ nodes := (ordered_perm collation nodes).mem_iff.mp memB
    exact List.inj_on_of_nodup_map distinct memA' memB'
      (apart a memA' b memB' (eq_of_notAfter first second))
  exact List.Perm.eq_of_pairwise antisymm (List.pairwise_insertionSort _ nodes')
    (List.pairwise_insertionSort _ nodes)
    (((ordered_perm collation nodes').trans perm).trans (ordered_perm collation nodes).symm)

theorem nonnegative_cases {maximum : Json.Num} (nonneg : (Json.Num.finite 0).le maximum = true) :
    maximum = .posInf ∨ ∃ q : ℚ, 0 ≤ q ∧ maximum = .finite q := by
  cases maximum with
  | nan => cases nonneg
  | negInf => cases nonneg
  | finite q => exact .inr ⟨q, of_decide_eq_true nonneg, rfl⟩
  | posInf => exact .inl rfl

theorem slice_finite {α : Type} (xs : List α) {q : ℚ} (nonneg : 0 ≤ q) :
    slice xs (.finite q) = xs.take ⌊q⌋₊ := by
  rw [slice, if_neg (not_lt.mpr nonneg)]

theorem le_finite (n : ℕ) (q : ℚ) : (Json.Num.finite n).le (.finite q) = true ↔ (n : ℚ) ≤ q := by
  simp [Json.Num.le]

theorem slice_bounded {α : Type} (xs : List α) {maximum : Json.Num}
    (nonneg : (Json.Num.finite 0).le maximum = true) :
    (Json.Num.finite (slice xs maximum).length).le maximum = true := by
  rcases nonnegative_cases nonneg with rfl | ⟨q, nonneg', rfl⟩
  · rfl
  · rw [slice_finite xs nonneg', le_finite, List.length_take]
    have short : min ⌊q⌋₊ xs.length ≤ ⌊q⌋₊ := min_le_left _ _
    calc ((min ⌊q⌋₊ xs.length : ℕ) : ℚ) ≤ (⌊q⌋₊ : ℚ) := by exact_mod_cast short
      _ ≤ q := Nat.floor_le nonneg'

theorem mem_slice_append {α : Type} {xs ys : List α} {maximum : Json.Num}
    (fits : (Json.Num.finite xs.length).le maximum = true) {a : α} (mem : a ∈ xs) :
    a ∈ slice (xs ++ ys) maximum := by
  cases maximum with
  | nan => cases fits
  | negInf => cases fits
  | posInf => exact List.mem_append_left ys mem
  | finite q =>
    rw [le_finite] at fits
    have nonneg : 0 ≤ q := le_trans (Nat.cast_nonneg _) fits
    rw [slice_finite _ nonneg, List.take_append]
    refine List.mem_append_left _ ?_
    rw [List.take_of_length_le (Nat.le_floor fits)]
    exact mem

theorem sample_few {graph : CanonicalGraph} {maximum : Json.Num}
    (few : (Json.Num.finite graph.nodes.length).le maximum = true) :
    sampleGraph collation graph maximum = graph := if_pos few

theorem sample_many {graph : CanonicalGraph} {maximum : Json.Num}
    (many : (Json.Num.finite graph.nodes.length).le maximum = false) :
    sampleGraph collation graph maximum =
      { graph with
        nodes := sampleNodes collation graph.nodes maximum
        edges := edgesAmong (sampleNodes collation graph.nodes maximum) graph.edges
        sampled := true } := by
  rw [sampleGraph, many, if_neg Bool.false_ne_true]

theorem sample_bounded (graph : CanonicalGraph) {maximum : Json.Num}
    (nonneg : (Json.Num.finite 0).le maximum = true) :
    (Json.Num.finite (sampleGraph collation graph maximum).nodes.length).le maximum = true := by
  cases size : (Json.Num.finite graph.nodes.length).le maximum with
  | true => rw [sample_few size, size]
  | false =>
    rw [sample_many size]
    exact slice_bounded _ nonneg

theorem sample_mandatory {graph : CanonicalGraph} {maximum : Json.Num}
    (fits : (Json.Num.finite (graph.nodes.countP isMandatory)).le maximum = true) {node : GraphNode}
    (mem : node ∈ graph.nodes) (mandatory : isMandatory node = true) :
    node ∈ (sampleGraph collation graph maximum).nodes := by
  cases size : (Json.Num.finite graph.nodes.length).le maximum with
  | true =>
    rw [sample_few size]
    exact mem
  | false =>
    rw [sample_many size]
    refine mem_slice_append ?_ (List.mem_filter.mpr
      ⟨(ordered_perm collation graph.nodes).mem_iff.mpr mem, mandatory⟩)
    rw [← List.countP_eq_length_filter, (ordered_perm collation graph.nodes).countP_eq]
    exact fits

theorem sample_induced {graph : CanonicalGraph} {maximum : Json.Num}
    (fit : (Json.Num.finite graph.nodes.length).le maximum = false ∨ Closed graph) :
    Induced graph (sampleGraph collation graph maximum) := by
  cases size : (Json.Num.finite graph.nodes.length).le maximum with
  | true =>
    rcases fit with many | closed
    · rw [size] at many
      cases many
    · rw [sample_few size]
      refine fun edge => ⟨fun mem => ?_, And.left⟩
      obtain ⟨source, target⟩ := closed edge mem
      exact ⟨mem, hasNode_iff.mp source, hasNode_iff.mp target⟩
  | false =>
    rw [sample_many size]
    exact fun edge => mem_edgesAmong

theorem sample_orderFree {graph : CanonicalGraph} {maximum : Json.Num}
    (distinct : (graph.nodes.map (·.nodeId)).Nodup) (apart : Apart collation graph) :
    OrderFree collation graph maximum := by
  intro nodes perm node
  cases size : (Json.Num.finite graph.nodes.length).le maximum with
  | true =>
    rw [sample_few size, sample_few (by rw [← size]; simp only [perm.length_eq])]
    exact perm.mem_iff
  | false =>
    rw [sample_many size, sample_many (by rw [← size]; simp only [perm.length_eq])]
    simp only [sampleNodes, ordered_congr perm distinct apart]

end

/-- `filterGraph` and `sampleGraph` on a graph with distinct ids. The edges of a
sample are the induced ones where it is cut, or where the graph's edges join its
nodes; its nodes do not depend on their order where `localeCompare` tells their
ids apart. -/
theorem graph_operations (parseDate : String → Json.Num) (collation : Collation) (graph : CanonicalGraph)
    (distinct : (graph.nodes.map (·.nodeId)).Nodup) (f g : GraphFilters) (maximum : Json.Num)
    (nonneg : (Json.Num.finite 0).le maximum = true) :
    FilterLaws parseDate graph f g ∧ SampleLaws collation graph maximum ∧
      ((Json.Num.finite graph.nodes.length).le maximum = false ∨ Closed graph →
        Induced graph (sampleGraph collation graph maximum)) ∧
      (Apart collation graph → OrderFree collation graph maximum) := by
  refine ⟨filter_laws parseDate graph f g, ⟨sample_bounded graph nonneg, ?_, ?_⟩, sample_induced,
    sample_orderFree distinct⟩
  · exact fun fits node mem mandatory => sample_mandatory fits mem mandatory
  · exact sample_few (sample_bounded graph nonneg)

def visible (text : String) : String := String.ofList (text.toList.filter fun c => 32 ≤ c.toNat)

def sampleCollation : Collation where
  localeCompare a b := cmp (visible a) (visible b)
  swap a b := (cmp_swap (visible a) (visible b)).symm
  trans a b c := by
    simp only [ne_eq, cmp_eq_gt_iff, not_lt]
    exact le_trans

def sampleNode (nodeId : String) : GraphNode :=
  ⟨nodeId, .process, none, "2026-07-26T10:00:00Z", [], "OBSERVED_FACT", none, none⟩

def danglingGraph : CanonicalGraph :=
  ⟨[sampleNode "process:1"], [⟨"edge:1", "process:1", "process:2"⟩], false, 1, 1⟩

def twinGraph : CanonicalGraph :=
  ⟨[sampleNode "process:1", sampleNode "process:1\u0001"], [], false, 2, 0⟩

def sampleFilters : GraphFilters := ⟨none, none, none, true, none, none, none, none⟩

/-- The laws of a graph with an edge that leads out of it. -/
theorem graph_operations_sample :
    FilterLaws (fun _ => .nan) danglingGraph sampleFilters sampleFilters ∧
      SampleLaws sampleCollation danglingGraph (.finite 0) ∧
      ((Json.Num.finite danglingGraph.nodes.length).le (.finite 0) = false ∨ Closed danglingGraph →
        Induced danglingGraph (sampleGraph sampleCollation danglingGraph (.finite 0))) ∧
      (Apart sampleCollation danglingGraph → OrderFree sampleCollation danglingGraph (.finite 0)) :=
  graph_operations (fun _ => .nan) sampleCollation danglingGraph (by decide) sampleFilters sampleFilters
    (.finite 0) rfl

theorem ascii_of_all {graph : CanonicalGraph}
    (all : (graph.nodes.all fun node => node.nodeId.toList.all fun c => c.toNat < 128) = true) :
    ∀ node ∈ graph.nodes, ∀ c ∈ node.nodeId.toList, c.toNat < 128 := by
  simpa only [List.all_eq_true, decide_eq_true_eq] using all

/-- A small graph keeps an edge that leads out of it, and where two ids compare
equal the first of the two nodes is kept. -/
theorem sample_unruly :
    (¬ ∀ (collation : Collation) (graph : CanonicalGraph) (maximum : Json.Num),
      (graph.nodes.map (·.nodeId)).Nodup → (∀ node ∈ graph.nodes, ∀ c ∈ node.nodeId.toList, c.toNat < 128) →
        (Json.Num.finite 0).le maximum = true → Induced graph (sampleGraph collation graph maximum)) ∧
    ¬ ∀ (collation : Collation) (graph : CanonicalGraph) (maximum : Json.Num),
      (graph.nodes.map (·.nodeId)).Nodup → (∀ node ∈ graph.nodes, ∀ c ∈ node.nodeId.toList, c.toNat < 128) →
        (Json.Num.finite 0).le maximum = true → OrderFree collation graph maximum := by
  constructor
  · intro always
    have induced := always sampleCollation danglingGraph (.finite 1) (by decide) (ascii_of_all (by decide)) rfl
    have kept : (⟨"edge:1", "process:1", "process:2"⟩ : GraphEdge) ∈
        (sampleGraph sampleCollation danglingGraph (.finite 1)).edges := by
      rw [sample_few rfl]
      exact List.mem_cons_self
    obtain ⟨-, -, node, mem, target⟩ := (induced _).mp kept
    rw [sample_few rfl] at mem
    cases List.mem_singleton.mp mem
    exact absurd target (by decide)
  · intro always
    have orderFree := always sampleCollation twinGraph (.finite 1) (by decide) (ascii_of_all (by decide)) rfl
    have same := orderFree twinGraph.nodes.reverse (List.reverse_perm _) (sampleNode "process:1")
    have nodes : (sampleGraph sampleCollation twinGraph (.finite 1)).nodes = [sampleNode "process:1"] := rfl
    have nodes' : (sampleGraph sampleCollation { twinGraph with nodes := twinGraph.nodes.reverse }
      (.finite 1)).nodes = [sampleNode "process:1\u0001"] := rfl
    rw [nodes, nodes'] at same
    have other := List.mem_singleton.mp (same.mpr List.mem_cons_self)
    exact absurd (congrArg GraphNode.nodeId other) (by decide)

end Mirage.GraphSampling
