import Mirage.PythonValues

/-! `event_to_records` of dashboard.py: the timeline item, the graph node and the graph
edge that one validated event becomes. Escaping, truncation and the bounds on display
metadata are as in the source. -/

namespace Mirage.DashboardRecords
open Json

structure Python where
  /-- `str(value)` of a value that is no text. -/
  str : Json → String
  upper : String → String
  lower : String → String
  title : String → String
  /-- `datetime.fromisoformat`, in UTC. -/
  fromisoformat : String → Option Int
  float : String → Option Json.Num
  /-- The first 32 hexadecimal digits of the SHA-256 of a text. -/
  digest : String → String

/-- An event as `validate_event` returns it, less what the projection does not read. -/
structure Event where
  eventId : String
  eventType : String
  eventTime : String
  caseId : Option String
  sessionId : Option String
  sourceId : String
  sequence : ℕ
  actorType : String
  classification : String
  payload : List (String × Json)

def Event.get (e : Event) (name : String) : Json := (member name e.payload).getD .null

def maxLabelLength : ℕ := 256

def maxDescriptionLength : ℕ := 2048

def outputTags : List String :=
  ["REAL_OS_OUTPUT", "DECOY_SERVICE_OUTPUT", "AI_GENERATED_INTERACTION", "ANALYST_MESSAGE",
    "UNTRUSTED_INTRUDER_OUTPUT"]

inductive NodeType where
  | case | session | host | user | process | file | directory | networkConnection | alert
  | detection | artifact | canaryToken | canaryCallback | aiSnapshot | aiProposal
  | policyDecision | sandboxAction | analystDirective | analystMessage | evidenceObject | export
  deriving DecidableEq

inductive Classification where
  | observedFact | deterministicCorrelation | aiInference | analystAction | systemAction
  deriving DecidableEq

section
variable (py : Python)

def str : Json → String
  | .str s => s
  | value => py.str value

def isSpace (c : Char) : Bool :=
  let n := c.toNat
  (9 ≤ n && n ≤ 13) || (28 ≤ n && n ≤ 32) || n = 0x85 || n = 0xA0 || n = 0x1680 ||
    (0x2000 ≤ n && n ≤ 0x200A) || n = 0x2028 || n = 0x2029 || n = 0x202F || n = 0x205F || n = 0x3000

def collapse (chars : List Char) : List Char :=
  [' '].intercalate ((chars.splitOnP isSpace).filter fun word => !word.isEmpty)

def escapeHtml : Char → List Char
  | '&' => "&amp;".toList
  | '<' => "&lt;".toList
  | '>' => "&gt;".toList
  | '"' => "&quot;".toList
  | '\'' => "&#x27;".toList
  | c => [c]

def safeDisplayText (value : Json) (limit : ℕ) : String :=
  let text := if value matches .null then [] else (str py value).toList
  let escaped := (collapse text).flatMap escapeHtml
  if escaped.length ≤ limit then String.ofList escaped
  else String.ofList (escaped.take (limit - 1) ++ ['…'])

def dictionary (items : List (String × Json)) : List (String × Json) :=
  items.foldl (fun members item => setMember item.1 item.2 members) []

mutual
def sanitiseDisplayMetadata (depth : ℕ) : Json → Json
  | .obj members =>
    if depth > 4 then .str "[TRUNCATED]"
    else .obj (dictionary (sanitiseMembers (depth + 1) members 50))
  | .arr items => if depth > 4 then .str "[TRUNCATED]" else .arr (sanitiseItems (depth + 1) items 50)
  | .str s => if depth > 4 then .str "[TRUNCATED]" else .str (safeDisplayText py (.str s) 1024)
  | value => if depth > 4 then .str "[TRUNCATED]" else value
def sanitiseItems (depth : ℕ) : List Json → ℕ → List Json
  | item :: rest, left + 1 => sanitiseDisplayMetadata depth item :: sanitiseItems depth rest left
  | _, _ => []
def sanitiseMembers (depth : ℕ) : List (String × Json) → ℕ → List (String × Json)
  | (name, value) :: rest, left + 1 =>
    (safeDisplayText py (.str name) 64, sanitiseDisplayMetadata depth value) ::
      sanitiseMembers depth rest left
  | _, _ => []
end

def separator : String := String.ofList [Char.ofNat 0x1F]

def stableId (kind : String) (parts : List String) : String :=
  kind ++ ":" ++ py.digest (separator.intercalate parts)

def classifyEvent (eventType actorType : String) : Classification :=
  let lowered := py.lower eventType
  let starts := fun (heads : List String) => heads.any fun head => head.toList.isPrefixOf lowered.toList
  if starts ["ai."] then .aiInference
  else if starts ["analyst."] || py.upper actorType = "ANALYST" then .analystAction
  else if starts ["detection.", "steering.", "fingerprint.", "policy."] then .deterministicCorrelation
  else if starts ["spider.", "agent.", "canary.", "evidence."] then .observedFact
  else .systemAction

def eventNodeType : String → NodeType
  | "case.created" | "case.state_changed" => .case
  | "detection.raised" => .detection
  | "spider.observation" => .process
  | "spider.fingerprint_snapshot" | "fingerprint.gate_evaluated" => .host
  | "evidence.created" | "evidence.verified" | "evidence.verification_failed" => .evidenceObject
  | "ai.snapshot" => .aiSnapshot
  | "ai.proposal" => .aiProposal
  | "policy.decision" => .policyDecision
  | "sandbox.command_result" => .sandboxAction
  | "artifact.scanned" | "artifact.deployed" => .artifact
  | "canary.callback" => .canaryCallback
  | "analyst.directive" => .analystDirective
  | "analyst.message" => .analystMessage
  | "evidence.exported" => .export
  | _ => .alert

def nodeTypeForEvent (e : Event) : NodeType :=
  if e.eventType = "spider.observation" then
    match py.upper (str py ((member "observation_type" e.payload).getD (.str ""))) with
    | "PROCESS" => .process
    | "FILE" => .file
    | "DIRECTORY" => .directory
    | "NETWORK" => .networkConnection
    | "AUTHENTICATION" => .user
    | _ => .host
  else eventNodeType e.eventType

def stringList : Json → List String
  | .arr items => ((items.filter fun item => !(item matches .null)).map (str py)).take 100
  | _ => []

def floatOverflow : ℕ := 2 ^ 1024 - 2 ^ 970

def toFloat : Json → Option Json.Num
  | .str s => py.float s
  | .int n => if n.natAbs < floatOverflow then some (.finite n) else none
  | value => number value

def clamp (n : Json.Num) : Json.Num :=
  let low := if n.lt (.finite 1) then n else .finite 1
  if (Json.Num.finite 0).lt low then low else .finite 0

def confidence : Json → Option (Option Json.Num)
  | .null => some none
  | value => (toFloat py value).map fun n => some (clamp n)

def outputTag (value : Json) : Option (Option String) :=
  match value with
  | .arr _ | .obj _ => none
  | .str s => some (if s ∈ outputTags then some s else none)
  | _ => some none

inductive SourceReference where
  | domainEvent (sourceId : String) (sourceSequence : ℕ) (eventId : String)
  | domainRow (sourceId : String)
  | case (sourceId : String)
  deriving DecidableEq

structure Columns where
  label : String
  caseId : String
  sessionId : Option String
  eventTime : Int
  sourceEventIds : List String
  sourceReferences : List SourceReference
  evidenceReferences : List String
  classification : Classification
  confidence : Option Json.Num
  outputTag : Option String
  displayMetadata : Json
  permissions : List String
  version : ℕ

structure TimelineItem extends Columns where
  itemId : String
  itemType : String
  description : String
  sourceEventId : String

structure Node extends Columns where
  nodeId : String
  nodeType : NodeType

structure Edge extends Columns where
  edgeId : String
  edgeType : String
  sourceNodeId : String
  targetNodeId : String

structure Records where
  timeline : TimelineItem
  node : Node
  edge : Edge

def caseNodeId (caseId : String) : String := "case:" ++ caseId

def nodeId (eventId : String) : String := stableId py "node" [eventId]

def itemId (eventId : String) : String := stableId py "timeline" [eventId]

def edgeId (source caseId : String) : String := stableId py "edge" [source, caseId, "BELONGS_TO"]

def orElse (a b : Json) : Json := if isTrue a then a else b

def labelValue (e : Event) : Json :=
  orElse (e.get "summary") (orElse (e.get "reason") (orElse (e.get "action_type")
    (orElse (e.get "objective")
      (.str (py.title (String.ofList (e.eventType.toList.map fun c => if c = '.' then ' ' else c)))))))

def evidenceRefs (e : Event) : List String :=
  stringList py (orElse (e.get "evidence_ids")
    (.arr (if isTrue (e.get "evidence_id") then [e.get "evidence_id"] else [])))

structure Content where
  label : String
  description : String
  eventTime : Int
  classification : Classification
  evidenceRefs : List String
  outputTag : Option String
  confidence : Option Json.Num
  sourceRef : SourceReference
  metadata : Json

def contentOf (e : Event) : Option Content := do
  let eventTime ← py.fromisoformat e.eventTime
  let outputTag ← outputTag (e.get "output_tag")
  let confidence ← confidence py (e.get "confidence")
  return {
    label := safeDisplayText py (labelValue py e) maxLabelLength
    description := safeDisplayText py ((member "description" e.payload).getD (labelValue py e))
      maxDescriptionLength
    eventTime
    classification := classifyEvent py e.eventType e.actorType
    evidenceRefs := evidenceRefs py e
    outputTag
    confidence
    sourceRef := .domainEvent (safeDisplayText py (.str e.sourceId) 256) e.sequence e.eventId
    metadata := sanitiseDisplayMetadata py 0 (.obj
      [("actor_type", .str e.actorType), ("classification", .str e.classification),
        ("correlation_id", e.get "correlation_id")]) }

def columnsOf (e : Event) (caseId : String) (c : Content) (label : String) (metadata : Json)
    (version : ℕ) : Columns where
  label
  caseId
  sessionId := e.sessionId
  eventTime := c.eventTime
  sourceEventIds := [e.eventId]
  sourceReferences := [c.sourceRef]
  evidenceReferences := c.evidenceRefs
  classification := c.classification
  confidence := c.confidence
  outputTag := c.outputTag
  displayMetadata := metadata
  permissions := ["dashboard:read"]
  version

def recordsOf (e : Event) (caseId : String) (c : Content) (version : ℕ) : Records where
  timeline :=
    { columnsOf e caseId c c.label c.metadata version with
      itemId := itemId py e.eventId
      itemType := e.eventType
      description := c.description
      sourceEventId := e.eventId }
  node :=
    { columnsOf e caseId c c.label
        (sanitiseDisplayMetadata py 0 (.obj [("event_type", .str e.eventType)])) version with
      nodeId := nodeId py e.eventId
      nodeType := nodeTypeForEvent py e }
  edge :=
    { columnsOf e caseId c "belongs to case" (.obj []) version with
      edgeId := edgeId py (nodeId py e.eventId) caseId
      edgeType := "BELONGS_TO"
      sourceNodeId := nodeId py e.eventId
      targetNodeId := caseNodeId caseId }

section
variable (e : Event) (caseId : String) (c : Content) (version : ℕ)

@[simp] theorem recordsOf_itemId :
    (recordsOf py e caseId c version).timeline.itemId = itemId py e.eventId := rfl

@[simp] theorem recordsOf_itemType :
    (recordsOf py e caseId c version).timeline.itemType = e.eventType := rfl

@[simp] theorem recordsOf_description :
    (recordsOf py e caseId c version).timeline.description = c.description := rfl

@[simp] theorem recordsOf_sourceEventId :
    (recordsOf py e caseId c version).timeline.sourceEventId = e.eventId := rfl

@[simp] theorem recordsOf_nodeId :
    (recordsOf py e caseId c version).node.nodeId = nodeId py e.eventId := rfl

@[simp] theorem recordsOf_edgeId :
    (recordsOf py e caseId c version).edge.edgeId = edgeId py (nodeId py e.eventId) caseId := rfl

@[simp] theorem recordsOf_sourceNodeId :
    (recordsOf py e caseId c version).edge.sourceNodeId = nodeId py e.eventId := rfl

@[simp] theorem recordsOf_targetNodeId :
    (recordsOf py e caseId c version).edge.targetNodeId = caseNodeId caseId := rfl

end

def eventToRecords (e : Event) (caseId : String) (version : ℕ) : Option Records :=
  (contentOf py e).map fun c => recordsOf py e caseId c version

end

end Mirage.DashboardRecords
