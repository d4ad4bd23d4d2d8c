import Mirage.ReportRedaction
import Mathlib.Data.List.Sort
import Mathlib.Data.Prod.Lex

/-! `build_report_model` of reports.py: the rows of a case become the classified
statements of 27 sections. -/

namespace Mirage.ReportContent
open PythonText

structure Python extends ReportRedaction.Platform where
  int : Text → Option Int
  float : Text → Option Json.Num

abbrev Row := List (Text × Raw)

inductive Field where
  | sessions | timeline | evidence | gaps | directives | messages | ai | policy | graphNodes | sandboxes
  | sandboxActions | behaviour | artifacts | canaries | networkIndicators | observedCommands
  | routingDecisions | dashboardTimeline
  deriving DecidableEq

structure ReportData where
  case : Row
  rows : Field → List Row
  aiModel : Raw
  aiProvider : Raw

inductive Category where
  | observedFact | deterministicCorrelation | aiInference | analystNote
  deriving DecidableEq

structure Provenance where
  eventIds : List Text
  evidenceIds : List Text
  timelineIds : List Text
  sourceIdentity : Option Text
  sourceSequence : Option Int

structure ReportStatement where
  category : Category
  text : Text
  provenance : Provenance
  confidence : Option Json.Num
  contradictoryEventIds : List Text
  uncertainty : Option Text
  model : Option Text
  provider : Option Text

/-- `REPORT_SECTIONS`. -/
inductive Title where
  | coverPage | caseIdentity | executiveSummary | scopeAndControlledLabBoundary | caseLifecycle
  | sessionSummary | detectionAndCorrelation | steeringDecision | sandboxIdentityAndFingerprintResult
  | investigationTimeline | behaviourProfile | skillAssessment | observedCommandsAndTooling
  | networkIndicators | artifactActivity | canaryActivity | aiProposals | policyDecisions
  | sandboxActions | analystDirectives | analystDirectMessages | evidenceInventory
  | evidenceVerificationSummary | collectionGaps | limitations | integrityAndSigningInformation
  | independentVerificationInstructions
  deriving DecidableEq

def Title.text : Title → String
  | .coverPage => "Cover page"
  | .caseIdentity => "Case identity"
  | .executiveSummary => "Executive summary"
  | .scopeAndControlledLabBoundary => "Scope and controlled-lab boundary"
  | .caseLifecycle => "Case lifecycle"
  | .sessionSummary => "Session summary"
  | .detectionAndCorrelation => "Detection and correlation"
  | .steeringDecision => "Steering decision"
  | .sandboxIdentityAndFingerprintResult => "Sandbox identity and fingerprint result"
  | .investigationTimeline => "Investigation timeline"
  | .behaviourProfile => "Behaviour profile"
  | .skillAssessment => "Skill assessment"
  | .observedCommandsAndTooling => "Observed commands and tooling"
  | .networkIndicators => "Network indicators"
  | .artifactActivity => "Artifact activity"
  | .canaryActivity => "Canary activity"
  | .aiProposals => "AI proposals"
  | .policyDecisions => "Policy decisions"
  | .sandboxActions => "Sandbox actions"
  | .analystDirectives => "Analyst directives"
  | .analystDirectMessages => "Analyst direct messages"
  | .evidenceInventory => "Evidence inventory"
  | .evidenceVerificationSummary => "Evidence verification summary"
  | .collectionGaps => "Collection gaps"
  | .limitations => "Limitations"
  | .integrityAndSigningInformation => "Integrity and signing information"
  | .independentVerificationInstructions => "Independent verification instructions"

def reportSections : List Title :=
  [ .coverPage, .caseIdentity, .executiveSummary, .scopeAndControlledLabBoundary, .caseLifecycle,
    .sessionSummary, .detectionAndCorrelation, .steeringDecision, .sandboxIdentityAndFingerprintResult,
    .investigationTimeline, .behaviourProfile, .skillAssessment, .observedCommandsAndTooling,
    .networkIndicators, .artifactActivity, .canaryActivity, .aiProposals, .policyDecisions,
    .sandboxActions, .analystDirectives, .analystDirectMessages, .evidenceInventory,
    .evidenceVerificationSummary, .collectionGaps, .limitations, .integrityAndSigningInformation,
    .independentVerificationInstructions ]

structure ReportSection where
  title : Title
  statements : List ReportStatement

structure Arguments where
  reportId : Text
  exportId : Text
  createdBy : Text
  createdAt : Text
  buildHash : Text
  sourceProjectionVersion : Int
  evidenceManifestId : Text
  timezoneName : Text
  limitations : Option (List Text)

structure Metadata where
  templateVersion : Text
  reportSchemaVersion : Text
  generatorVersion : Text
  buildHash : Text
  reportId : Text
  creationActor : Text
  creationTime : Text
  sourceProjectionVersion : Int
  evidenceManifestId : Text
  exportId : Text
  timezone : Text

structure ReportModel where
  metadata : Metadata
  sections : List ReportSection

def Row.get (row : Row) (name : String) : Raw := (Raw.member (text name) row).getD .null

def orElse (a b : Raw) : Raw := if a.isTrue then a else b

def said (s : String) : Raw := .str (text s)

def isText (value : Raw) (s : String) : Bool :=
  match value with
  | .str t => t = text s
  | _ => false

section
variable (py : Python)

def shown (value : Raw) : Text := Raw.strOf py.printable value

def redacted (value : Raw) : Text := ReportRedaction.redactText py.toPlatform value 4096

def iso (value : Raw) : Text := redacted py value

def sortedIds (values : List Raw) : List Text := (values.map (shown py)).insertionSort (· ≤ ·)

def eventIdsOf (item : Row) : Raw :=
  let eventIds := orElse (item.get "event_ids") (item.get "source_event_ids")
  if eventIds.isTrue then eventIds
  else orElse (item.get "related_event_ids") (orElse (item.get "supporting_event_ids") (.arr []))

def evidenceIdsOf (item : Row) : Raw :=
  orElse (item.get "evidence_ids") (orElse (item.get "evidence_references") (.arr []))

def reference (item : Row) (defaultSource : String) : Except Raised Provenance := do
  let evidenceIds ← Raw.iterated (evidenceIdsOf item)
  let evidenceId := item.get "evidence_id"
  let evidenceIds := if evidenceId.isTrue then evidenceIds ++ [evidenceId] else evidenceIds
  let timelineId := orElse (item.get "timeline_id") (item.get "item_id")
  let eventIds ← Raw.iterated (eventIdsOf item)
  let sourceSequence ← match item.get "source_sequence" with
    | .null => pure none
    | sequence => (Raw.toInt py.int sequence).map some
  pure
    { eventIds := sortedIds py eventIds
      evidenceIds := sortedIds py evidenceIds
      timelineIds := if timelineId.isTrue then [shown py timelineId] else []
      sourceIdentity := some (shown py (orElse (item.get "source_id") (said defaultSource)))
      sourceSequence }

def statement (category : Category) (content : Text) (item : Row) (source : String) :
    Except Raised ReportStatement := do
  let provenance ← reference py item source
  pure ⟨category, redacted py (.str content), provenance, none, [], none, none, none⟩

def fact (content : Text) (item : Row) (source : String) : Except Raised ReportStatement :=
  statement py .observedFact content item source

def correlation (content : Text) (item : Row) (source : String) : Except Raised ReportStatement :=
  statement py .deterministicCorrelation content item source

def lower (s : String) : String := String.ofList (s.toList.map Char.toLower)

def empty (title : Title) : Except Raised ReportStatement :=
  correlation py (text ("No " ++ lower title.text ++
    " records were present in the selected source projection.")) [] "dashboard-read-model"

/-! The lists that go through `_rows`. -/

/-- The arguments of `_rows`, with the rows that it is given. -/
structure Listed where
  field : Field
  keep : Row → Bool
  source : String
  formatter : Row → Text
  category : Category

def format (parts : List Text) : Text := parts.flatten

def confidenceText (item : Row) : Raw :=
  match item.get "confidence" with
  | .null => said "not recorded"
  | confidence => confidence

/-- Which rows a section is made from; the investigation timeline falls back to
the transitions of the case. -/
def listed (timelineField : Field) : Title → Option Listed
  | .caseLifecycle => some
    { field := .timeline
      keep := fun _ => true
      source := "case-state-transitions"
      formatter := fun item => format
        [ iso py (item.get "at"), text ": ", shown py (orElse (item.get "from_state") (said "NONE")),
          text " → ", shown py (orElse (item.get "to_state") (said "UNKNOWN")), text "; actor ",
          shown py (orElse (item.get "actor") (said "unknown")), text "; reason ",
          shown py (orElse (item.get "reason") (said "not recorded")), text "." ]
      category := .observedFact }
  | .sessionSummary => some
    { field := .sessions
      keep := fun _ => true
      source := "sessions"
      formatter := fun item => format
        [ text "Session ", shown py (item.get "session_id"), text ": protocol ",
          shown py (item.get "protocol"), text "; status ", shown py (item.get "status"),
          text "; created ", iso py (item.get "created_at"), text "." ]
      category := .observedFact }
  | .detectionAndCorrelation => some
    { field := .graphNodes
      keep := fun item => isText (item.get "node_type") "DETECTION" || isText (item.get "node_type") "CORRELATION"
      source := "dashboard-graph"
      formatter := fun item => format
        [shown py (item.get "node_type"), text ": ", shown py (item.get "label")]
      category := .deterministicCorrelation }
  | .steeringDecision => some
    { field := .routingDecisions
      keep := fun _ => true
      source := "routing-decisions"
      formatter := fun item => format
        [ text "Decision ", shown py (orElse (item.get "decision_id") (item.get "id")), text ": ",
          shown py (item.get "protocol"), text " traffic target ", shown py (item.get "target"), text "." ]
      category := .deterministicCorrelation }
  | .sandboxIdentityAndFingerprintResult => some
    { field := .sandboxes
      keep := fun _ => true
      source := "sandbox-instances"
      formatter := fun item => format
        [ text "Sandbox ", shown py (item.get "sandbox_id"), text ": image ", shown py (item.get "image_id"),
          text "; state ", shown py (orElse (item.get "status") (item.get "state")), text "; fingerprint ",
          shown py (orElse (item.get "fingerprint_status") (said "not recorded")), text "." ]
      category := .observedFact }
  | .investigationTimeline => some
    { field := timelineField
      keep := fun _ => true
      source := "dashboard-timeline"
      formatter := fun item => format
        [ iso py (orElse (item.get "event_time") (item.get "at")), text ": ",
          shown py (orElse (item.get "label") (orElse (item.get "to_state") (said "timeline item"))),
          text " — ", shown py (orElse (item.get "description") (orElse (item.get "reason") (said ""))) ]
      category := .observedFact }
  | .behaviourProfile => some
    { field := .behaviour
      keep := fun _ => true
      source := "behaviour-profile"
      formatter := fun item => format
        [ shown py (orElse (item.get "dimension") (item.get "name")), text ": ",
          shown py (orElse (item.get "value") (item.get "label")), text "; confidence ",
          shown py (confidenceText item), text "." ]
      category := .deterministicCorrelation }
  | .skillAssessment => some
    { field := .behaviour
      keep := fun item => isText (item.get "dimension") "skill"
      source := "behaviour-profile"
      formatter := fun item => format
        [ text "Skill assessment ", shown py (orElse (item.get "value") (item.get "label")), text "; basis ",
          shown py (orElse (item.get "basis") (said "recorded behaviour features")), text "." ]
      category := .deterministicCorrelation }
  | .observedCommandsAndTooling => some
    { field := .observedCommands
      keep := fun _ => true
      source := "spider-observation"
      formatter := fun item => format
        [ text "Observed command/tool record: ",
          shown py (orElse (item.get "display") (orElse (item.get "command") (item.get "label"))), text "." ]
      category := .observedFact }
  | .networkIndicators => some
    { field := .networkIndicators
      keep := fun _ => true
      source := "network-observation"
      formatter := fun item => format
        [ text "Network indicator ", shown py (orElse (item.get "type") (said "unknown")), text ": ",
          shown py (orElse (item.get "value") (item.get "label")), text "." ]
      category := .observedFact }
  | .artifactActivity => some
    { field := .artifacts
      keep := fun _ => true
      source := "artifact-ledger"
      formatter := fun item => format
        [ text "Artifact ", shown py (item.get "artifact_id"), text ": scan ",
          shown py (item.get "scan_status"), text "; deployment ",
          shown py (orElse (item.get "deployment_status") (said "not deployed")), text "." ]
      category := .observedFact }
  | .canaryActivity => some
    { field := .canaries
      keep := fun _ => true
      source := "canary-callbacks"
      formatter := fun item => format
        [ text "Canary ", shown py (orElse (item.get "token_id") (item.get "canary_id")),
          text ": classification ", shown py (item.get "classification"), text "; callback ",
          iso py (orElse (item.get "callback_time") (item.get "created_at")), text "." ]
      category := .observedFact }
  | .policyDecisions => some
    { field := .policy
      keep := fun _ => true
      source := "policy-decisions"
      formatter := fun item => format
        [ text "Policy decision ", shown py (item.get "decision_id"), text ": ",
          shown py (item.get "decision"), text "; reason codes ",
          shown py (orElse (item.get "reason_codes") (.arr [])), text "." ]
      category := .deterministicCorrelation }
  | .sandboxActions => some
    { field := .sandboxActions
      keep := fun _ => true
      source := "sandbox-actions"
      formatter := fun item => format
        [ text "Action ", shown py (item.get "action_id"), text ": ", shown py (item.get "action_type"),
          text "; status ", shown py (item.get "status"), text "." ]
      category := .observedFact }
  | .analystDirectives => some
    { field := .directives
      keep := fun _ => true
      source := "analyst-directives"
      formatter := fun item => format
        [ text "Directive ", shown py (orElse (item.get "directive_id") (item.get "id")), text ": ",
          shown py (item.get "objective"), text "; status ", shown py (item.get "status"), text "." ]
      category := .observedFact }
  | .analystDirectMessages => some
    { field := .messages
      keep := fun _ => true
      source := "analyst-messages"
      formatter := fun item => format
        [ text "Message ", shown py (orElse (item.get "message_id") (item.get "id")), text " to ",
          shown py (item.get "surface"), text "; status ", shown py (item.get "status"),
          text "; output tag ", shown py (item.get "output_tag"), text "." ]
      category := .observedFact }
  | .evidenceInventory => some
    { field := .evidence
      keep := fun _ => true
      source := "evidence-ledger"
      formatter := fun item => format
        [ text "Evidence ", shown py (item.get "evidence_id"), text ": type ",
          shown py (item.get "evidence_type"), text "; SHA-256 ", shown py (item.get "sha256"),
          text "; verification ", shown py (item.get "verification_status"), text "." ]
      category := .observedFact }
  | .collectionGaps => some
    { field := .gaps
      keep := fun _ => true
      source := "evidence-collection-gaps"
      formatter := fun item => format
        [ text "Gap ", shown py (item.get "gap_id"), text ": ", shown py (item.get "reason"),
          text "; required ", shown py (item.get "required"), text "; resolution ",
          shown py (orElse (item.get "resolution") (said "unresolved")), text "." ]
      category := .observedFact }
  | _ => none

def rowKey (item : Row) : Text × Text :=
  (shown py (orElse (item.get "created_at") (orElse (item.get "event_time")
      (orElse (item.get "at") (said "")))),
    shown py (orElse (item.get "id") (orElse (item.get "item_id") (orElse (item.get "evidence_id")
      (orElse (item.get "action_id") (said ""))))))

/-- `sorted(values, key=…)`, where keys are pairs of texts. -/
def sortedBy {κ : Type} [LinearOrder κ] (key : Row → κ) (values : List Row) : List Row :=
  values.insertionSort fun a b => key a ≤ key b

def Listed.make (spec : Listed) (item : Row) : Except Raised ReportStatement :=
  statement py spec.category (spec.formatter item) item spec.source

def Listed.values (spec : Listed) (d : ReportData) : List Row := (d.rows spec.field).filter spec.keep

def rows (d : ReportData) (title : Title) (spec : Listed) : Except Raised (List ReportStatement) :=
  if (spec.values d).isEmpty then do pure [← empty py title]
  else (sortedBy (fun item => toLex (rowKey py item)) (spec.values d)).mapM (spec.make py)

def proposalKey (item : Row) : Text := shown py ((Raw.member (text "proposal_id") item).getD (said ""))

def floatOverflow : ℕ := 2 ^ 1024 - 2 ^ 970

def toFloat (value : Raw) : Except Raised Json.Num :=
  match value with
  | .str t => (py.float t).elim (.error .valueError) .ok
  | .int n => if n.natAbs < floatOverflow then .ok (.finite n) else .error .overflowError
  | value => (Raw.number value).elim (.error .typeError) .ok

def inference (d : ReportData) (item : Row) : Except Raised ReportStatement := do
  let provenance ← reference py item "ai-proposals"
  let confidence ← toFloat py (orElse (item.get "confidence") (.int 0))
  let contradictory ← Raw.iterated (orElse (item.get "contradictory_event_ids") (.arr []))
  pure
    { category := .aiInference
      text := redacted py (.str (format
        [ text "Proposal ", shown py (item.get "proposal_id"), text ": ", shown py (item.get "rationale"),
          text "; proposed action ", shown py (item.get "action_type"), text "." ]))
      provenance
      confidence := some confidence
      contradictoryEventIds := sortedIds py contradictory
      uncertainty := some (redacted py (orElse (item.get "uncertainty")
        (said "No explicit uncertainty statement was retained by the provider.")))
      model := some (redacted py (orElse (item.get "model") (orElse d.aiModel (said "not disclosed"))))
      provider := some (redacted py
        (orElse (item.get "provider") (orElse d.aiProvider (said "not disclosed")))) }

def proposals (d : ReportData) : Except Raised (List ReportStatement) :=
  if (d.rows .ai).isEmpty then do pure [← empty py .aiProposals]
  else (sortedBy (proposalKey py) (d.rows .ai)).mapM (inference py d)

/-! The sections that are made from no list, but may count its rows. -/

section
variable (args : Arguments) (d : ReportData)

def caseId : Text := redacted py (orElse (d.case.get "case_id") (said "unknown"))

def caseSource : Row :=
  [(text "source_id", said "cases"), (text "source_sequence", d.case.get "version")]

def caseField (name : String) (default : Raw) : Raw := (Raw.member (text name) d.case).getD default

def count (n : ℕ) : Text := text (toString n)

def number (n : Int) : Text := text (toString n)

def verified : ℕ := (d.rows .evidence).countP fun item => isText (item.get "verification_status") "VERIFIED"

def defaultLimitations : List Text :=
  [ text "This export is evidence-ready and is not itself a claim of court admissibility.",
    text "Timestamps and signatures inherit the trust level stated by the evidence manifest." ]

def limitationsOf : List Text :=
  match args.limitations with
  | none | some [] => defaultLimitations
  | some limitations => limitations

def unlisted : Title → Except Raised (List ReportStatement)
  | .coverPage => do pure [← fact py (format
      [text "Mirage controlled-lab case report for case ", caseId py d, text "."]) (caseSource d) "cases"]
  | .caseIdentity => do pure [← fact py (format
      [ text "Case ", caseId py d, text "; state ", shown py (caseField d "state" (said "UNKNOWN")),
        text "; severity ", shown py (caseField d "severity" (said "UNKNOWN")), text "; owner ",
        shown py (orElse (d.case.get "owner") (said "unassigned")), text "; version ",
        shown py (caseField d "version" (.int 0)), text "." ]) (caseSource d) "cases"]
  | .executiveSummary => do pure [← correlation py (format
      [ text "The selected projection contains ", count (d.rows .sessions).length, text " session(s), ",
        count (d.rows .timeline).length, text " timeline transition(s), and ",
        count (d.rows .evidence).length, text " evidence object(s)." ]) (caseSource d) "dashboard-read-model"]
  | .scopeAndControlledLabBoundary => do pure [← correlation py (text
      ("This report describes only activity recorded inside the authorised Mirage " ++
        "controlled-lab boundary; absence of a record is not proof of absence.")) [] "report-template"]
  | .aiProposals => proposals py d
  | .evidenceVerificationSummary => do pure [← correlation py (format
      [ count (verified d), text " of ", count (d.rows .evidence).length,
        text " evidence object(s) are VERIFIED in the ledger." ]) [] "evidence-ledger"]
  | .limitations =>
    (limitationsOf args).mapM fun limitation => correlation py limitation [] "report-generation-policy"
  | .integrityAndSigningInformation => do pure [← correlation py (format
      [ text "Report ", args.reportId, text " references export ", args.exportId,
        text ", evidence manifest ", args.evidenceManifestId, text ", build ", args.buildHash,
        text ", and projection version ", number args.sourceProjectionVersion, text "." ]) []
      "report-generator"]
  | .independentVerificationInstructions => do pure [← correlation py (text
      ("Run scripts/verify-report-package against the package and a separately " ++
        "obtained public key; inspect every reported mismatch before relying on it.")) [] "report-template"]
  | _ => pure []

def timelineField : Field := if (d.rows .dashboardTimeline).isEmpty then .timeline else .dashboardTimeline

def statements (title : Title) : Except Raised (List ReportStatement) :=
  match listed py (timelineField d) title with
  | some spec => rows py d title spec
  | none => unlisted py args d title

def metadata : Metadata where
  templateVersion := text "mirage-case-report/1.0"
  reportSchemaVersion := text "mirage.case-report/1.0"
  generatorVersion := text "0.1.0"
  buildHash := args.buildHash
  reportId := args.reportId
  creationActor := args.createdBy
  creationTime := args.createdAt
  sourceProjectionVersion := args.sourceProjectionVersion
  evidenceManifestId := args.evidenceManifestId
  exportId := args.exportId
  timezone := args.timezoneName

def hashable : Raw → Bool
  | .arr _ | .obj _ => false
  | _ => true

def buildReportModel : Except Raised ReportModel := do
  if (d.rows .graphNodes).all fun item => hashable (item.get "node_type") then
    let sections ← reportSections.mapM fun title => do pure ⟨title, ← statements py args d title⟩
    pure ⟨metadata args, sections⟩
  else .error .typeError

end
end

end Mirage.ReportContent
