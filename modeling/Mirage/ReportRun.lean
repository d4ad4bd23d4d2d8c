import Mirage.ExportGeneration
import Mirage.DashboardRun

/-! Reports over runs. -/

namespace Mirage.ReportRun
open EvidenceAcquisition ExportEligibility ExportGeneration
open DashboardRecords (TimelineItem Python itemId recordsOf contentOf Event)
open DashboardProjection (Dashboard Delivery deliver offsetOf projectable projectLocked putTimeline)

/-- A row of `case_state_transitions`. -/
structure Transition where
  caseId : String
  toState : String
  reason : Option String
  time : Int
  deriving DecidableEq

/-- A row of `evidence_exports`, with the objects of the manifest once they are loaded. -/
structure Export where
  exportId : String
  caseId : String
  verificationStatus : String
  objects : Option (List EvidenceRow)

inductive Entry where
  | item (item : TimelineItem)
  | transition (t : Transition)

structure Content where
  evidenceManifestId : String
  evidenceManifest : List EvidenceRow
  sourceProjectionVersion : ℕ
  evidenceInventory : List EvidenceRow
  investigationTimeline : List Entry

/-- How far a report has come; the stages of GENERATING bear what has been read. -/
inductive Stage where
  | requested
  | queued
  | waitingForExport (exportId : String)
  | generating (exportId : String)
  | transitionsRead (exportId : String) (timeline : List Transition)
  | evidenceRead (exportId : String) (timeline : List Transition) (evidence : List EvidenceRow)
  | loaded (exportId : String) (timeline : List Transition) (evidence : List EvidenceRow)
      (dashboardTimeline : List TimelineItem)
  | completed (content : Content)
  | failed

def Stage.exportId : Stage → Option String
  | .waitingForExport x | .generating x | .transitionsRead x _ | .evidenceRead x _ _ | .loaded x _ _ _ => some x
  | _ => none

structure Report where
  reportId : String
  caseId : String
  exportMode : String
  selectedEvidenceIds : List String
  sourceProjectionVersion : ℕ
  stage : Stage

structure State where
  evidence : Evidence
  dashboard : Dashboard
  transitions : List Transition
  exports : KeyedTable Export.exportId
  reports : KeyedTable Report.reportId

inductive Action where
  | acquire (row : EvidenceRow)
  | verify (v : Verifier) (evidenceId : String)
  | projectEvent (d : Delivery)
  | transition (t : Transition)
  /-- `create_case_report` up to its INSERT; the version is that of the case's row. -/
  | request (reportId caseId exportMode : String) (selectedEvidenceIds : List String) (version : ℕ)
  /-- The end of the request's transaction. -/
  | settle (reportId : String) (committed : Bool)
  | createExport (exportId caseId : String)
  /-- `generate_export` up to its manifest, and from there to its commit. -/
  | loadExport (exportId : String) (v : Verifier)
  | signExport (exportId : String) (stored : Bool)
  /-- `process_next_report` up to its commit. -/
  | advance (reportId exportId : String)
  | readTransitions (reportId : String)
  | readEvidence (reportId : String)
  | readDashboardTimeline (reportId : String)
  | finish (reportId : String) (stored : Bool)

def itemsOf (db : Dashboard) (caseId : String) : List TimelineItem :=
  db.timeline.rows.filter fun item => item.caseId = caseId

def projectionVersion (db : Dashboard) (caseId : String) (version : ℕ) : ℕ :=
  ((db.summaries.find caseId).map DashboardProjection.Summary.projectionVersion).getD version

def State.setStage (s : State) (reportId : String) (stage : Stage) : State :=
  { s with reports := s.reports.update reportId (fun r => { r with stage }) fun _ => rfl }

def State.setExport (s : State) (exportId : String) (f : Export → Export)
    (keeps : ∀ x, (f x).exportId = x.exportId) : State :=
  { s with exports := s.exports.update exportId f keeps }

def evidenceIds (rows : List EvidenceRow) : List String := rows.map EvidenceRow.evidenceId

/-- The identifiers whose bytes `_selected_evidence_bytes` reads. -/
def included (exportMode : String) (selectedEvidenceIds : List String) (evidence : List EvidenceRow) :
    List String :=
  if exportMode = "METADATA_ONLY" then []
  else if exportMode = "COMPLETE_CASE" then evidenceIds evidence
  else selectedEvidenceIds

/-- The checks of `_selected_evidence_bytes` and `create_report_package`. -/
def packageable (exportMode : String) (selectedEvidenceIds : List String)
    (evidence manifest : List EvidenceRow) : Bool :=
  exportMode ∈ ["METADATA_ONLY", "SELECTED_EVIDENCE", "COMPLETE_CASE"] &&
    (included exportMode selectedEvidenceIds evidence).all (· ∈ evidenceIds evidence) &&
    (exportMode ≠ "COMPLETE_CASE" ||
      (evidenceIds manifest).all (· ∈ included exportMode selectedEvidenceIds evidence)) &&
    (included exportMode selectedEvidenceIds evidence).all (· ∈ evidenceIds manifest)

def timelineEntries (timeline : List Transition) : List TimelineItem → List Entry
  | [] => timeline.map .transition
  | item :: rest => (item :: rest).map .item

def request (s : State) (reportId caseId exportMode : String) (selectedEvidenceIds : List String)
    (version : ℕ) : State :=
  if caseId ∈ s.dashboard.cases then
    match s.reports.insert ⟨reportId, caseId, exportMode, selectedEvidenceIds,
        projectionVersion s.dashboard caseId version, .requested⟩ with
    | none => s
    | some reports => { s with reports }
  else s

def settle (s : State) (r : Report) (committed : Bool) : State :=
  match r.stage with
  | .requested => s.setStage r.reportId (if committed then .queued else .failed)
  | _ => s

def createExport (s : State) (exportId caseId : String) : State :=
  match s.exports.insert ⟨exportId, caseId, "PENDING", none⟩ with
  | none => s
  | some exports => { s with exports }

def loadExport (s : State) (x : Export) (v : Verifier) : State :=
  if x.verificationStatus = "PENDING" ∧ x.objects = none then
    match loadManifest v s.evidence x.caseId with
    | .error _ => s.setExport x.exportId (fun x => { x with verificationStatus := "FAILED" }) fun _ => rfl
    | .ok (evidence, rows) =>
      { s with evidence }.setExport x.exportId (fun x => { x with objects := some rows }) fun _ => rfl
  else s

def signExport (s : State) (x : Export) (stored : Bool) : State :=
  if x.verificationStatus = "PENDING" ∧ x.objects.isSome then
    s.setExport x.exportId
      (fun x => { x with verificationStatus := if stored then verified else "FAILED" }) fun _ => rfl
  else s

def advance (s : State) (r : Report) (exportId : String) : State :=
  match r.stage with
  | .queued =>
    match s.exports.insert ⟨exportId, r.caseId, "PENDING", none⟩ with
    | none => s
    | some exports => { s with exports }.setStage r.reportId (.waitingForExport exportId)
  | .waitingForExport x =>
    match s.exports.find x with
    | none => s.setStage r.reportId .failed
    | some row =>
      if row.verificationStatus = "FAILED" then s.setStage r.reportId .failed
      else if row.verificationStatus = verified then s.setStage r.reportId (.generating x)
      else s
  | _ => s

def readTransitions (s : State) (r : Report) : State :=
  match r.stage with
  | .generating x =>
    s.setStage r.reportId (.transitionsRead x (s.transitions.filter fun t => t.caseId = r.caseId))
  | _ => s

def readEvidence (s : State) (r : Report) : State :=
  match r.stage with
  | .transitionsRead x timeline =>
    s.setStage r.reportId (.evidenceRead x timeline (manifestEvidence s.evidence r.caseId))
  | _ => s

def readDashboardTimeline (s : State) (r : Report) : State :=
  match r.stage with
  | .evidenceRead x timeline evidence =>
    s.setStage r.reportId (.loaded x timeline evidence (itemsOf s.dashboard r.caseId))
  | _ => s

/-- The rest of `process_next_report`; it fails where the manifest is missing, the
package cannot be built or the writing does not succeed. -/
def finish (s : State) (r : Report) (stored : Bool) : State :=
  match r.stage with
  | .loaded x timeline evidence items =>
    match (s.exports.find x).bind Export.objects with
    | none => s.setStage r.reportId .failed
    | some manifest =>
      if packageable r.exportMode r.selectedEvidenceIds evidence manifest && stored then
        s.setStage r.reportId (.completed ⟨x, manifest, r.sourceProjectionVersion, evidence,
          timelineEntries timeline items⟩)
      else s.setStage r.reportId .failed
  | _ => s

def ofReport (s : State) (reportId : String) (f : Report → State) : State :=
  match s.reports.find reportId with
  | none => s
  | some r => f r

def ofExport (s : State) (exportId : String) (f : Export → State) : State :=
  match s.exports.find exportId with
  | none => s
  | some x => f x

section
variable (py : Python)

def step (s : State) : Action → State
  | .acquire row =>
    match s.evidence.rows.insert row with
    | none => s
    | some rows => { s with evidence := { s.evidence with rows } }
  | .verify v evidenceId =>
    match ExportEligibility.verify v s.evidence evidenceId with
    | .error _ => s
    | .ok (evidence, _) => { s with evidence }
  | .projectEvent d => { s with dashboard := deliver py s.dashboard d }
  | .transition t => { s with transitions := s.transitions ++ [t] }
  | .request reportId caseId exportMode selectedEvidenceIds version =>
    request s reportId caseId exportMode selectedEvidenceIds version
  | .settle reportId committed => ofReport s reportId fun r => settle s r committed
  | .createExport exportId caseId => createExport s exportId caseId
  | .loadExport exportId v => ofExport s exportId fun x => loadExport s x v
  | .signExport exportId stored => ofExport s exportId fun x => signExport s x stored
  | .advance reportId exportId => ofReport s reportId fun r => advance s r exportId
  | .readTransitions reportId => ofReport s reportId (readTransitions s)
  | .readEvidence reportId => ofReport s reportId (readEvidence s)
  | .readDashboardTimeline reportId => ofReport s reportId (readDashboardTimeline s)
  | .finish reportId stored => ofReport s reportId fun r => finish s r stored

/-! What a report says, and when nothing comes between its readings. -/

def digest (row : EvidenceRow) : String × String := (row.evidenceId, row.sha256)

structure Describes (s : State) (r : Report) (content : Content) : Prop where
  manifest : ∃ x, s.exports.find content.evidenceManifestId = some x ∧ x.caseId = r.caseId ∧
    x.verificationStatus = verified ∧ x.objects = some content.evidenceManifest
  version : content.sourceProjectionVersion = r.sourceProjectionVersion
  inventory : ∀ p, p ∈ content.evidenceInventory.map digest ↔ p ∈ content.evidenceManifest.map digest
  timeline : ∀ entry, entry ∈ content.investigationTimeline ↔
    ∃ item ∈ itemsOf s.dashboard r.caseId, item.version ≤ r.sourceProjectionVersion ∧ entry = .item item

def awaitsEvidence (s : State) (r : Report) : Prop :=
  match r.stage with
  | .waitingForExport x | .generating x | .transitionsRead x _ =>
    ((s.exports.find x).bind Export.objects).isSome = true
  | _ => False

def awaitsTimeline : Stage → Prop
  | .requested | .queued | .waitingForExport _ | .generating _ | .transitionsRead _ _ | .evidenceRead _ _ _ => True
  | _ => False

def holdsTimeline : Stage → Prop
  | .loaded _ _ _ _ => True
  | _ => False

structure Passes (db : Dashboard) (d : Delivery) (r : Report) : Prop where
  kept : ∀ item, db.timeline.find (itemId py d.event.eventId) = some item → item.caseId ≠ r.caseId
  unread : d.event.caseId = some r.caseId → awaitsTimeline r.stage →
    (offsetOf db r.caseId).projectionVersion + 1 ≤ r.sourceProjectionVersion
  shown : d.event.caseId = some r.caseId → holdsTimeline r.stage →
    r.sourceProjectionVersion < (offsetOf db r.caseId).projectionVersion + 1

def Undisturbed (s : State) : Action → Prop
  | .acquire row => isPackagePart row.evidenceType = false → ∀ r ∈ s.reports.rows, r.caseId = row.caseId →
      r.exportMode ≠ "COMPLETE_CASE" → ¬ awaitsEvidence s r
  | .projectEvent d => ∀ caseId, d.event.caseId = some caseId →
      s.dashboard.projected.find d.event.eventId = none →
      projectable py s.dashboard caseId d.event = true →
      ∀ r ∈ s.reports.rows, awaitsTimeline r.stage ∨ holdsTimeline r.stage → Passes py s.dashboard d r
  | .request _ caseId _ _ version => ∀ item ∈ itemsOf s.dashboard caseId,
      item.version ≤ projectionVersion s.dashboard caseId version
  | .readDashboardTimeline reportId => ∀ r, s.reports.find reportId = some r → ∀ x timeline evidence,
      r.stage = .evidenceRead x timeline evidence → itemsOf s.dashboard r.caseId ≠ [] ∨ timeline = []
  | _ => True

end

end Mirage.ReportRun
