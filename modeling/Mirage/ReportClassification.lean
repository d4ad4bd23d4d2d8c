import Mirage.DashboardRebuild
import Mirage.ReportOrder

/-! What a report calls the items of the dashboard's timeline. The projection
classifies every event, and the worker loads the classification with the row, but
the section of the timeline is made by the default of `_rows`. -/

namespace Mirage.ReportClassification
open DashboardRecords (Event Classification TimelineItem contentOf recordsOf classifyEvent)
open DashboardProjection DashboardRun DashboardRebuild ReportContent ReportOrder PythonText

def classificationName : Classification → String
  | .observedFact => "OBSERVED_FACT"
  | .deterministicCorrelation => "DETERMINISTIC_CORRELATION"
  | .aiInference => "AI_INFERENCE"
  | .analystAction => "ANALYST_ACTION"
  | .systemAction => "SYSTEM_ACTION"

structure Driver where
  time : Int → Raw
  number : Json.Num → Raw

def timelineRow (driver : Driver) (item : TimelineItem) : Row :=
  [ (text "item_id", said item.itemId), (text "item_type", said item.itemType),
    (text "classification", said (classificationName item.classification)),
    (text "label", said item.label), (text "description", said item.description),
    (text "event_time", driver.time item.eventTime),
    (text "source_event_ids", .arr (item.sourceEventIds.map said)),
    (text "evidence_references", .arr (item.evidenceReferences.map said)),
    (text "confidence", item.confidence.elim .null driver.number),
    (text "output_tag", item.outputTag.elim .null said) ]

def Loaded (driver : Driver) (caseId : String) (db : Dashboard) (d : ReportData) : Prop :=
  (d.rows .dashboardTimeline).Perm
    ((db.timeline.rows.filter fun item => item.caseId = caseId).map (timelineRow driver))

/-! The rows that statements are made from. -/

def sources (py : Python) (d : ReportData) (title : Title) : List (Field × Row) :=
  match listed py (timelineField d) title with
  | some spec =>
    (sortedBy (fun item => toLex (rowKey py item)) (spec.values d)).map fun item => (spec.field, item)
  | none =>
    if title = .aiProposals then (sortedBy (proposalKey py) (d.rows .ai)).map fun item => (.ai, item) else []

def MadeFrom (py : Python) (d : ReportData) (model : ReportModel) (source : Field × Row)
    (statement : ReportStatement) : Prop :=
  ∃ part ∈ model.sections, (source, statement) ∈ (sources py d part.title).zip part.statements

def ItemRow (dashboardPy : DashboardRecords.Python) (driver : Driver) (caseId : String) (e : Event)
    (source : Field × Row) : Prop :=
  ∃ c, contentOf dashboardPy e = some c ∧
    source = (.dashboardTimeline, timelineRow driver (recordsOf dashboardPy e caseId c 0).timeline)

structure Disclosed (statement : ReportStatement) : Prop where
  confidence : statement.confidence.isSome
  uncertainty : statement.uncertainty.isSome
  model : statement.model.isSome
  provider : statement.provider.isSome

section
variable (dashboardPy : DashboardRecords.Python) (driver : Driver) (caseId : String) (applied : List Event)

def classified (e : Event) : Classification := classifyEvent dashboardPy e.eventType e.actorType

structure Keeps (py : Python) (d : ReportData) (model : ReportModel) : Prop where
  fact : ∀ source statement, MadeFrom py d model source statement → statement.category = .observedFact →
    source.1 ≠ .ai ∧ ∀ e ∈ applied, ItemRow dashboardPy driver caseId e source →
      classified dashboardPy e ≠ .aiInference ∧ classified dashboardPy e ≠ .deterministicCorrelation
  correlation : ∀ source statement, MadeFrom py d model source statement →
    statement.category = .deterministicCorrelation →
    source.1 ≠ .ai ∧ ∀ e ∈ applied, ItemRow dashboardPy driver caseId e source →
      classified dashboardPy e ≠ .aiInference
  inference : ∀ part ∈ model.sections, ∀ statement ∈ part.statements,
    statement.category = .aiInference → Disclosed statement

def Plain : Prop := ∀ e ∈ applied,
  classified dashboardPy e ≠ .aiInference ∧ classified dashboardPy e ≠ .deterministicCorrelation

end

/-! The statements of the sections. -/

theorem zip_of_forall₂ {α β : Type} {R : α → β → Prop} {xs : List α} {ys : List β}
    (all : List.Forall₂ R xs ys) {x : α} (mem : x ∈ xs) : ∃ y, (x, y) ∈ xs.zip ys ∧ R x y := by
  induction all with
  | nil => cases mem
  | cons related all ih =>
    cases mem with
    | head => exact ⟨_, List.mem_cons_self, related⟩
    | tail _ mem =>
      obtain ⟨y, zipped, related⟩ := ih mem
      exact ⟨y, List.mem_cons_of_mem _ zipped, related⟩

section
variable {py : Python} {args : Arguments} {d : ReportData} {model : ReportModel}

theorem statement_category {category : Category} {content : Text} {item : Row} {source : String}
    {made : ReportStatement} (ok : statement py category content item source = .ok made) :
    made.category = category := by
  unfold statement at ok
  cases referred : reference py item source with
  | error e =>
    rw [referred] at ok
    cases ok
  | ok provenance =>
    rw [referred] at ok
    cases ok
    rfl

theorem inference_disclosed {item : Row} {made : ReportStatement} (ok : inference py d item = .ok made) :
    made.category = .aiInference ∧ Disclosed made := by
  simp only [inference, RowLocks.bind_eq_ok] at ok
  obtain ⟨provenance, -, confidence, -, contradictory, -, same⟩ := ok
  cases same
  exact ⟨rfl, rfl, rfl, rfl, rfl⟩

def Honest (made : ReportStatement) : Prop := made.category = .aiInference → Disclosed made

theorem statement_honest {category : Category} (other : category ≠ .aiInference) {content : Text} {item : Row}
    {source : String} {made : ReportStatement} (ok : statement py category content item source = .ok made) :
    Honest made :=
  fun same => absurd ((statement_category ok).symm.trans same) other

theorem honest_one {x : Except Raised ReportStatement} (honest : ∀ made, x = .ok made → Honest made)
    {items : List ReportStatement} (ok : (do pure [← x] : Except Raised (List ReportStatement)) = .ok items) :
    ∀ made ∈ items, Honest made := by
  cases result : x with
  | error e =>
    rw [result] at ok
    cases ok
  | ok made =>
    rw [result] at ok
    cases ok
    intro made' mem
    rw [List.mem_singleton.mp mem]
    exact honest made result

theorem honest_mapM {α : Type} {f : α → Except Raised ReportStatement}
    (honest : ∀ a made, f a = .ok made → Honest made) {xs : List α} {items : List ReportStatement}
    (ok : xs.mapM f = .ok items) : ∀ made ∈ items, Honest made := by
  intro made mem
  obtain ⟨a, -, result, -⟩ := exists_of_forall₂ (mapM_ok.mp ok).flip (mapM_ok.mp ok).flip mem
  exact honest a made result

theorem listed_category {field : Field} {title : Title} {spec : Listed}
    (found : listed py field title = some spec) : spec.category ≠ .aiInference := by
  cases title <;> cases found <;> exact nofun

theorem statements_honest {title : Title} {items : List ReportStatement}
    (said : statements py args d title = .ok items) : ∀ made ∈ items, Honest made := by
  unfold statements at said
  cases found : listed py (timelineField d) title with
  | some spec =>
    rw [found] at said
    simp only [rows] at said
    split at said
    · exact honest_one (fun _ => statement_honest (by decide)) said
    · exact honest_mapM (fun _ _ => statement_honest (listed_category found)) said
  | none =>
    rw [found] at said
    cases title with
    | aiProposals =>
      simp only [unlisted, proposals] at said
      split at said
      · exact honest_one (fun _ => statement_honest (by decide)) said
      · exact honest_mapM (fun _ _ ok _ => (inference_disclosed ok).2) said
    | limitations => exact honest_mapM (fun _ _ => statement_honest (by decide)) said
    | coverPage => exact honest_one (fun _ => statement_honest (by decide)) said
    | caseIdentity => exact honest_one (fun _ => statement_honest (by decide)) said
    | executiveSummary => exact honest_one (fun _ => statement_honest (by decide)) said
    | scopeAndControlledLabBoundary => exact honest_one (fun _ => statement_honest (by decide)) said
    | evidenceVerificationSummary => exact honest_one (fun _ => statement_honest (by decide)) said
    | integrityAndSigningInformation => exact honest_one (fun _ => statement_honest (by decide)) said
    | independentVerificationInstructions => exact honest_one (fun _ => statement_honest (by decide)) said
    | _ => cases found

theorem part_of_built (built : buildReportModel py args d = .ok model) {part : ReportSection}
    (mem : part ∈ model.sections) : statements py args d part.title = .ok part.statements := by
  obtain ⟨title, -, ⟨rfl, said⟩, -⟩ := exists_of_forall₂ (built_sections built).flip
    (built_sections built).flip mem
  exact said

theorem madeFrom_cases (built : buildReportModel py args d = .ok model) {source : Field × Row}
    {made : ReportStatement} (from' : MadeFrom py d model source made) :
    (∃ title spec, listed py (timelineField d) title = some spec ∧ source.1 = spec.field ∧
      made.category = spec.category) ∨ source.1 = .ai ∧ made.category = .aiInference := by
  obtain ⟨part, mem, zipped⟩ := from'
  have said := part_of_built built mem
  unfold sources at zipped
  cases found : listed py (timelineField d) part.title with
  | some spec =>
    rw [found] at zipped
    simp only [List.zip_map_left, List.mem_map] at zipped
    obtain ⟨⟨item, made⟩, zipped, same⟩ := zipped
    cases same
    have some' : spec.values d ≠ [] := by
      intro none
      rw [none] at zipped
      exact nomatch zipped
    rw [statements_listed (.refl d) found some', mapM_ok] at said
    exact .inl ⟨part.title, spec, found, rfl, statement_category (List.forall₂_zip said zipped)⟩
  | none =>
    rw [found] at zipped
    simp only at zipped
    split at zipped
    · rename_i title
      simp only [List.zip_map_left, List.mem_map] at zipped
      obtain ⟨⟨item, made⟩, zipped, same⟩ := zipped
      cases same
      have some' : d.rows .ai ≠ [] := by
        intro none
        rw [none] at zipped
        exact nomatch zipped
      rw [title, statements_proposals some', mapM_ok] at said
      exact .inr ⟨rfl, (inference_disclosed (List.forall₂_zip said zipped)).1⟩
    · exact nomatch zipped

theorem listed_field {field : Field} (notAi : field ≠ .ai) {title : Title} {spec : Listed}
    (found : listed py field title = some spec) : spec.field ≠ .ai := by
  cases title <;> cases found <;> first | exact notAi | exact nofun

theorem timelineField_ne (d : ReportData) : timelineField d ≠ .ai := by
  unfold timelineField
  split <;> decide

theorem correlated_field {field : Field} {title : Title} {spec : Listed}
    (found : listed py field title = some spec) (category : spec.category = .deterministicCorrelation) :
    spec.field ≠ .dashboardTimeline := by
  cases title <;> cases found <;> first | (cases category; done) | exact nofun

theorem timeline_fact (built : buildReportModel py args d = .ok model) {item : Row}
    (mem : item ∈ d.rows .dashboardTimeline) :
    ∃ made, MadeFrom py d model (.dashboardTimeline, item) made ∧ made.category = .observedFact := by
  have field : timelineField d = .dashboardTimeline :=
    if_neg (mt List.isEmpty_iff.mp (List.ne_nil_of_mem mem))
  obtain ⟨items, part, said, -⟩ := section_of_built built built .investigationTimeline
  obtain ⟨spec, found, same, category⟩ : ∃ spec, listed py (timelineField d) .investigationTimeline =
      some spec ∧ spec.values d = d.rows .dashboardTimeline ∧ spec.field = .dashboardTimeline ∧
      spec.category = .observedFact := by
    rw [field]
    exact ⟨_, rfl, List.filter_true _, rfl, rfl⟩
  rw [statements_listed (.refl d) found (same ▸ List.ne_nil_of_mem mem), mapM_ok] at said
  have sorted : item ∈ sortedBy (fun item => toLex (rowKey py item)) (spec.values d) :=
    (List.perm_insertionSort _ _).mem_iff.mpr (same ▸ mem)
  obtain ⟨made, zipped, ok⟩ := zip_of_forall₂ said sorted
  refine ⟨made, ⟨_, part, ?_⟩, (statement_category ok).trans category.2⟩
  rw [sources, found]
  simp only [List.zip_map_left, List.mem_map]
  exact ⟨(item, made), zipped, congrArg (fun f => ((f, item), made)) category.1⟩

end

section
variable {py : Python} {args : Arguments} {d : ReportData} {model : ReportModel}
  {dashboardPy : DashboardRecords.Python} {driver : Driver} {caseId : String} {applied : List Event}
  {db db' : Dashboard}

theorem row_loaded (holds : Holds dashboardPy caseId applied db db') (loaded : Loaded driver caseId db' d)
    {e : Event} (mem : e ∈ applied) {c : DashboardRecords.Content} (content : contentOf dashboardPy e = some c) :
    timelineRow driver (recordsOf dashboardPy e caseId c 0).timeline ∈ d.rows .dashboardTimeline := by
  have item : (recordsOf dashboardPy e caseId c 0).timeline ∈ db'.timeline.rows.map unversionedItem := by
    rw [holds.items]
    exact List.mem_append_right _ ((mem_parts dashboardPy).mpr ⟨e, mem, c, content, rfl⟩)
  obtain ⟨row, stored, same⟩ := List.mem_map.mp item
  rw [loaded.mem_iff, List.mem_map]
  refine ⟨row, List.mem_filter.mpr ⟨stored, decide_eq_true ?_⟩, ?_⟩
  · exact congrArg (fun item => item.caseId) same
  · have equal : timelineRow driver (unversionedItem row) = _ := congrArg (timelineRow driver) same
    exact equal

theorem rows_of_holds (holds : Holds dashboardPy caseId applied db db') (clean : Clean db caseId) :
    (db'.timeline.rows.filter fun item => item.caseId = caseId).map (timelineRow driver) =
      (itemsOf dashboardPy caseId applied).map (timelineRow driver) := by
  have items : (db'.timeline.rows.map unversionedItem).filter (fun item => item.caseId = caseId) =
      itemsOf dashboardPy caseId applied := by
    rw [holds.items, List.filter_append, List.filter_eq_nil_iff.mpr, List.nil_append, List.filter_eq_self]
    · exact fun item mem => decide_eq_true (itemsOf_caseId dashboardPy item mem)
    · intro item mem ofCase
      obtain ⟨row, listed, rfl⟩ := List.mem_map.mp mem
      exact clean.items row listed (of_decide_eq_true ofCase)
  rw [← items, List.filter_map, List.map_map]
  rfl

/-- A report keeps the classification of its sources just when nothing in the
history is classified as a correlation or an inference. -/
theorem keeps_iff {events : List Event} {deliveries : List Delivery}
    (apart : CollisionFree dashboardPy caseId events) (feed : Feed dashboardPy db caseId events)
    (only : ∀ delivery ∈ deliveries, delivery.event ∈ events)
    (loaded : Loaded driver caseId (deliveries.foldl (deliver dashboardPy) db) d)
    (built : buildReportModel py args d = .ok model) :
    Keeps dashboardPy driver caseId (appliedBy dashboardPy db caseId deliveries) py d model ↔
      Plain dashboardPy (appliedBy dashboardPy db caseId deliveries) := by
  have holds := holds_appliedBy dashboardPy apart feed only
  constructor
  · intro keeps e mem
    have taken := ((mem_appliedBy dashboardPy feed.distinct only e).mp mem).2
    obtain ⟨c, content, -⟩ := projectable_spec dashboardPy taken
    obtain ⟨made, from', category⟩ := timeline_fact built (row_loaded holds loaded mem content)
    exact (keeps.fact _ made from' category).2 e mem ⟨c, content, rfl⟩
  · intro plain
    refine ⟨?_, ?_, fun part mem => statements_honest (part_of_built built mem)⟩
    · intro source made from' category
      rcases madeFrom_cases built from' with ⟨title, spec, found, field, -⟩ | ⟨-, inferred⟩
      · exact ⟨field ▸ listed_field (timelineField_ne d) found, fun e mem _ => plain e mem⟩
      · rw [category] at inferred
        cases inferred
    · intro source made from' category
      rcases madeFrom_cases built from' with ⟨title, spec, found, field, same⟩ | ⟨-, inferred⟩
      · refine ⟨field ▸ listed_field (timelineField_ne d) found, ?_⟩
        rintro e - ⟨c, -, rfl⟩
        exact absurd field.symm (correlated_field found (same.symm.trans category))
      · rw [category] at inferred
        cases inferred

end

def sampleDriver : Driver := ⟨fun _ => said "2024-05-01 10:00:00+00:00", fun _ => .null⟩

def sampleHistory (eventType : String) : List Event :=
  [{ sampleEvent "01HX3QK7Z0000000000000000A" "sensor-1" 1 with eventType }]

def sampleDeliveries (eventType : String) : List Delivery := (sampleHistory eventType).map fun e => ⟨e, false⟩

def historyData (eventType : String) : ReportData where
  case := [(text "case_id", said sampleCase), (text "version", .int 1)]
  rows
    | .dashboardTimeline =>
      (itemsOf DashboardRun.samplePython sampleCase (sampleHistory eventType)).map (timelineRow sampleDriver)
    | _ => []
  aiModel := .null
  aiProvider := .null

theorem history_apart (eventType : String) :
    CollisionFree DashboardRun.samplePython sampleCase (sampleHistory eventType) where
  ids := by
    rintro _ ⟨e, listed, rfl⟩ _ ⟨e', listed', rfl⟩ -
    rw [List.mem_singleton.mp listed, List.mem_singleton.mp listed']
  edges := by
    rintro _ ⟨e, listed, rfl⟩ _ ⟨e', listed', rfl⟩ -
    rw [List.mem_singleton.mp listed, List.mem_singleton.mp listed']

theorem only_history (eventType : String) :
    ∀ delivery ∈ sampleDeliveries eventType, delivery.event ∈ sampleHistory eventType := by
  simp [sampleDeliveries]

theorem history_feed (eventType : String) :
    Feed DashboardRun.samplePython sampleDashboard sampleCase (sampleHistory eventType) where
  named := by decide
  ofCase e mem := by rw [List.mem_singleton.mp mem]; rfl
  distinct := List.nodup_singleton _
  fresh e _ := fresh_sample e

section
variable {eventType : String}
  (taken : ∀ e ∈ sampleHistory eventType, projectable DashboardRun.samplePython sampleDashboard sampleCase e = true)
include taken

theorem history_applied : appliedBy DashboardRun.samplePython sampleDashboard sampleCase
    (sampleDeliveries eventType) = sampleHistory eventType :=
  appliedBy_map DashboardRun.samplePython (history_feed eventType).distinct taken

theorem history_holds : Holds DashboardRun.samplePython sampleCase (sampleHistory eventType) sampleDashboard
    ((sampleDeliveries eventType).foldl (deliver DashboardRun.samplePython) sampleDashboard) := by
  have holds := holds_appliedBy DashboardRun.samplePython (history_apart eventType) (history_feed eventType)
    (only_history eventType)
  rwa [history_applied taken] at holds

theorem history_loaded : Loaded sampleDriver sampleCase
    ((sampleDeliveries eventType).foldl (deliver DashboardRun.samplePython) sampleDashboard)
    (historyData eventType) := by
  rw [Loaded, rows_of_holds (history_holds taken) clean_sample]
  exact .refl _

end

theorem observation_taken : ∀ e ∈ sampleHistory "spider.observation",
    projectable DashboardRun.samplePython sampleDashboard sampleCase e = true := by decide +kernel

theorem observation_built : ∃ model, buildReportModel ReportOrder.samplePython sampleArguments
    (historyData "spider.observation") = .ok model :=
  ok_of_isOk (by decide +kernel)

/-- An observation is reported as a fact. -/
theorem observation_kept : ∃ model, Keeps DashboardRun.samplePython sampleDriver sampleCase
    (appliedBy DashboardRun.samplePython sampleDashboard sampleCase (sampleDeliveries "spider.observation"))
    ReportOrder.samplePython (historyData "spider.observation") model := by
  obtain ⟨model, built⟩ := observation_built
  refine ⟨model, (keeps_iff (history_apart _) (history_feed _) (only_history _)
    (history_loaded observation_taken) built).mpr ?_⟩
  rw [history_applied observation_taken]
  unfold Plain
  decide +kernel

theorem detection_taken : ∀ e ∈ sampleHistory "detection.raised",
    projectable DashboardRun.samplePython sampleDashboard sampleCase e = true := by decide +kernel

theorem detection_classified : ∀ e ∈ sampleHistory "detection.raised",
    classified DashboardRun.samplePython e = .deterministicCorrelation := by decide +kernel

theorem detection_built : ∃ model, buildReportModel ReportOrder.samplePython sampleArguments
    (historyData "detection.raised") = .ok model :=
  ok_of_isOk (by decide +kernel)

/-- A correlation is reported as a fact. -/
theorem detection_promoted : ∃ model, buildReportModel ReportOrder.samplePython sampleArguments
      (historyData "detection.raised") = .ok model ∧
    ¬ Keeps DashboardRun.samplePython sampleDriver sampleCase
      (appliedBy DashboardRun.samplePython sampleDashboard sampleCase (sampleDeliveries "detection.raised"))
      ReportOrder.samplePython (historyData "detection.raised") model := by
  obtain ⟨model, built⟩ := detection_built
  refine ⟨model, built, fun keeps => ?_⟩
  rw [history_applied detection_taken] at keeps
  have mem : _ ∈ sampleHistory "detection.raised" := List.mem_cons_self
  obtain ⟨c, content, -⟩ := projectable_spec DashboardRun.samplePython (detection_taken _ mem)
  obtain ⟨made, from', category⟩ := timeline_fact built
    (row_loaded (history_holds detection_taken) (history_loaded detection_taken) mem content)
  exact absurd (detection_classified _ mem) ((keeps.fact _ made from' category).2 _ mem ⟨c, content, rfl⟩).2

end Mirage.ReportClassification
