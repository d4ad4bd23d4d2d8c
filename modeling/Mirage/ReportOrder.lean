import Mirage.KeyedSort
import Mirage.ReportContent

/-! Whether a report depends on the order in which the rows of a case are read.
`_rows` sorts by a time and an id, but it knows four names of ids only, and rows
that have none of them keep their order where their times are equal. -/

namespace Mirage.ReportOrder
open ReportContent PythonText

structure Permuted (d d' : ReportData) : Prop where
  case : d'.case = d.case
  rows : ∀ field, (d'.rows field).Perm (d.rows field)
  aiModel : d'.aiModel = d.aiModel
  aiProvider : d'.aiProvider = d.aiProvider

def Agree {κ : Type} (key : Row → κ) (make : Row → Except Raised ReportStatement) (values : List Row) :
    Prop :=
  ∀ a ∈ values, ∀ b ∈ values, key a = key b → make a = make b

structure Canonical (py : Python) (d : ReportData) : Prop where
  listed : ∀ title spec, listed py (timelineField d) title = some spec →
    Agree (rowKey py) (spec.make py) (spec.values d)
  proposals : Agree (proposalKey py) (inference py d) (d.rows .ai)

def Complete (make : Row → Except Raised ReportStatement) (values : List Row) (title : Title)
    (model : ReportModel) : Prop :=
  values ≠ [] → ∃ order statements, order.Perm values ∧ ⟨title, statements⟩ ∈ model.sections ∧
    List.Forall₂ (fun item statement => make item = .ok statement) order statements

structure Follows (py : Python) (args : Arguments) (d : ReportData) (model : ReportModel) : Prop where
  permuted : ∀ d', Permuted d d' → buildReportModel py args d' = .ok model
  listed : ∀ title spec, ReportContent.listed py (timelineField d) title = some spec →
    Complete (spec.make py) (spec.values d) title model
  proposals : Complete (inference py d) (d.rows .ai) .aiProposals model

section
variable {α β : Type} {f : α → Except Raised β}

theorem mapM_ok {xs : List α} {ys : List β} :
    xs.mapM f = .ok ys ↔ List.Forall₂ (fun x y => f x = .ok y) xs ys := by
  induction xs generalizing ys with
  | nil =>
    rw [List.mapM_nil]
    cases ys with
    | nil => exact ⟨fun _ => .nil, fun _ => rfl⟩
    | cons y ys => exact ⟨fun same => (nomatch same), fun all => (nomatch all)⟩
  | cons x xs ih =>
    rw [List.mapM_cons, List.forall₂_cons_left_iff]
    cases first : f x with
    | error e =>
      refine ⟨fun same => (nomatch same), ?_⟩
      rintro ⟨y, rest, ok, -⟩
      cases ok
    | ok y =>
      cases later : xs.mapM f with
      | error e =>
        refine ⟨fun same => ?_, ?_⟩
        · simp only [bind, Except.bind, reduceCtorEq] at same
        · rintro ⟨y', rest, -, all, -⟩
          rw [ih.mpr all] at later
          cases later
      | ok rest =>
        have all := ih.mp later
        simp only [bind, Except.bind, pure, Except.pure, Except.ok.injEq]
        refine ⟨fun same => ⟨y, rest, rfl, all, same.symm⟩, ?_⟩
        rintro ⟨y', rest', same, all', rfl⟩
        have same' := ih.mpr all'
        rw [later] at same'
        rw [same, Except.ok.inj same']

theorem mapM_congr {xs ys : List α} (same : xs.map f = ys.map f) : xs.mapM f = ys.mapM f := by
  have mapped (zs : List α) : zs.mapM f = (zs.map f).mapM id := by
    induction zs with
    | nil => rfl
    | cons z zs ih => rw [List.mapM_cons, List.map_cons, List.mapM_cons, ih, id]
  rw [mapped, mapped, same]

theorem result_of_swap {front : List α} {a b : α} {back : List α} {ys : List β}
    (first : (front ++ a :: b :: back).mapM f = .ok ys)
    (second : (front ++ b :: a :: back).mapM f = .ok ys) : f a = f b := by
  rw [mapM_ok] at first second
  induction front generalizing ys with
  | nil =>
    obtain ⟨y, rest, resultA, -, rfl⟩ := List.forall₂_cons_left_iff.mp first
    obtain ⟨y', rest', resultB, -, same⟩ := List.forall₂_cons_left_iff.mp second
    cases same
    rw [resultA, resultB]
  | cons x front ih =>
    obtain ⟨y, rest, -, first', rfl⟩ := List.forall₂_cons_left_iff.mp first
    obtain ⟨y', rest', -, second', same⟩ := List.forall₂_cons_left_iff.mp second
    cases same
    exact ih first' second'

theorem exists_of_forall₂ {R S : α → β → Prop} {xs : List α} {ys : List β}
    (all : List.Forall₂ R xs ys) (all' : List.Forall₂ S xs ys) {x : α} (mem : x ∈ xs) :
    ∃ y ∈ ys, R x y ∧ S x y := by
  induction all with
  | nil => cases mem
  | cons related all ih =>
    cases all' with
    | cons related' all' =>
      cases mem with
      | head => exact ⟨_, List.mem_cons_self, related, related'⟩
      | tail _ mem =>
        obtain ⟨y, mem, both⟩ := ih all' mem
        exact ⟨y, List.mem_cons_of_mem _ mem, both⟩

theorem front_two {xs : List α} {a b : α} (memA : a ∈ xs) (memB : b ∈ xs) (ne : a ≠ b) :
    ∃ rest, (a :: b :: rest).Perm xs := by
  classical
  have memB := (List.mem_erase_of_ne (Ne.symm ne)).mpr memB
  exact ⟨_, ((List.perm_cons_erase memB).symm.cons a).trans (List.perm_cons_erase memA).symm⟩

end

section
variable {py : Python} {args : Arguments} {d d' : ReportData}

theorem Permuted.timelineField (permuted : Permuted d d') : timelineField d' = timelineField d := by
  simp only [ReportContent.timelineField, (permuted.rows .dashboardTimeline).isEmpty_eq]

theorem Permuted.values (permuted : Permuted d d') (spec : Listed) :
    (spec.values d').Perm (spec.values d) :=
  (permuted.rows spec.field).filter spec.keep

theorem Permuted.inference (permuted : Permuted d d') : ReportContent.inference py d' =
    ReportContent.inference py d := by
  funext item
  simp only [ReportContent.inference, permuted.aiModel, permuted.aiProvider]

theorem rows_permuted (permuted : Permuted d d') (title : Title) {spec : Listed}
    (agree : Agree (rowKey py) (spec.make py) (spec.values d)) :
    rows py d' title spec = rows py d title spec := by
  have sorted := KeyedSort.map_insertionSort_perm (permuted.values spec)
    (fun a memA b memB (same : toLex (rowKey py a) = toLex (rowKey py b)) =>
      agree a memA b memB (toLex.injective same))
  rw [rows, rows, (permuted.values spec).isEmpty_eq, sortedBy, sortedBy, mapM_congr sorted]

theorem proposals_permuted (permuted : Permuted d d')
    (agree : Agree (proposalKey py) (inference py d) (d.rows .ai)) :
    proposals py d' = proposals py d := by
  have sorted := KeyedSort.map_insertionSort_perm (permuted.rows .ai) agree
  rw [proposals, proposals, (permuted.rows .ai).isEmpty_eq, permuted.inference, sortedBy, sortedBy,
    mapM_congr sorted]

theorem unlisted_permuted (permuted : Permuted d d')
    (agree : Agree (proposalKey py) (inference py d) (d.rows .ai)) (title : Title) :
    unlisted py args d' title = unlisted py args d title := by
  cases title with
  | aiProposals => exact proposals_permuted permuted agree
  | executiveSummary =>
    simp only [unlisted, caseSource, permuted.case, (permuted.rows _).length_eq]
  | evidenceVerificationSummary =>
    simp only [unlisted, verified, (permuted.rows _).length_eq, (permuted.rows _).countP_eq]
  | _ => simp only [unlisted, caseId, caseField, caseSource, permuted.case]

theorem statements_permuted (permuted : Permuted d d') (canonical : Canonical py d) (title : Title) :
    statements py args d' title = statements py args d title := by
  rw [statements, statements, permuted.timelineField]
  cases found : listed py (timelineField d) title with
  | none => exact unlisted_permuted permuted canonical.proposals title
  | some spec => exact rows_permuted permuted title (canonical.listed title spec found)

theorem build_permuted (permuted : Permuted d d') (canonical : Canonical py d) :
    buildReportModel py args d' = buildReportModel py args d := by
  simp only [buildReportModel, statements_permuted permuted canonical, (permuted.rows _).all_eq]

theorem mem_reportSections (title : Title) : title ∈ reportSections := by
  cases title <;> decide

theorem built_sections {model : ReportModel} (built : buildReportModel py args d = .ok model) :
    List.Forall₂ (fun title content => content.title = title ∧
      statements py args d title = .ok content.statements) reportSections model.sections := by
  unfold buildReportModel at built
  split at built
  · cases made : reportSections.mapM fun title => do
        pure (⟨title, ← statements py args d title⟩ : ReportSection) with
    | error e =>
      rw [made] at built
      cases built
    | ok sections =>
      rw [made] at built
      cases built
      refine (mapM_ok.mp made).imp fun title content result => ?_
      cases said : statements py args d title with
      | error e =>
        rw [said] at result
        cases result
      | ok items =>
        rw [said] at result
        cases result
        exact ⟨rfl, rfl⟩
  · cases built

theorem section_of_built {model : ReportModel} (built : buildReportModel py args d = .ok model)
    (built' : buildReportModel py args d' = .ok model) (title : Title) :
    ∃ items, ⟨title, items⟩ ∈ model.sections ∧ statements py args d title = .ok items ∧
      statements py args d' title = .ok items := by
  obtain ⟨content, mem, ⟨rfl, said⟩, -, said'⟩ := exists_of_forall₂ (built_sections built)
    (built_sections built') (mem_reportSections title)
  exact ⟨content.statements, mem, said, said'⟩

theorem statements_listed (permuted : Permuted d d') {title : Title} {spec : Listed}
    (found : listed py (timelineField d) title = some spec) (some : spec.values d' ≠ []) :
    statements py args d' title =
      (sortedBy (fun item => toLex (rowKey py item)) (spec.values d')).mapM (spec.make py) := by
  rw [statements, permuted.timelineField, found]
  exact if_neg (mt List.isEmpty_iff.mp some)

theorem statements_proposals (some : d.rows .ai ≠ []) :
    statements py args d .aiProposals = (sortedBy (proposalKey py) (d.rows .ai)).mapM (inference py d) :=
  if_neg (mt List.isEmpty_iff.mp some)

theorem Permuted.refl (d : ReportData) : Permuted d d := ⟨rfl, fun _ => .refl _, rfl, rfl⟩

theorem complete_listed {model : ReportModel} (built : buildReportModel py args d = .ok model)
    {title : Title} {spec : Listed} (found : listed py (timelineField d) title = some spec) :
    Complete (spec.make py) (spec.values d) title model := by
  intro some
  obtain ⟨items, mem, said, -⟩ := section_of_built built built title
  rw [statements_listed (.refl d) found some] at said
  exact ⟨_, items, List.perm_insertionSort _ _, mem, mapM_ok.mp said⟩

theorem complete_proposals {model : ReportModel} (built : buildReportModel py args d = .ok model) :
    Complete (inference py d) (d.rows .ai) .aiProposals model := by
  intro some
  obtain ⟨items, mem, said, -⟩ := section_of_built built built .aiProposals
  rw [statements_proposals some] at said
  exact ⟨_, items, List.perm_insertionSort _ _, mem, mapM_ok.mp said⟩

def withRows (d : ReportData) (field : Field) (values : List Row) : ReportData :=
  { d with rows := fun other => if other = field then values else d.rows other }

theorem rows_withRows (field : Field) (values : List Row) : (withRows d field values).rows field = values :=
  if_pos rfl

theorem permuted_withRows {field : Field} {values : List Row} (perm : values.Perm (d.rows field)) :
    Permuted d (withRows d field values) where
  case := rfl
  rows other := by
    by_cases same : other = field
    · rw [same, rows_withRows]
      exact perm
    · exact (if_neg same : (withRows d field values).rows other = d.rows other) ▸ .refl _
  aiModel := rfl
  aiProvider := rfl

/-- Where the report does not depend on the order, neither do the results of two
rows that the sort does not tell apart. -/
theorem make_of_swap {model : ReportModel} {κ : Type} [LinearOrder κ] {key : Row → κ}
    {make : Row → Except Raised ReportStatement} {field : Field} {keep : Row → Bool} {title : Title}
    (follows : ∀ d', Permuted d d' → buildReportModel py args d' = .ok model)
    (made : ∀ d', Permuted d d' → (d'.rows field).filter keep ≠ [] →
      statements py args d' title = (sortedBy key ((d'.rows field).filter keep)).mapM make)
    {a b : Row} (memA : a ∈ (d.rows field).filter keep) (memB : b ∈ (d.rows field).filter keep)
    (same : key a = key b) : make a = make b := by
  by_cases ne : a = b
  · rw [ne]
  have ⟨memA, keptA⟩ := List.mem_filter.mp memA
  have ⟨memB, keptB⟩ := List.mem_filter.mp memB
  obtain ⟨rest, perm⟩ := front_two memA memB ne
  have first := permuted_withRows perm
  have second := permuted_withRows ((List.Perm.swap a b rest).trans perm)
  obtain ⟨items, -, said, said'⟩ := section_of_built (follows _ first) (follows _ second) title
  have values : ((withRows d field (a :: b :: rest)).rows field).filter keep =
      a :: b :: rest.filter keep := by
    rw [rows_withRows, List.filter_cons_of_pos keptA, List.filter_cons_of_pos keptB]
  have values' : ((withRows d field (b :: a :: rest)).rows field).filter keep =
      b :: a :: rest.filter keep := by
    rw [rows_withRows, List.filter_cons_of_pos keptB, List.filter_cons_of_pos keptA]
  rw [made _ first (by rw [values]; exact List.cons_ne_nil _ _), values, sortedBy] at said
  rw [made _ second (by rw [values']; exact List.cons_ne_nil _ _), values', sortedBy] at said'
  obtain ⟨front, back, sorted, sorted'⟩ := KeyedSort.insertionSort_twins same (rest.filter keep)
  rw [sorted] at said
  rw [sorted'] at said'
  exact result_of_swap said said'

theorem canonical_of_follows {model : ReportModel}
    (follows : ∀ d', Permuted d d' → buildReportModel py args d' = .ok model) : Canonical py d where
  listed title spec found a memA b memB same :=
    make_of_swap follows (fun _ permuted => statements_listed permuted found) memA memB
      (congrArg toLex same)
  proposals a memA b memB same := by
    have made (d' : ReportData) (permuted : Permuted d d') (some : (d'.rows .ai).filter (fun _ => true) ≠ []) :
        statements py args d' .aiProposals =
          (sortedBy (proposalKey py) ((d'.rows .ai).filter fun _ => true)).mapM (inference py d) := by
      rw [List.filter_true] at some ⊢
      rw [statements_proposals some, permuted.inference]
    exact make_of_swap follows made (List.mem_filter.mpr ⟨memA, rfl⟩) (List.mem_filter.mpr ⟨memB, rfl⟩) same

/-- A report does not depend on the order of the rows just when rows with one key
have one statement, and each row of a list always has its statement. -/
theorem follows_iff {model : ReportModel} (built : buildReportModel py args d = .ok model) :
    Follows py args d model ↔ Canonical py d := by
  refine ⟨fun follows => canonical_of_follows follows.permuted, fun canonical => ⟨?_, ?_, ?_⟩⟩
  · intro d' permuted
    rw [build_permuted permuted canonical, built]
  · exact fun title spec found => complete_listed built found
  · exact complete_proposals built

theorem eq_of_single {xs : List Row} (single : xs.length ≤ 1) {a b : Row} (memA : a ∈ xs) (memB : b ∈ xs) :
    a = b := by
  match xs with
  | [] => cases memA
  | [item] => rw [List.mem_singleton.mp memA, List.mem_singleton.mp memB]
  | _ :: _ :: _ => exact absurd single (by simp)

theorem canonical_of_single (single : ∀ field, (d.rows field).length ≤ 1) : Canonical py d where
  listed title spec _ a memA b memB _ := by
    have one := (List.length_filter_le spec.keep _).trans (single spec.field)
    rw [eq_of_single one memA memB]
  proposals a memA b memB _ := by
    rw [eq_of_single (single .ai) memA memB]

end

/-! Two gaps of collection that were found at one time. -/

def samplePython : Python :=
  { ReportRedaction.sampleLib with int := fun _ => none, float := fun _ => none }

def sampleArguments : Arguments :=
  ⟨text "RPT-1", text "EXP-1", text "analyst", text "2026-07-26T10:00:00.000Z", text "dev", 1, text "MAN-1",
    text "UTC", none⟩

def gap (gapId source : String) : Row :=
  [ (text "gap_id", said gapId), (text "evidence_type", said "PCAP"), (text "source_id", said source),
    (text "required", .bool true), (text "reason", said "SOURCE_UNAVAILABLE"),
    (text "created_at", said "2026-07-26 10:00:00+00:00") ]

def sampleData (gaps : List Row) : ReportData where
  case := [(text "case_id", said "case-1"), (text "version", .int 1)]
  rows
    | .gaps => gaps
    | _ => []
  aiModel := .null
  aiProvider := .null

theorem ok_of_isOk {α : Type} {x : Except Raised α} (ok : x.isOk = true) : ∃ a, x = .ok a := by
  cases x with
  | error e => cases ok
  | ok a => exact ⟨a, rfl⟩

theorem sample_built :
    ∃ model, buildReportModel samplePython sampleArguments (sampleData [gap "GAP-1" "spider-1"]) = .ok model :=
  ok_of_isOk (by decide)

theorem oneGap_follows :
    ∃ model, Follows samplePython sampleArguments (sampleData [gap "GAP-1" "spider-1"]) model := by
  obtain ⟨model, built⟩ := sample_built
  refine ⟨model, (follows_iff built).mpr (canonical_of_single fun field => ?_)⟩
  cases field <;> decide

theorem twoGaps_built :
    ∃ model, buildReportModel samplePython sampleArguments
      (sampleData [gap "GAP-1" "spider-1", gap "GAP-2" "spider-2"]) = .ok model :=
  ok_of_isOk (by decide)

/-- The report changes with the order in which the two gaps are read. -/
theorem twoGaps_reordered :
    ¬ ∀ d', Permuted (sampleData [gap "GAP-1" "spider-1", gap "GAP-2" "spider-2"]) d' →
      buildReportModel samplePython sampleArguments d' =
        buildReportModel samplePython sampleArguments
          (sampleData [gap "GAP-1" "spider-1", gap "GAP-2" "spider-2"]) := by
  intro always
  obtain ⟨model, built⟩ := twoGaps_built
  have canonical := canonical_of_follows fun d' permuted => (always d' permuted).trans built
  have same := canonical.listed .collectionGaps _ rfl (gap "GAP-1" "spider-1") List.mem_cons_self
    (gap "GAP-2" "spider-2") (List.mem_cons_of_mem _ List.mem_cons_self) (by decide)
  have sources := congrArg (fun made => made.toOption.bind (·.provenance.sourceIdentity)) same
  exact absurd sources (by decide)

end Mirage.ReportOrder
