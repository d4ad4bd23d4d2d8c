import Mathlib.Data.List.Dedup
import Mathlib.Data.List.Sort

/-! Who may see which case in the dashboard of prompt3.py: `require_case_access`, the
listing `dashboard_cases`, `operations_overview`, and the endpoints of one case. -/

namespace Mirage.CaseListing

structure CaseRow where
  caseId : String
  state : String
  version : ℕ
  severity : String
  owner : Option String
  createdAt : Int
  deriving DecidableEq

inductive Permission where
  | read
  | operate
  | export
  | admin
  deriving DecidableEq

/-- A row of `dashboard_case_access`. -/
structure Grant where
  caseId : String
  subject : String
  permission : Permission

structure Notification where
  notificationId : String
  caseId : Option String
  severity : String
  category : String
  title : String
  detail : String
  acknowledgedAt : Option Int
  createdAt : Int

inductive Table where
  | caseSummary
  | timelineItems
  | projectionOffsets
  | graphNodes
  | graphEdges
  | evidenceObjects
  | aiProposals
  | aiUsage
  | sandboxInstances
  | sandboxActions
  | realtimeUpdates
  deriving DecidableEq

structure CaseRecord where
  table : Table
  caseId : String
  content : String

/-- Grants name cases that exist: `REFERENCES cases (case_id)`. -/
structure Database where
  cases : List CaseRow
  grants : List Grant
  granted : ∀ g ∈ grants, g.caseId ∈ cases.map CaseRow.caseId
  notifications : List Notification
  records : List CaseRecord
  activeAgents : ℕ
  offlineAgents : ℕ
  deadLetters : ℕ
  evidenceFailures : ℕ

structure Principal where
  subject : String
  username : String
  roles : List String

inductive Refusal where
  | forbidden
  | notFound
  deriving DecidableEq

def readRoles : List String := ["platform_admin", "investigator", "operator", "auditor", "read_only"]

def operateRoles : List String := ["platform_admin", "investigator", "operator"]

def globalCaseRoles : List String := ["platform_admin", "auditor"]

def Principal.hasAny (p : Principal) (roles : List String) : Bool := p.roles.any fun role => role ∈ roles

def requireAnyRole (p : Principal) (roles : List String) : Except Refusal Unit :=
  if p.hasAny roles then .ok () else .error .forbidden

def allowed (db : Database) (p : Principal) (caseId : String) (permission : Permission) : Bool :=
  (db.cases.any fun c => c.caseId = caseId && c.owner = some p.username) ||
    db.grants.any fun g => g.caseId = caseId && g.subject = p.subject &&
      (g.permission = permission || g.permission = .admin)

def requireCaseAccess (db : Database) (p : Principal) (caseId : String) (permission : Permission) :
    Except Refusal Unit :=
  if p.hasAny globalCaseRoles || allowed db p caseId permission then .ok () else .error .notFound

/-- `cases c LEFT JOIN dashboard_case_access a ON a.case_id=c.case_id AND a.subject=…`. -/
def joined (db : Database) (p : Principal) : List (CaseRow × Option Grant) :=
  db.cases.flatMap fun c =>
    match db.grants.filter fun g => g.caseId = c.caseId && g.subject = p.subject with
    | [] => [(c, none)]
    | found => found.map fun g => (c, some g)

def newestCases (cases : List CaseRow) : List CaseRow :=
  (cases.insertionSort fun a b => b.createdAt ≤ a.createdAt).take 500

def dashboardCases (db : Database) (p : Principal) : Except Refusal (List CaseRow) := do
  requireAnyRole p readRoles
  if p.hasAny globalCaseRoles then return newestCases db.cases
  else return newestCases ((((joined db p).filter fun row =>
    row.1.owner = some p.username || row.2.isSome).map Prod.fst).dedup)

def groupCounts (keys : List String) : List (String × ℕ) :=
  (keys.dedup.insertionSort fun a b => a ≤ b).map fun key => (key, keys.count key)

structure Overview where
  platformHealth : String
  openCases : ℕ
  casesByState : List (String × ℕ)
  casesBySeverity : List (String × ℕ)
  activeAgents : ℕ
  offlineAgents : ℕ
  deadLetterCount : ℕ
  evidenceVerificationFailures : ℕ
  recentOperationalAlerts : List Notification

def recentNotifications (db : Database) : List Notification :=
  (db.notifications.insertionSort fun a b => b.createdAt ≤ a.createdAt).take 50

def operationsOverview (db : Database) (p : Principal) : Except Refusal Overview := do
  requireAnyRole p readRoles
  return {
    platformHealth := if db.deadLetters ≠ 0 ∨ db.evidenceFailures ≠ 0 then "DEGRADED" else "HEALTHY"
    openCases := db.cases.length - (db.cases.map CaseRow.state).count "DESTROYED"
    casesByState := groupCounts (db.cases.map CaseRow.state)
    casesBySeverity := groupCounts (db.cases.map CaseRow.severity)
    activeAgents := db.activeAgents
    offlineAgents := db.offlineAgents
    deadLetterCount := db.deadLetters
    evidenceVerificationFailures := db.evidenceFailures
    recentOperationalAlerts := recentNotifications db }

structure Query where
  table : Table
  keep : CaseRecord → Bool
  limit : Option ℕ

def Query.whole (table : Table) (limit : Option ℕ) : Query := ⟨table, fun _ => true, limit⟩

def Query.rows (q : Query) (records : List CaseRecord) (caseId : String) : List CaseRecord :=
  let found := records.filter fun r => r.table = q.table && r.caseId = caseId && q.keep r
  q.limit.elim found found.take

def caseEndpoint (queries : List Query) (db : Database) (p : Principal) (caseId : String) :
    Except Refusal (List CaseRecord) := do
  requireAnyRole p readRoles
  requireCaseAccess db p caseId .read
  return queries.flatMap fun q => q.rows db.records caseId

def graphQueries (keepNode keepEdge : CaseRecord → Bool) (maxNodes : ℕ) : List Query :=
  [⟨.graphNodes, keepNode, some maxNodes⟩, ⟨.graphEdges, keepEdge, none⟩]

def dashboardCase (keepEdge : CaseRecord → Bool) (maxNodes : ℕ) := caseEndpoint
  ([.whole .caseSummary (some 1), .whole .timelineItems (some 2000), .whole .projectionOffsets (some 1)] ++
    graphQueries (fun _ => true) keepEdge maxNodes)

def dashboardTimeline (limit : ℕ) := caseEndpoint [.whole .timelineItems (some limit)]

def dashboardGraph (keepNode keepEdge : CaseRecord → Bool) (maxNodes : ℕ) :=
  caseEndpoint (graphQueries keepNode keepEdge maxNodes)

def evidenceBoard := caseEndpoint [.whole .evidenceObjects none]

def aiState := caseEndpoint [.whole .aiProposals (some 1), .whole .aiUsage (some 1)]

def sandboxState := caseEndpoint [.whole .sandboxInstances (some 1), .whole .sandboxActions (some 200)]

def dashboardStream (keep : CaseRecord → Bool) := caseEndpoint [⟨.realtimeUpdates, keep, some 101⟩]

def rebuildDashboardCase (db : Database) (p : Principal) (caseId : String) : Except Refusal String := do
  requireAnyRole p operateRoles
  requireCaseAccess db p caseId .operate
  return caseId

/-! What the dashboard is asked and what it answers. -/

inductive Request where
  | cases
  | operations
  | case (caseId : String) (keepEdge : CaseRecord → Bool) (maxNodes : ℕ)
  | timeline (caseId : String) (limit : ℕ)
  | graph (caseId : String) (keepNode keepEdge : CaseRecord → Bool) (maxNodes : ℕ)
  | evidenceBoard (caseId : String)
  | aiState (caseId : String)
  | sandboxState (caseId : String)
  | stream (caseId : String) (keep : CaseRecord → Bool)
  | rebuild (caseId : String)

inductive Answer where
  | cases (rows : List CaseRow)
  | overview (o : Overview)
  | records (rows : List CaseRecord)
  | rebuilt (caseId : String)

def serve (db : Database) (p : Principal) : Request → Except Refusal Answer
  | .cases => (dashboardCases db p).map .cases
  | .operations => (operationsOverview db p).map .overview
  | .case caseId keepEdge maxNodes => (dashboardCase keepEdge maxNodes db p caseId).map .records
  | .timeline caseId limit => (dashboardTimeline limit db p caseId).map .records
  | .graph caseId keepNode keepEdge maxNodes => (dashboardGraph keepNode keepEdge maxNodes db p caseId).map .records
  | .evidenceBoard caseId => (Mirage.CaseListing.evidenceBoard db p caseId).map .records
  | .aiState caseId => (Mirage.CaseListing.aiState db p caseId).map .records
  | .sandboxState caseId => (Mirage.CaseListing.sandboxState db p caseId).map .records
  | .stream caseId keep => (dashboardStream keep db p caseId).map .records
  | .rebuild caseId => (rebuildDashboardCase db p caseId).map .rebuilt

def Answer.mentions : Answer → List String
  | .cases rows => rows.map CaseRow.caseId
  | .overview o => o.recentOperationalAlerts.filterMap Notification.caseId
  | .records rows => rows.map CaseRecord.caseId
  | .rebuilt caseId => [caseId]

structure Agrees (db : Database) (p : Principal) : Prop where
  listing : ∀ rows, dashboardCases db p = .ok rows →
    ∀ caseId, caseId ∈ rows.map CaseRow.caseId ↔ requireCaseAccess db p caseId .read = .ok ()
  confined : ∀ request answer, serve db p request = .ok answer →
    ∀ caseId ∈ answer.mentions, requireCaseAccess db p caseId .read = .ok ()

def GrantsRead (db : Database) (p : Principal) : Prop :=
  ∀ g ∈ db.grants, g.subject = p.subject → allowed db p g.caseId .read = true

def AlertsRead (db : Database) (p : Principal) : Prop :=
  ∀ n ∈ recentNotifications db, ∀ caseId, n.caseId = some caseId → allowed db p caseId .read = true

section
variable {db : Database} {p : Principal}

theorem requireCaseAccess_iff (notGlobal : p.hasAny globalCaseRoles = false) {caseId : String}
    {permission : Permission} :
    requireCaseAccess db p caseId permission = .ok () ↔ allowed db p caseId permission = true := by
  rw [requireCaseAccess, notGlobal, Bool.false_or]
  split <;> simp_all

theorem allowed_iff {caseId : String} {permission : Permission} : allowed db p caseId permission = true ↔
    (∃ c ∈ db.cases, c.caseId = caseId ∧ c.owner = some p.username) ∨
      ∃ g ∈ db.grants, g.caseId = caseId ∧ g.subject = p.subject ∧
        (g.permission = permission ∨ g.permission = .admin) := by
  simp [allowed, and_assoc]

theorem mem_joined {row : CaseRow × Option Grant} : row ∈ joined db p ↔ row.1 ∈ db.cases ∧
    match row.2 with
    | none => ∀ g ∈ db.grants, ¬ (g.caseId = row.1.caseId ∧ g.subject = p.subject)
    | some g => g ∈ db.grants ∧ g.caseId = row.1.caseId ∧ g.subject = p.subject := by
  obtain ⟨c, found⟩ := row
  rw [joined, List.mem_flatMap]
  constructor
  · rintro ⟨c', listed, mem⟩
    split at mem
    · rename_i none
      cases List.mem_singleton.mp mem
      rw [List.filter_eq_nil_iff] at none
      refine ⟨listed, fun g known => ?_⟩
      simpa using none g known
    · obtain ⟨g, known, same⟩ := List.mem_map.mp mem
      cases same
      have facts := List.mem_filter.mp known
      rw [Bool.and_eq_true, decide_eq_true_eq, decide_eq_true_eq] at facts
      exact ⟨listed, facts⟩
  · rintro ⟨listed, facts⟩
    refine ⟨c, listed, ?_⟩
    cases found with
    | none =>
      have none : (db.grants.filter fun g => g.caseId = c.caseId && g.subject = p.subject) = [] := by
        rw [List.filter_eq_nil_iff]
        intro g known
        simpa using facts g known
      rw [none]
      exact List.mem_singleton.mpr rfl
    | some g =>
      have known : g ∈ db.grants.filter fun g => g.caseId = c.caseId && g.subject = p.subject := by
        rw [List.mem_filter, Bool.and_eq_true, decide_eq_true_eq, decide_eq_true_eq]
        exact facts
      split
      · rename_i none
        rw [none] at known
        cases known
      · exact List.mem_map.mpr ⟨g, known, rfl⟩

theorem mem_dashboardCases (notGlobal : p.hasAny globalCaseRoles = false) {rows : List CaseRow}
    (listed : dashboardCases db p = .ok rows) (few : rows.length < 500) {c : CaseRow} : c ∈ rows ↔
      c ∈ db.cases ∧ (c.owner = some p.username ∨ ∃ g ∈ db.grants, g.caseId = c.caseId ∧ g.subject = p.subject) := by
  rw [dashboardCases] at listed
  cases reads : requireAnyRole p readRoles with
  | error refusal =>
    rw [reads] at listed
    cases listed
  | ok _ =>
    rw [reads, notGlobal] at listed
    cases listed
    rw [newestCases, List.length_take] at few
    rw [newestCases, List.take_of_length_le (by omega), List.mem_insertionSort, List.mem_dedup, List.mem_map]
    constructor
    · rintro ⟨row, mem, rfl⟩
      obtain ⟨mem, shown⟩ := List.mem_filter.mp mem
      obtain ⟨known, facts⟩ := mem_joined.mp mem
      refine ⟨known, ?_⟩
      rw [Bool.or_eq_true, decide_eq_true_eq] at shown
      rcases shown with own | some
      · exact .inl own
      · obtain ⟨g, same⟩ := Option.isSome_iff_exists.mp some
        rw [same] at facts
        exact .inr ⟨g, facts⟩
    · rintro ⟨known, shown⟩
      by_cases found : ∃ g ∈ db.grants, g.caseId = c.caseId ∧ g.subject = p.subject
      · obtain ⟨g, facts⟩ := found
        refine ⟨(c, some g), List.mem_filter.mpr ⟨mem_joined.mpr ⟨known, facts⟩, ?_⟩, rfl⟩
        rw [Bool.or_eq_true]
        exact .inr rfl
      · refine ⟨(c, none), List.mem_filter.mpr ⟨mem_joined.mpr ⟨known, fun g mem facts => ?_⟩, ?_⟩, rfl⟩
        · exact found ⟨g, mem, facts⟩
        · rw [Bool.or_eq_true, decide_eq_true_eq]
          exact .inl (shown.resolve_right found)

theorem mem_rows {q : Query} {caseId : String} {r : CaseRecord} (mem : r ∈ q.rows db.records caseId) :
    r.caseId = caseId := by
  have found : ∀ r ∈ db.records.filter (fun r => r.table = q.table && r.caseId = caseId && q.keep r),
      r.caseId = caseId := by
    intro r listed
    have facts := (List.mem_filter.mp listed).2
    rw [Bool.and_eq_true, Bool.and_eq_true, decide_eq_true_eq, decide_eq_true_eq] at facts
    exact facts.1.2
  unfold Query.rows at mem
  cases limit : q.limit with
  | none =>
    rw [limit] at mem
    exact found r mem
  | some n =>
    rw [limit] at mem
    exact found r (List.mem_of_mem_take mem)

theorem caseEndpoint_confined (notGlobal : p.hasAny globalCaseRoles = false) {queries : List Query}
    {caseId : String} {answer : Answer} (served : (caseEndpoint queries db p caseId).map .records = .ok answer) :
    ∀ id ∈ answer.mentions, allowed db p id .read = true := by
  rw [caseEndpoint] at served
  cases reads : requireAnyRole p readRoles with
  | error refusal =>
    rw [reads] at served
    cases served
  | ok _ =>
    rw [reads] at served
    cases access : requireCaseAccess db p caseId .read with
    | error refusal =>
      rw [access] at served
      cases served
    | ok _ =>
      rw [access] at served
      cases served
      intro id mem
      obtain ⟨r, listed, rfl⟩ := List.mem_map.mp mem
      obtain ⟨q, -, listed⟩ := List.mem_flatMap.mp listed
      rw [mem_rows listed]
      exact (requireCaseAccess_iff notGlobal).mp access

theorem dashboardCases_ok (reads : p.hasAny readRoles = true) : ∃ rows, dashboardCases db p = .ok rows := by
  rw [dashboardCases, requireAnyRole, if_pos reads]
  cases p.hasAny globalCaseRoles <;> exact ⟨_, rfl⟩

theorem listing_iff (reads : p.hasAny readRoles = true) (notGlobal : p.hasAny globalCaseRoles = false)
    (few : ∀ rows, dashboardCases db p = .ok rows → rows.length < 500) :
    (∀ rows, dashboardCases db p = .ok rows → ∀ caseId,
      caseId ∈ rows.map CaseRow.caseId ↔ requireCaseAccess db p caseId .read = .ok ()) ↔ GrantsRead db p := by
  constructor
  · intro listing g known own
    obtain ⟨rows, listed⟩ : ∃ rows, dashboardCases db p = .ok rows := dashboardCases_ok reads
    obtain ⟨c, mem, same⟩ := List.mem_map.mp (db.granted g known)
    have shown : c ∈ rows :=
      (mem_dashboardCases notGlobal listed (few rows listed)).mpr ⟨mem, .inr ⟨g, known, same.symm, own⟩⟩
    rw [← requireCaseAccess_iff notGlobal, ← listing rows listed, ← same]
    exact List.mem_map_of_mem shown
  · intro grants rows listed caseId
    rw [requireCaseAccess_iff notGlobal, List.mem_map]
    constructor
    · rintro ⟨c, mem, rfl⟩
      obtain ⟨known, shown⟩ := (mem_dashboardCases notGlobal listed (few rows listed)).mp mem
      rcases shown with own | ⟨g, granted, same, subject⟩
      · exact allowed_iff.mpr (.inl ⟨c, known, rfl, own⟩)
      · rw [← same]
        exact grants g granted subject
    · intro access
      rcases allowed_iff.mp access with ⟨c, known, same, own⟩ | ⟨g, granted, same, subject, -⟩
      · exact ⟨c, (mem_dashboardCases notGlobal listed (few rows listed)).mpr ⟨known, .inl own⟩, same⟩
      · obtain ⟨c, known, named⟩ := List.mem_map.mp (db.granted g granted)
        refine ⟨c, ?_, named.trans same⟩
        exact (mem_dashboardCases notGlobal listed (few rows listed)).mpr ⟨known, .inr ⟨g, granted, named.symm, subject⟩⟩

theorem operationsOverview_ok (reads : p.hasAny readRoles = true) :
    ∃ o, serve db p .operations = .ok (.overview o) ∧ o.recentOperationalAlerts = recentNotifications db := by
  rw [serve, operationsOverview, requireAnyRole, if_pos reads]
  exact ⟨_, rfl, rfl⟩

theorem confined_of_reads (notGlobal : p.hasAny globalCaseRoles = false)
    (few : ∀ rows, dashboardCases db p = .ok rows → rows.length < 500) (grants : GrantsRead db p)
    (alerts : AlertsRead db p) {request : Request} {answer : Answer} (served : serve db p request = .ok answer) :
    ∀ caseId ∈ answer.mentions, allowed db p caseId .read = true := by
  cases request with
  | cases =>
    rw [serve] at served
    cases listed : dashboardCases db p with
    | error refusal =>
      rw [listed] at served
      cases served
    | ok rows =>
      rw [listed] at served
      cases served
      intro caseId mem
      obtain ⟨c, shown, rfl⟩ := List.mem_map.mp mem
      obtain ⟨known, own | ⟨g, granted, same, subject⟩⟩ :=
        (mem_dashboardCases notGlobal listed (few rows listed)).mp shown
      · exact allowed_iff.mpr (.inl ⟨c, known, rfl, own⟩)
      · rw [← same]
        exact grants g granted subject
  | operations =>
    rw [serve, operationsOverview] at served
    cases reads : requireAnyRole p readRoles with
    | error refusal =>
      rw [reads] at served
      cases served
    | ok _ =>
      rw [reads] at served
      cases served
      intro caseId mem
      obtain ⟨n, recent, about⟩ := List.mem_filterMap.mp mem
      exact alerts n recent caseId about
  | case caseId keepEdge maxNodes => exact caseEndpoint_confined notGlobal served
  | timeline caseId limit => exact caseEndpoint_confined notGlobal served
  | graph caseId keepNode keepEdge maxNodes => exact caseEndpoint_confined notGlobal served
  | evidenceBoard caseId => exact caseEndpoint_confined notGlobal served
  | aiState caseId => exact caseEndpoint_confined notGlobal served
  | sandboxState caseId => exact caseEndpoint_confined notGlobal served
  | stream caseId keep => exact caseEndpoint_confined notGlobal served
  | rebuild caseId =>
    rw [serve, rebuildDashboardCase] at served
    cases operates : requireAnyRole p operateRoles with
    | error refusal =>
      rw [operates] at served
      cases served
    | ok _ =>
      rw [operates] at served
      cases access : requireCaseAccess db p caseId .operate with
      | error refusal =>
        rw [access] at served
        cases served
      | ok _ =>
        rw [access] at served
        cases served
        intro id mem
        rw [List.mem_singleton.mp mem]
        rcases allowed_iff.mp ((requireCaseAccess_iff notGlobal).mp access) with
          own | ⟨g, granted, same, subject, -⟩
        · exact allowed_iff.mpr (.inl own)
        · rw [← same]
          exact grants g granted subject

theorem serve_refused (noRole : ¬ p.hasAny readRoles = true) (request : Request) :
    serve db p request = .error .forbidden := by
  have refused : requireAnyRole p readRoles = .error .forbidden := if_neg noRole
  have operate : requireAnyRole p operateRoles = .error .forbidden := by
    refine if_neg fun operates => noRole ?_
    obtain ⟨role, held, fits⟩ := List.any_eq_true.mp operates
    refine List.any_eq_true.mpr ⟨role, held, ?_⟩
    rw [decide_eq_true_eq] at fits ⊢
    simp only [operateRoles, readRoles, List.mem_cons, List.not_mem_nil] at fits ⊢
    tauto
  have endpoint : ∀ queries caseId, caseEndpoint queries db p caseId = .error .forbidden := by
    intro queries caseId
    rw [caseEndpoint, refused]
    rfl
  cases request with
  | cases =>
    rw [serve, dashboardCases, refused]
    rfl
  | operations =>
    rw [serve, operationsOverview, refused]
    rfl
  | case caseId keepEdge maxNodes => exact congrArg (Except.map Answer.records) (endpoint _ caseId)
  | timeline caseId limit => exact congrArg (Except.map Answer.records) (endpoint _ caseId)
  | graph caseId keepNode keepEdge maxNodes => exact congrArg (Except.map Answer.records) (endpoint _ caseId)
  | evidenceBoard caseId => exact congrArg (Except.map Answer.records) (endpoint _ caseId)
  | aiState caseId => exact congrArg (Except.map Answer.records) (endpoint _ caseId)
  | sandboxState caseId => exact congrArg (Except.map Answer.records) (endpoint _ caseId)
  | stream caseId keep => exact congrArg (Except.map Answer.records) (endpoint _ caseId)
  | rebuild caseId =>
    rw [serve, rebuildDashboardCase, operate]
    rfl

/-- For whom listing and reading agree and no answer tells of another case. -/
theorem listing_agrees_iff (db : Database) (p : Principal) (notGlobal : p.hasAny globalCaseRoles = false)
    (few : ∀ rows, dashboardCases db p = .ok rows → rows.length < 500) :
    Agrees db p ↔ (p.hasAny readRoles = true → GrantsRead db p ∧ AlertsRead db p) := by
  constructor
  · intro agrees reads
    refine ⟨(listing_iff reads notGlobal few).mp agrees.listing, fun n recent caseId about => ?_⟩
    obtain ⟨o, served, alerts⟩ := @operationsOverview_ok db p reads
    refine (requireCaseAccess_iff notGlobal).mp (agrees.confined _ _ served caseId ?_)
    rw [Answer.mentions, alerts]
    exact List.mem_filterMap.mpr ⟨n, recent, about⟩
  · intro may
    by_cases reads : p.hasAny readRoles = true
    · obtain ⟨grants, alerts⟩ := may reads
      refine ⟨(listing_iff reads notGlobal few).mpr grants, fun request answer served caseId mem => ?_⟩
      exact (requireCaseAccess_iff notGlobal).mpr (confined_of_reads notGlobal few grants alerts served caseId mem)
    · refine ⟨fun rows listed => ?_, fun request answer served => ?_⟩
      · have refused : (dashboardCases db p).map Answer.cases = .error .forbidden := serve_refused reads .cases
        rw [listed] at refused
        cases refused
      · rw [serve_refused reads request] at served
        cases served

end

def sampleAnalyst : Principal := ⟨"subject-1", "analyst", ["investigator"]⟩

def sampleDatabase (permission : Permission) : Database where
  cases := [⟨"case-1", "MONITORING", 3, "HIGH", some "analyst", 1⟩, ⟨"case-2", "ARMED", 2, "LOW", none, 2⟩]
  grants := [⟨"case-2", "subject-1", permission⟩]
  granted := by
    intro g mem
    rw [List.mem_singleton.mp mem]
    simp
  notifications := []
  records := []
  activeAgents := 1
  offlineAgents := 0
  deadLetters := 0
  evidenceFailures := 0

/-- A grant to read. -/
theorem readGrant_agrees : Agrees (sampleDatabase .read) sampleAnalyst := by
  refine (listing_agrees_iff (sampleDatabase .read) sampleAnalyst (by decide) ?_).mpr fun _ => ⟨?_, ?_⟩
  · intro rows listed
    have computed : (dashboardCases (sampleDatabase .read) sampleAnalyst).toOption.map List.length = some 2 := by
      decide
    rw [listed] at computed
    have length : rows.length = 2 := Option.some.inj computed
    omega
  · intro g mem _
    rw [List.mem_singleton.mp mem]
    decide
  · intro n mem
    cases mem

/-- A grant to operate alone: the case is listed and cannot be read. -/
theorem operateGrant_disagrees : ¬ Agrees (sampleDatabase .operate) sampleAnalyst := by
  intro agrees
  have listed : (dashboardCases (sampleDatabase .operate) sampleAnalyst).toOption.any fun rows =>
      decide ("case-2" ∈ rows.map CaseRow.caseId) := by
    decide
  cases served : dashboardCases (sampleDatabase .operate) sampleAnalyst with
  | error refusal =>
    rw [served] at listed
    cases listed
  | ok rows =>
    rw [served] at listed
    have access := (agrees.listing rows served "case-2").mp (of_decide_eq_true listed)
    exact absurd access (by decide)

end Mirage.CaseListing
