import Mirage.FingerprintGate
import Mirage.SandboxActions

/-! Where the snapshot that the fingerprint gate judges comes from. -/

namespace Mirage.SnapshotOrigin
open FingerprintGate TelemetryIngestion EventEnvelope RowLocks Fingerprint
open AgentDatabase (SnapshotRow AgentRow)
open SandboxActions (SandboxRow)

abbrev Snapshots := KeyedTable SnapshotRow.sandboxId

def payloadOf (request : TelemetryIngestion.Request) : Json :=
  (request.body.get? "payload").getD .null

def stored (submission : Submission) : SnapshotRow :=
  snapshotRow submission.request.agentId (payloadOf submission.request)

def naming (sandboxId : String) (accepted : List Submission) : List Submission :=
  accepted.filter fun submission => (stored submission).sandboxId = sandboxId

def latest (initial : Snapshots) (accepted : List Submission) (sandboxId : String) :
    Option SnapshotRow :=
  ((naming sandboxId accepted).getLast?.map stored).or (initial.find sandboxId)

/-- The agent was active, and the request came with its certificate and in its
name. -/
structure Authentic (cfg : Config) (submission : Submission) : Prop where
  certificate : requireClientCertificateSerial cfg submission.request =
    .ok submission.agent.certificateSerial
  active : submission.agent.status = .active
  agent : submission.agent.agentId = submission.request.agentId
  source : submission.request.body.get? "source_id" = some (.str submission.request.agentId)

theorem latest_append (initial : Snapshots) (accepted : List Submission) (submission : Submission)
    (sandboxId : String) :
    latest initial (accepted ++ [submission]) sandboxId =
      if sandboxId = (stored submission).sandboxId then some (stored submission)
      else latest initial accepted sandboxId := by
  unfold latest naming
  rw [List.filter_append]
  by_cases named : sandboxId = (stored submission).sandboxId
  · rw [if_pos named, List.filter_singleton, decide_eq_true named.symm]
    simp
  · have other : (stored submission).sandboxId ≠ sandboxId := fun same => named same.symm
    rw [if_neg named, List.filter_singleton, decide_eq_false other]
    simp

theorem find_storeSnapshot (db : AgentDatabase.Database) (agentId : String) (payload : Json)
    (sandboxId : String) :
    (storeSnapshot db agentId "spider.fingerprint_snapshot" payload).find sandboxId =
      if sandboxId = (snapshotRow agentId payload).sandboxId then some (snapshotRow agentId payload)
      else db.snapshots.find sandboxId := by
  rw [storeSnapshot, if_pos rfl, KeyedTable.find_upsert]
  split
  · cases held : db.snapshots.find (snapshotRow agentId payload).sandboxId with
    | none => rfl
    | some old =>
      have key := db.snapshots.key_of_find held
      rw [Option.map_some, Option.getD_some, key]
  · rfl

/-- What a request that is answered 202 leaves in the snapshot table, and what
it was checked against. -/
structure Answered (cfg : Config) (request : TelemetryIngestion.Request) (row : Option AgentRow)
    (db db' : AgentDatabase.Database) (answer : Accepted) : Prop where
  authentic : ∃ agent, row = some agent ∧ agent.status = .active ∧
    requireClientCertificateSerial cfg request = .ok agent.certificateSerial ∧
    request.body.get? "source_id" = some (.str request.agentId)
  snapshots : db'.snapshots = if isSnapshot request && !answer.replay then
    storeSnapshot db request.agentId "spider.fingerprint_snapshot" (payloadOf request)
    else db.snapshots

theorem eventTypeOf_eq_ok {body : Json} {eventType : String} (h : eventTypeOf body = .ok eventType) :
    body.get? "event_type" = some (.str eventType) := by
  unfold eventTypeOf at h
  split at h
  next named =>
    split at h
    · cases h
      exact named
    · cases h
  next => cases h
  next => cases h
  next => cases h

theorem acceptNew_snapshots {cfg : Config} {request : TelemetryIngestion.Request} {agent : AgentRow}
    {eventType : String} {n : Int} {db db' : AgentDatabase.Database} {answer : Accepted}
    (h : acceptNew cfg request agent eventType n db = .ok (db', answer)) :
    answer.replay = false ∧
      db'.snapshots = storeSnapshot db request.agentId eventType (payloadOf request) := by
  simp only [acceptNew, bind_eq_ok, require_eq_ok] at h
  obtain ⟨-, -, v, checked, -, -, -, -, -, -, done⟩ := h
  cases done
  have payload : v.payload = payloadOf request := by
    have untouched : (request.body.set "ingest_time" (.str request.now)).get? "payload" =
        request.body.get? "payload" := Json.get?_set _ _ (by decide)
    rw [payloadOf, ← untouched]
    exact (validateEvent_spec (contractChecked_eq_ok checked)).payload
  exact ⟨rfl, congrArg (storeSnapshot db request.agentId eventType) payload⟩

theorem submitTelemetry_answered {cfg : Config} {request : TelemetryIngestion.Request}
    {row : Option AgentRow} {db db' : AgentDatabase.Database} {answer : Accepted}
    (h : submitTelemetry cfg request row db = .ok (db', answer)) :
    Answered cfg request row db db' answer := by
  simp only [submitTelemetry, bind_eq_ok, require_eq_ok] at h
  obtain ⟨serial, authenticated, -, -, agent, allowed, eventType, typed, -, source, n, -, h⟩ := h
  simp only [authorise, bind_eq_ok, require_eq_ok, present_eq_ok] at allowed
  obtain ⟨agent', found, -, certified, -, active, same⟩ := allowed
  cases same
  have serial' : agent.certificateSerial = serial := of_decide_eq_true certified
  have status : agent.status = .active := by
    rw [Bool.and_eq_true] at active
    exact of_decide_eq_true active.1
  refine ⟨⟨agent, found, status, ?_, Json.isText_iff.mp source⟩, ?_⟩
  · rw [authenticated, serial']
  · have kind : isSnapshot request = decide (eventType = "spider.fingerprint_snapshot") := by
      rw [isSnapshot, eventTypeOf_eq_ok typed]
      rfl
    split at h
    · simp only [bind_eq_ok] at h
      obtain ⟨-, -, done⟩ := h
      cases done
      simp
    · obtain ⟨fresh, written⟩ := acceptNew_snapshots h
      rw [written, fresh, kind, storeSnapshot]
      by_cases snapshot : eventType = "spider.fingerprint_snapshot"
      · subst snapshot
        rfl
      · simp [snapshot]

structure Traced (cfg : Config) (initial : Snapshots) (reports : Reports) : Prop where
  rows : ∀ sandboxId, reports.db.snapshots.find sandboxId =
    latest initial reports.accepted sandboxId
  authentic : ∀ submission ∈ reports.accepted, Authentic cfg submission

theorem submitted_cases (cfg : Config) (reports : Reports) (request : TelemetryIngestion.Request) :
    ((submitted cfg reports request).accepted = reports.accepted ∧
      (submitted cfg reports request).db.snapshots = reports.db.snapshots) ∨
    ∃ agent, Authentic cfg ⟨request, agent⟩ ∧
      (submitted cfg reports request).accepted = reports.accepted ++ [⟨request, agent⟩] ∧
      (submitted cfg reports request).db.snapshots = storeSnapshot reports.db request.agentId
        "spider.fingerprint_snapshot" (payloadOf request) := by
  unfold submitted
  split
  next db answer agent ran found =>
    have answered := submitTelemetry_answered ((atomic_eq_ok _).mp ran)
    obtain ⟨agent', locked, active, certificate, source⟩ := answered.authentic
    rw [locked_eq locked] at found
    cases found
    split
    next kind =>
      refine .inr ⟨agent, ⟨certificate, active, ?_, source⟩, rfl, ?_⟩
      · exact reports.db.agents.key_of_find (locked_eq locked)
      · have written := answered.snapshots
        rwa [if_pos kind] at written
    next kind =>
      have written := answered.snapshots
      rw [if_neg kind] at written
      exact .inl ⟨rfl, written⟩
  next db outcome ran other =>
    cases outcome with
    | error e =>
      have same := atomic_raise (endpoint cfg) (congrArg Prod.snd ran)
      rw [ran] at same
      subst same
      exact .inl ⟨rfl, rfl⟩
    | ok answer =>
      have answered := submitTelemetry_answered ((atomic_eq_ok _).mp ran)
      obtain ⟨agent, locked, -⟩ := answered.authentic
      exact (other answer agent (locked_eq locked) rfl).elim

theorem submitted_traced {cfg : Config} {initial : Snapshots} {reports : Reports}
    (traced : Traced cfg initial reports) (request : TelemetryIngestion.Request) :
    Traced cfg initial (submitted cfg reports request) := by
  obtain ⟨same, kept⟩ | ⟨agent, authentic, grown, written⟩ := submitted_cases cfg reports request
  · refine ⟨fun sandboxId => ?_, ?_⟩
    · rw [same, kept]
      exact traced.rows sandboxId
    · rw [same]
      exact traced.authentic
  · refine ⟨fun sandboxId => ?_, fun submission mem => ?_⟩
    · rw [grown, written, find_storeSnapshot, latest_append, traced.rows]
      rfl
    · rw [grown, List.mem_append, List.mem_singleton] at mem
      rcases mem with before | rfl
      · exact traced.authentic submission before
      · exact authentic

theorem submitted_grows (cfg : Config) (reports : Reports) (request : TelemetryIngestion.Request) :
    reports.accepted <+: (submitted cfg reports request).accepted := by
  obtain ⟨same, -⟩ | ⟨agent, -, grown, -⟩ := submitted_cases cfg reports request
  · simp only [same, List.prefix_rfl]
  · rw [grown]
    exact List.prefix_append _ _

structure Read (cfg : Config) (initial : Snapshots) (now : Reports) (seen : Option Reports) :
    Prop where
  traced : ∀ reports, seen = some reports → Traced cfg initial reports
  earlier : ∀ reports, seen = some reports → reports.accepted <+: now.accepted

theorem Read.later {cfg : Config} {initial : Snapshots} {now now' : Reports} {seen : Option Reports}
    (read : Read cfg initial now seen) (grows : now.accepted <+: now'.accepted) :
    Read cfg initial now' seen :=
  ⟨read.traced, fun reports same => (read.earlier reports same).trans grows⟩

structure Origins (cfg : Config) (initial : Snapshots) (s : System) : Prop where
  now : Traced cfg initial s.reports
  sessions : ∀ i session, s.sessions i = some session → Read cfg initial s.reports session.seen
  history : ∀ rec ∈ s.history, Read cfg initial s.reports rec.seen

theorem origins_update {cfg : Config} {initial : Snapshots} {s : System}
    (origins : Origins cfg initial s) (i : ℕ) (opened : Option Session)
    (read : ∀ session, opened = some session → Read cfg initial s.reports session.seen) :
    ∀ j session, Function.update s.sessions i opened j = some session →
      Read cfg initial s.reports session.seen := by
  intro j session found
  by_cases same : j = i
  · subst same
    rw [Function.update_self] at found
    exact read session found
  · rw [Function.update_of_ne same] at found
    exact origins.sessions j session found

theorem origins_step (x : Externals) (cfg : Config) (initial : Snapshots) (s : System)
    (e : FingerprintGate.Event) (origins : Origins cfg initial s) :
    Origins cfg initial (FingerprintGate.step x cfg s e) := by
  have unread : Read cfg initial s.reports none :=
    ⟨fun reports same => (by cases same), fun reports same => (by cases same)⟩
  cases e with
  | start i request =>
    simp only [FingerprintGate.step]
    split
    · refine ⟨origins.now, origins_update origins i _ fun session opened => ?_, origins.history⟩
      cases opened
      exact unread
    · exact origins
  | select i =>
    simp only [FingerprintGate.step]
    split
    · split
      · refine ⟨origins.now, origins_update origins i _ fun session opened => ?_, origins.history⟩
        cases opened
        refine ⟨fun reports same => ?_, fun reports same => ?_⟩
        · cases same
          exact origins.now
        · cases same
          exact List.prefix_refl _
      · exact origins
    · exact origins
  | submit request =>
    have grows := submitted_grows cfg s.reports request
    exact ⟨submitted_traced origins.now request,
      fun i session found => (origins.sessions i session found).later grows,
      fun rec mem => (origins.history rec mem).later grows⟩
  | abort i =>
    simp only [FingerprintGate.step]
    split
    · exact ⟨origins.now, origins_update origins i none fun session none' => (by cases none'),
        origins.history⟩
    · exact origins
  | finish i commits =>
    simp only [FingerprintGate.step]
    split
    next session found =>
      split
      · exact origins
      · refine ⟨origins.now, origins_update origins i none fun session none' => (by cases none'),
          fun rec mem => ?_⟩
        rw [finished, List.mem_append, List.mem_singleton] at mem
        rcases mem with before | rfl
        · exact origins.history rec before
        · exact origins.sessions i session found
    next => exact origins

def Engages (call : GateCall) (rec : Record) : Prop :=
  rec.request = .gate call ∧ ∃ row row', rec.before.cases.find call.caseId = some row ∧
    rec.after.cases.find call.caseId = some row' ∧ row.state = .sandboxActive ∧
    row'.state = .engaging

/-- A case that is engaged through the gate was judged by the last accepted
submission that names the sandbox of the call: each accepted one came from an
active agent under its own certificate, and two runs that accept the same
submissions for a sandbox hold the same snapshot of it. -/
theorem gate_judgesLatest (x : Externals) (cfg : Config) (db₀ : CaseStateMachine.Database)
    (agents : AgentDatabase.Database) (es : List FingerprintGate.Event) :
    let s := EventRun.run (FingerprintGate.step x cfg) (start db₀ agents) es
    (∀ rec ∈ s.history, ∀ call, Engages call rec → ∃ reports report,
      rec.seen = some reports ∧ reports.accepted <+: s.reports.accepted ∧
      runFingerprintCheck x.compile call.baseline
        (observedChecks (latest agents.snapshots reports.accepted call.sandboxId)) = some report ∧
      report.passed = true) ∧
    (∀ submission ∈ s.reports.accepted, Authentic cfg submission) ∧
    ∀ es' sandboxId,
      let s' := EventRun.run (FingerprintGate.step x cfg) (start db₀ agents) es'
      naming sandboxId s'.reports.accepted = naming sandboxId s.reports.accepted →
        s'.reports.db.snapshots.find sandboxId = s.reports.db.snapshots.find sandboxId := by
  have initial : Origins cfg agents.snapshots (start db₀ agents) :=
    ⟨⟨fun sandboxId => rfl, fun submission mem => absurd mem List.not_mem_nil⟩,
      fun i session found => (by cases found), fun rec mem => absurd mem List.not_mem_nil⟩
  have origins := fun es => EventRun.run_invariant (origins_step x cfg agents.snapshots) initial es
  intro s
  refine ⟨fun rec mem call engages => ?_, (origins es).now.authentic, fun es' sandboxId same => ?_⟩
  · obtain ⟨request, row, row', before, after, active, engaging⟩ := engages
    have sound := (kept_run x cfg db₀ agents es).sound rec mem call request
    obtain ⟨-, reports, report, seen, checked, must, should, -⟩ :=
      sound.engaged call.caseId row row' before after active engaging
    have read := (origins es).history rec mem
    rw [(read.traced reports seen).rows] at checked
    exact ⟨reports, report, seen, read.earlier reports seen, checked,
      (passed_iff report).mpr ⟨must, should⟩⟩
  · rw [(origins es').now.rows, (origins es).now.rows, latest, latest, same]

def OwnSandbox (sandboxes : KeyedTable SandboxRow.sandboxId) (call : GateCall) : Prop :=
  ∃ row, sandboxes.find call.sandboxId = some row ∧ row.caseId = call.caseId

def sampleDigest : String → String := fun _ =>
  "aaaaaaaaaaaaaaaaaaaaaaaaaaaaaaaaaaaaaaaaaaaaaaaaaaaaaaaaaaaaaaaa"

def sampleExternals : Externals where
  digest := sampleDigest
  compile := fun _ => none
  ratioText := fun _ _ => "1.0"
  listText := fun _ => ""

def sampleConfig : Config := ⟨sampleDigest, "proxy-secret"⟩

def sampleCases : CaseStateMachine.Database where
  cases := ⟨[⟨"01ARZ3NDEKTSV4RRFFQ69G5FC1", .sandboxActive, 4⟩], by decide⟩
  transitions := []
  audit := []
  outbox := .empty

def sampleSandboxes : KeyedTable SandboxRow.sandboxId :=
  ⟨[⟨"sandbox-1", "01ARZ3NDEKTSV4RRFFQ69G5FC1", 0⟩, ⟨"sandbox-2", "01ARZ3NDEKTSV4RRFFQ69G5FC2", 0⟩],
    by decide⟩

def sampleAgents : AgentDatabase.Database where
  tokens := .empty
  agents := ⟨[⟨"agent-2", .spider, "MirageSpider", "02", "2027-01-02T03:04:05.678Z", "build", "host-2",
    .active, none, 0⟩], by decide⟩
  history := []
  allowlist := fun _ => none
  receipts := []
  snapshots := .empty

def sampleSubmit (sandboxId : String) : FingerprintGate.Event := .submit
  { agentId := "agent-2"
    proxyAuth := some "proxy-secret"
    clientSerial := some "02"
    body := buildEvent sampleDigest "01ARZ3NDEKTSV4RRFFQ69G5FE1" "2026-01-02T03:04:05.678Z"
      { eventType := "spider.fingerprint_snapshot"
        payload := .obj
          [ ("sandbox_id", .str sandboxId), ("observed_at", .str "2026-01-02T03:04:05.678Z"),
            ("checks", .obj (fingerprintChecks.map fun name => (name, .obj []))) ]
        sourceId := "agent-2", sequence := 1, actorType := "SPIDER_AGENT"
        classification := "EVIDENCE", caseId := none, sessionId := none }
    now := "2026-01-02T03:04:05.678Z", published := true, stored := true }

def sampleCall (sandboxId : String) : GateCall where
  caseId := "01ARZ3NDEKTSV4RRFFQ69G5FC1"
  sandboxId := sandboxId
  baseline := .obj
    [ ("target_id", .str "target"), ("baseline_version", .str "1.0.0"),
      ("checks", .obj [("hostname_domain", .obj [("comparator", .str "exact"),
        ("expected", .obj []), ("level", .str "MUST")])]) ]
  expectedVersion := 4
  actor := "orchestrator"
  actorType := "SYSTEM"
  correlationId := some "01ARZ3NDEKTSV4RRFFQ69G5FA1"
  generatedCorrelationId := "01ARZ3NDEKTSV4RRFFQ69G5FA1"
  gateEventId := "01ARZ3NDEKTSV4RRFFQ69G5FG1"
  gateAt := "2026-01-02T03:04:06.678Z"
  stateChangedId := "01ARZ3NDEKTSV4RRFFQ69G5FG2"
  stateChangedAt := "2026-01-02T03:04:06.678Z"
  auditId := "01ARZ3NDEKTSV4RRFFQ69G5FG3"
  auditAt := "2026-01-02T03:04:06.678Z"
  stored := true

def sampleGate (sandboxId : String) : List FingerprintGate.Event :=
  [.start 0 (.gate (sampleCall sandboxId)), .select 0, .finish 0 true]

def sampleRun (es : List FingerprintGate.Event) : System :=
  EventRun.run (FingerprintGate.step sampleExternals sampleConfig) (start sampleCases sampleAgents) es

def engaged (s : System) : Bool :=
  (s.db.cases.find "01ARZ3NDEKTSV4RRFFQ69G5FC1").any fun row => row.state = .engaging

def crosses (sandboxes : KeyedTable SandboxRow.sandboxId) (rec : Record) : Bool :=
  match rec.request with
  | .gate call =>
    (rec.before.cases.find call.caseId).any (fun row => row.state = .sandboxActive) &&
      (rec.after.cases.find call.caseId).any (fun row => row.state = .engaging) &&
      (sandboxes.find call.sandboxId).all fun row => row.caseId ≠ call.caseId
  | .transition _ => false

theorem engages_of_crosses {sandboxes : KeyedTable SandboxRow.sandboxId} {rec : Record}
    (crossed : crosses sandboxes rec = true) :
    ∃ call, Engages call rec ∧ ¬ OwnSandbox sandboxes call := by
  unfold crosses at crossed
  split at crossed
  next call request =>
    simp only [Bool.and_eq_true, Option.any_eq_true, decide_eq_true_eq] at crossed
    obtain ⟨⟨⟨row, before, active⟩, row', after, engaging⟩, other⟩ := crossed
    refine ⟨call, ⟨request, row, row', before, after, active, engaging⟩, fun own => ?_⟩
    obtain ⟨sandbox, found, same⟩ := own
    rw [found] at other
    exact absurd same (of_decide_eq_true other)
  next => cases crossed

/-- A case is engaged on the snapshot of another case's sandbox, and what the
agent of that sandbox reports under the id of the case's own one decides whether
the case is engaged. -/
theorem straySnapshot_engages :
    (∃ rec ∈ (sampleRun (sampleSubmit "sandbox-2" :: sampleGate "sandbox-2")).history,
      ∃ call, Engages call rec ∧ ¬ OwnSandbox sampleSandboxes call) ∧
    engaged (sampleRun (sampleSubmit "sandbox-1" :: sampleGate "sandbox-1")) = true ∧
    engaged (sampleRun (sampleGate "sandbox-1")) = false := by
  have computed : (sampleRun (sampleSubmit "sandbox-2" :: sampleGate "sandbox-2")).history.any
        (crosses sampleSandboxes) = true ∧
      engaged (sampleRun (sampleSubmit "sandbox-1" :: sampleGate "sandbox-1")) = true ∧
      engaged (sampleRun (sampleGate "sandbox-1")) = false := by
    decide +kernel
  obtain ⟨crossed, engages, idle⟩ := computed
  obtain ⟨rec, listed, crosses⟩ := List.any_eq_true.mp crossed
  exact ⟨⟨rec, listed, engages_of_crosses crosses⟩, engages, idle⟩

end Mirage.SnapshotOrigin
