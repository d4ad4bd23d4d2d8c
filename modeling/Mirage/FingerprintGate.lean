import Mirage.CaseStateMachine
import Mirage.Fingerprint
import Mirage.TelemetryIngestion

/-! fingerprint_gate: `enforce_fingerprint_gate_before_engaging` and `transition_case` on
any number of connections, while agents submit telemetry. -/

namespace Mirage.FingerprintGate
open CaseStateMachine Fingerprint EventEnvelope AuditOutbox RowLocks
open AgentDatabase (SnapshotRow)

structure Externals where
  digest : String → String
  compile : Compile
  /-- The `repr` of the quotient of two integers. -/
  ratioText : ℕ → ℕ → String
  /-- What an f-string writes for a list of texts. -/
  listText : List String → String

structure GateCall where
  caseId : String
  sandboxId : String
  baseline : Json
  expectedVersion : Int
  actor : String
  actorType : String
  correlationId : Option String
  generatedCorrelationId : String
  gateEventId : String
  gateAt : String
  stateChangedId : String
  stateChangedAt : String
  auditId : String
  auditAt : String
  stored : Bool

def GateCall.correlation (call : GateCall) : String :=
  match call.correlationId with
  | some id => if id = "" then call.generatedCorrelationId else id
  | none => call.generatedCorrelationId

def GateCall.transition (call : GateCall) (reason : String) : Call where
  caseId := call.caseId
  expectedVersion := call.expectedVersion
  actor := call.actor
  actorType := call.actorType
  reason := reason
  correlationId := some call.correlation
  generatedCorrelationId := call.generatedCorrelationId
  stateChangedId := call.stateChangedId
  stateChangedAt := call.stateChangedAt
  auditId := call.auditId
  auditAt := call.auditAt
  stored := call.stored

/-! `transition_case`, with what it has written when it raises. -/

theorem advanced_keeps (t : TransitionRow) (r : CaseRow) :
    (advanced t.toState t.newVersion r).caseId = r.caseId :=
  advanced_caseId t.toState t.newVersion r

def transitionWrites (digest : String → String) (call : Call) (t : TransitionRow) (db : Database) :
    Database × Except Failure Unit :=
  let moved := { db with
    cases := db.cases.update t.caseId (advanced t.toState t.newVersion)
      (advanced_keeps t) }
  if t.actorType ∉ ["ANALYST", "AI", "SYSTEM"] then (moved, .error .database)
  else
    let listed := { moved with transitions := db.transitions ++ [t] }
    match announce digest .contract .database "case.state_changed"
      (stateChangedEvent digest call.stateChangedId call.stateChangedAt t) db.outbox with
    | .error e => (listed, .error e)
    | .ok outbox =>
      let audited := { listed with outbox, audit := db.audit ++ [auditRow t] }
      match announce digest .contract .database "audit.recorded"
        (auditRecordedEvent digest call.auditId call.auditAt t) outbox with
      | .error e => (audited, .error e)
      | .ok outbox =>
        ({ audited with outbox }, if call.stored then .ok () else .error .database)

def transitionStatements (digest : String → String) (call : Call) (row : Option CaseRow)
    (db : Database) : Database × Except Failure TransitionResult :=
  match row with
  | none => (db, .error (.caseNotFound call.caseId))
  | some row =>
    if row.version ≠ call.expectedVersion then
      (db, .error (.optimisticLockConflict call.caseId call.expectedVersion row.version))
    else
      match allowedTransitions row.state with
      | none => (db, .error (.invalidTransition call.caseId row.state))
      | some toState =>
        let result : TransitionResult :=
          ⟨call.caseId, row.state, toState, row.version + 1, correlationOf call⟩
        let t := transitionRow call result
        if ¬ (-(2 ^ 31) ≤ t.newVersion && t.newVersion < 2 ^ 31) then (db, .error .database)
        else if ¬ (db.cases.find t.caseId).any fun r => r.version = call.expectedVersion then
          (db, .error (.optimisticLockConflict t.caseId call.expectedVersion (t.newVersion - 1)))
        else
          let (db', done) := transitionWrites digest call t db
          (db', done.map fun _ => result)

def ratioJson (x : Externals) (report : FingerprintReport) : Json :=
  let total := report.shouldChecks.length
  if total = 0 then .float "1.0" (some 1)
  else
    .float (x.ratioText report.shouldPassed total)
      (if total ∣ report.shouldPassed then some ↑(report.shouldPassed / total) else none)

def gateEvent (x : Externals) (call : GateCall) (report : FingerprintReport) : Json :=
  buildEvent x.digest call.gateEventId call.gateAt
    { eventType := "fingerprint.gate_evaluated"
      payload := .obj
        [ ("case_id", .str call.caseId), ("sandbox_id", .str call.sandboxId),
          ("baseline_version", report.baselineVersion), ("passed", .bool report.passed),
          ("all_must_passed", .bool report.allMustPassed),
          ("should_pass_ratio", ratioJson x report),
          ("failed_must_checks", .arr (report.failedMustChecks.map Json.str)),
          ("blocked", .bool !report.passed) ]
      sourceId := "mirage_common.fingerprint_gate", sequence := 1, actorType := "SYSTEM"
      classification := "EVIDENCE", caseId := some call.caseId, sessionId := none }

def gateAudit (x : Externals) (call : GateCall) (report : FingerprintReport) : AuditRow :=
  ⟨"mirage_common.fingerprint_gate", "SYSTEM",
    if report.passed then "fingerprint_gate.passed" else "fingerprint_gate.blocked", call.caseId,
    if report.passed then "SUCCESS" else "FAILURE", call.correlation,
    some (if report.passed then "MUST=100%, SHOULD>=75%"
      else "failed MUST checks: " ++ x.listText report.failedMustChecks)⟩

/-- `_evaluate_and_record` past the comparison. -/
def recordEvaluation (x : Externals) (call : GateCall) (report : FingerprintReport) (db : Database) :
    Except Failure Database := do
  let outbox ← announce x.digest .contract .database "fingerprint.gate_evaluated"
    (gateEvent x call report) db.outbox
  pure { db with outbox, audit := db.audit ++ [gateAudit x call report] }

inductive Answer where
  | returned (result : TransitionResult)
  | blocked (report : FingerprintReport)
  | raised (failure : Failure)
  /-- `run_fingerprint_check` raised. -/
  | uncomparable

structure Ended where
  view : Database
  answer : Answer

def advance (digest : String → String) (call : Call) (row : Option CaseRow) (db : Database) : Ended :=
  match transitionStatements digest call row db with
  | (db', .ok result) => ⟨db', .returned result⟩
  | (db', .error e) => ⟨db', .raised e⟩

def observedChecks (snapshot : Option SnapshotRow) : Json :=
  match snapshot with
  | some row => row.checks
  | none => .obj []

def enforceGate (x : Externals) (call : GateCall) (row : Option CaseRow)
    (snapshot : Option SnapshotRow) (db : Database) : Ended :=
  match row with
  | none => ⟨db, .raised (.caseNotFound call.caseId)⟩
  | some current =>
    if current.state ≠ .sandboxActive then
      advance x.digest
        (call.transition "advance (fingerprint gate not applicable to this transition)") row db
    else if current.version ≠ call.expectedVersion then
      ⟨db, .raised (.optimisticLockConflict call.caseId call.expectedVersion current.version)⟩
    else
      match runFingerprintCheck x.compile call.baseline (observedChecks snapshot) with
      | none => ⟨db, .uncomparable⟩
      | some report =>
        match recordEvaluation x call report db with
        | .error e => ⟨db, .raised e⟩
        | .ok recorded =>
          if report.passed then
            advance x.digest
              (call.transition "fingerprint gate passed (§6.5: MUST=100%, SHOULD>=75%)") row recorded
          else if call.stored then ⟨recorded, .blocked report⟩
          else ⟨db, .raised .database⟩

/-- What is committed in the end. -/
def Ended.committed (ended : Ended) (before : Database) (commits : Bool) : Database :=
  match ended.answer with
  | .blocked _ => ended.view
  | .raised .database => before
  | _ => if commits then ended.view else before

inductive Request where
  | gate (call : GateCall)
  | transition (call : Call)

def Request.caseId : Request → String
  | gate call => call.caseId
  | transition call => call.caseId

structure Submission where
  request : TelemetryIngestion.Request
  agent : AgentDatabase.AgentRow

structure Reports where
  db : AgentDatabase.Database
  accepted : List Submission

structure Session where
  request : Request
  row : Option CaseRow
  seen : Option Reports

def snapshotOf (seen : Option Reports) (sandboxId : String) : Option SnapshotRow :=
  seen.bind fun reports => reports.db.snapshots.find sandboxId

structure Record where
  request : Request
  commits : Bool
  seen : Option Reports
  before : Database
  after : Database
  answer : Answer

structure System where
  db : Database
  reports : Reports
  holder : String → Option ℕ
  sessions : ℕ → Option Session
  history : List Record

inductive Event where
  /-- Connection `i` opens a call and locks its case; it waits while the case is locked. -/
  | start (i : ℕ) (request : Request)
  | select (i : ℕ)
  /-- The call ends, and its caller commits or rolls back. -/
  | finish (i : ℕ) (commits : Bool)
  | abort (i : ℕ)
  | submit (request : TelemetryIngestion.Request)

def Session.gated (session : Session) : Bool :=
  match session.request with
  | .gate call => session.row.any fun r => r.state = .sandboxActive && r.version = call.expectedVersion
  | .transition _ => false

def perform (x : Externals) (session : Session) (db : Database) : Ended :=
  match session.request with
  | .gate call => enforceGate x call session.row (snapshotOf session.seen call.sandboxId) db
  | .transition call => advance x.digest call session.row db

def release (s : System) (i : ℕ) (caseId : String) : System :=
  { s with
    holder := Function.update s.holder caseId none
    sessions := Function.update s.sessions i none }

def isSnapshot (request : TelemetryIngestion.Request) : Bool :=
  Json.isText (request.body.get? "event_type") "spider.fingerprint_snapshot"

def submitted (cfg : TelemetryIngestion.Config) (reports : Reports)
    (request : TelemetryIngestion.Request) : Reports :=
  match (TelemetryIngestion.endpoint cfg).atomic request reports.db, reports.db.agents.find request.agentId with
  | (db, .ok answer), some agent =>
    if isSnapshot request && !answer.replay then ⟨db, reports.accepted ++ [⟨request, agent⟩]⟩
    else ⟨db, reports.accepted⟩
  | (db, _), _ => ⟨db, reports.accepted⟩

def finished (x : Externals) (s : System) (i : ℕ) (session : Session) (commits : Bool) : System :=
  let ended := perform x session s.db
  let after := ended.committed s.db commits
  { release s i session.request.caseId with
    db := after
    history := s.history ++ [⟨session.request, commits, session.seen, s.db, after, ended.answer⟩] }

def step (x : Externals) (cfg : TelemetryIngestion.Config) (s : System) : Event → System
  | .start i request =>
    match s.sessions i, s.holder request.caseId with
    | none, none =>
      { s with
        holder := Function.update s.holder request.caseId (some i)
        sessions := Function.update s.sessions i
          (some ⟨request, s.db.cases.find request.caseId, none⟩) }
    | _, _ => s
  | .select i =>
    match s.sessions i with
    | some ⟨request, row, none⟩ =>
      if Session.gated ⟨request, row, none⟩ then
        { s with sessions := Function.update s.sessions i (some ⟨request, row, some s.reports⟩) }
      else s
    | _ => s
  | .finish i commits =>
    match s.sessions i with
    | some session =>
      if session.gated && session.seen.isNone then s else finished x s i session commits
    | none => s
  | .abort i =>
    match s.sessions i with
    | some session => release s i session.request.caseId
    | none => s
  | .submit request => { s with reports := submitted cfg s.reports request }

def start (db : Database) (agents : AgentDatabase.Database) : System :=
  ⟨db, ⟨agents, []⟩, fun _ => none, fun _ => none, []⟩

/-! What a call does to the tables. -/

structure Grows (db db' : Database) : Prop where
  audit : ∃ rows, db'.audit = db.audit ++ rows
  outbox : ∃ rows, db'.outbox.rows = db.outbox.rows ++ rows

theorem transitionWrites_spec {digest : String → String} {call : Call} {t : TransitionRow}
    {db db' : Database} {done : Except Failure Unit}
    (h : transitionWrites digest call t db = (db', done)) :
    db'.cases = db.cases.update t.caseId (advanced t.toState t.newVersion)
      (advanced_caseId t.toState t.newVersion) ∧ Grows db db' := by
  simp only [transitionWrites] at h
  split at h
  · cases h
    exact ⟨rfl, ⟨[], (List.append_nil _).symm⟩, ⟨[], (List.append_nil _).symm⟩⟩
  · split at h
    · cases h
      exact ⟨rfl, ⟨[], (List.append_nil _).symm⟩, ⟨[], (List.append_nil _).symm⟩⟩
    next outbox first =>
      obtain ⟨topic, -, rows⟩ := announce_eq_ok first
      split at h
      · cases h
        exact ⟨rfl, ⟨_, rfl⟩, ⟨_, rows⟩⟩
      next outbox' second =>
        obtain ⟨topic', -, rows'⟩ := announce_eq_ok second
        cases h
        rw [rows, List.append_assoc] at rows'
        exact ⟨rfl, ⟨_, rfl⟩, ⟨_, rows'⟩⟩

theorem transitionStatements_cases {digest : String → String} {call : Call} {row : Option CaseRow}
    {db db' : Database} {done : Except Failure TransitionResult}
    (h : transitionStatements digest call row db = (db', done)) :
    (db' = db ∧ ∃ e, done = .error e) ∨
      ∃ current toState, row = some current ∧ current.version = call.expectedVersion ∧
        allowedTransitions current.state = some toState ∧
        db'.cases = db.cases.update call.caseId (advanced toState (current.version + 1))
          (advanced_caseId toState (current.version + 1)) ∧ Grows db db' := by
  unfold transitionStatements at h
  split at h
  · cases h
    exact .inl ⟨rfl, _, rfl⟩
  next current =>
    split at h
    · cases h
      exact .inl ⟨rfl, _, rfl⟩
    next version =>
      split at h
      · cases h
        exact .inl ⟨rfl, _, rfl⟩
      next toState allowed =>
        dsimp only at h
        split at h
        · cases h
          exact .inl ⟨rfl, _, rfl⟩
        · split at h
          · cases h
            exact .inl ⟨rfl, _, rfl⟩
          · cases h
            obtain ⟨cases', grows⟩ := transitionWrites_spec (show transitionWrites digest call
              (transitionRow call ⟨call.caseId, current.state, toState, current.version + 1,
                correlationOf call⟩) db = (_, _) from rfl)
            exact .inr ⟨current, toState, rfl, not_not.mp version, allowed, cases', grows⟩

theorem advance_view {digest : String → String} {call : Call} {row : Option CaseRow} {db : Database} :
    (advance digest call row db).view = (transitionStatements digest call row db).1 := by
  unfold advance
  split
  next ran => rw [ran]
  next ran => rw [ran]

theorem advance_cases (digest : String → String) (call : Call) (row : Option CaseRow) (db : Database) :
    (advance digest call row db).view = db ∨
      ∃ current toState, row = some current ∧ current.version = call.expectedVersion ∧
        allowedTransitions current.state = some toState ∧
        (advance digest call row db).view.cases = db.cases.update call.caseId
          (advanced toState (current.version + 1)) (advanced_caseId toState (current.version + 1)) ∧
        Grows db (advance digest call row db).view := by
  rw [advance_view]
  obtain ⟨same, -⟩ | moved := transitionStatements_cases
    (show transitionStatements digest call row db = (_, _) from rfl)
  · exact .inl same
  · exact .inr moved

theorem advance_unblocked (digest : String → String) (call : Call) (row : Option CaseRow)
    (db : Database) (report : FingerprintReport) :
    (advance digest call row db).answer ≠ .blocked report := by
  unfold advance
  split <;> simp

def gateRow (x : Externals) (call : GateCall) (report : FingerprintReport) : OutboxRow :=
  outboxRow "investigation.fingerprint_gate_evaluated" (gateEvent x call report)

structure Recorded (x : Externals) (call : GateCall) (report : FingerprintReport)
    (db db' : Database) : Prop where
  cases : db'.cases = db.cases
  transitions : db'.transitions = db.transitions
  audit : db'.audit = db.audit ++ [gateAudit x call report]
  outbox : db'.outbox.rows = db.outbox.rows ++ [gateRow x call report]

theorem recordEvaluation_spec {x : Externals} {call : GateCall} {report : FingerprintReport}
    {db db' : Database} (h : recordEvaluation x call report db = .ok db') :
    Recorded x call report db db' := by
  simp only [recordEvaluation, bind_eq_ok] at h
  obtain ⟨outbox, announced, done⟩ := h
  cases done
  obtain ⟨topic, mapped, rows⟩ := announce_eq_ok announced
  cases mapped
  exact ⟨rfl, rfl, rfl, rows⟩

structure Evaluated (x : Externals) (call : GateCall) (row : Option CaseRow)
    (snapshot : Option SnapshotRow) (report : FingerprintReport) : Prop where
  current : ∃ r, row = some r ∧ r.state = .sandboxActive ∧ r.version = call.expectedVersion
  report : runFingerprintCheck x.compile call.baseline (observedChecks snapshot) = some report

theorem enforceGate_cases (x : Externals) (call : GateCall) (row : Option CaseRow)
    (snapshot : Option SnapshotRow) (db : Database) :
    ((enforceGate x call row snapshot db).view = db ∧
      ∀ report, (enforceGate x call row snapshot db).answer ≠ .blocked report) ∨
    (∃ r reason, row = some r ∧ r.state ≠ .sandboxActive ∧
      enforceGate x call row snapshot db = advance x.digest (call.transition reason) row db) ∨
    (∃ report, Evaluated x call row snapshot report ∧ report.passed = false ∧
      Recorded x call report db (enforceGate x call row snapshot db).view ∧
      (enforceGate x call row snapshot db).answer = .blocked report) ∨
    (∃ report recorded reason, Evaluated x call row snapshot report ∧ report.passed = true ∧
      Recorded x call report db recorded ∧
      enforceGate x call row snapshot db = advance x.digest (call.transition reason) row recorded) := by
  cases row with
  | none => exact .inl ⟨rfl, fun report h => (nomatch h)⟩
  | some r =>
    simp only [enforceGate]
    split
    next other => exact .inr (.inl ⟨r, _, rfl, other, rfl⟩)
    next state =>
      split
      next => exact .inl ⟨rfl, fun report h => (nomatch h)⟩
      next version =>
        split
        next => exact .inl ⟨rfl, fun report h => (nomatch h)⟩
        next report evaluated =>
          have current : Evaluated x call (some r) snapshot report :=
            ⟨⟨r, rfl, not_not.mp state, not_not.mp version⟩, evaluated⟩
          split
          next => exact .inl ⟨rfl, fun report h => (nomatch h)⟩
          next recorded wrote =>
            have spec := recordEvaluation_spec wrote
            split
            next passed => exact .inr (.inr (.inr ⟨report, recorded, _, current, passed, spec, rfl⟩))
            next failed =>
              rw [Bool.not_eq_true] at failed
              split
              next => exact .inr (.inr (.inl ⟨report, current, failed, spec, rfl⟩))
              next => exact .inl ⟨rfl, fun report h => (nomatch h)⟩

structure GateSound (x : Externals) (call : GateCall) (rec : Record) : Prop where
  engaged : ∀ caseId row row', rec.before.cases.find caseId = some row →
    rec.after.cases.find caseId = some row' → row.state = .sandboxActive →
    row'.state = .engaging → caseId = call.caseId ∧ ∃ reports report, rec.seen = some reports ∧
      runFingerprintCheck x.compile call.baseline
        (observedChecks (reports.db.snapshots.find call.sandboxId)) = some report ∧
      (∀ c ∈ report.mustChecks, c.passed = true) ∧
      3 * report.shouldChecks.length ≤ 4 * report.shouldPassed ∧
      (gateAudit x call report).action = "fingerprint_gate.passed" ∧
      (∃ more, rec.after.audit = rec.before.audit ++ gateAudit x call report :: more) ∧
      ∃ more, rec.after.outbox.rows = rec.before.outbox.rows ++ gateRow x call report :: more
  blocked : ∀ report, rec.answer = .blocked report →
    (gateAudit x call report).action = "fingerprint_gate.blocked" ∧
      Recorded x call report rec.before rec.after
  refused : (∀ row, rec.before.cases.find call.caseId = some row →
    row.version ≠ call.expectedVersion) → rec.after = rec.before

def Chained : Database → List Record → Database → Prop
  | db, [], db' => db = db'
  | db, rec :: rest, db' => rec.before = db ∧ Chained rec.after rest db'

theorem chained_append {db db' db'' : Database} {history : List Record} {rec : Record}
    (chained : Chained db history db') (before : rec.before = db') (after : rec.after = db'') :
    Chained db (history ++ [rec]) db'' := by
  induction history generalizing db with
  | nil =>
    cases chained
    exact ⟨before, after⟩
  | cons head rest ih => exact ⟨chained.1, ih chained.2⟩

theorem committed_cases (ended : Ended) (before : Database) (commits : Bool) :
    ended.committed before commits = ended.view ∨ ended.committed before commits = before := by
  unfold Ended.committed
  split
  · exact .inl rfl
  · exact .inr rfl
  · cases commits
    · exact .inr rfl
    · exact .inl rfl

theorem committed_of_unchanged {ended : Ended} {before : Database} (same : ended.view = before)
    (commits : Bool) : ended.committed before commits = before := by
  rcases committed_cases ended before commits with view | before'
  · rw [view, same]
  · exact before'

theorem find_advanced {db db' : Database} {call : Call} {current : CaseRow} {toState : CaseState}
    (moved : db'.cases = db.cases.update call.caseId (advanced toState (current.version + 1))
      (advanced_caseId toState (current.version + 1)))
    {caseId : String} (other : caseId ≠ call.caseId) :
    db'.cases.find caseId = db.cases.find caseId := by
  rw [moved, KeyedTable.find_update, if_neg other]

theorem advance_moves {digest : String → String} (call : Call) {row : Option CaseRow}
    {db : Database} (locked : row = db.cases.find call.caseId) {caseId : String} {r r' : CaseRow}
    (before : db.cases.find caseId = some r)
    (after : (advance digest call row db).view.cases.find caseId = some r')
    (moved : r'.state ≠ r.state) : caseId = call.caseId ∧ row = some r ∧
      Grows db (advance digest call row db).view := by
  obtain same | ⟨current, toState, found, -, -, cases', grows⟩ := advance_cases digest call row db
  · rw [same, before] at after
    cases after
    exact absurd rfl moved
  · by_cases own : caseId = call.caseId
    · rw [own] at before
      exact ⟨own, locked.trans before, grows⟩
    · rw [find_advanced cases' own, before] at after
      cases after
      exact absurd rfl moved

theorem gate_refused {x : Externals} {call : GateCall} {row : Option CaseRow}
    {snapshot : Option SnapshotRow} {db : Database}
    (stale : ∀ r, row = some r → r.version ≠ call.expectedVersion) :
    (enforceGate x call row snapshot db).view = db := by
  obtain ⟨same, -⟩ | ⟨r, reason, -, -, advances⟩ | ⟨report, evaluated, -⟩ |
    ⟨report, recorded, reason, evaluated, -⟩ := enforceGate_cases x call row snapshot db
  · exact same
  · rw [advances]
    obtain same | ⟨current, -, found, version, -⟩ := advance_cases x.digest (call.transition reason) row db
    · exact same
    · exact absurd version (stale current found)
  · obtain ⟨r, found, -, version⟩ := evaluated.current
    exact absurd version (stale r found)
  · obtain ⟨r, found, -, version⟩ := evaluated.current
    exact absurd version (stale r found)

theorem gate_moves {x : Externals} {call : GateCall} {row : Option CaseRow}
    {snapshot : Option SnapshotRow} {db : Database} (locked : row = db.cases.find call.caseId)
    {caseId : String} {r r' : CaseRow} (before : db.cases.find caseId = some r)
    (after : (enforceGate x call row snapshot db).view.cases.find caseId = some r')
    (active : r.state = .sandboxActive) (moved : r'.state ≠ r.state) :
    caseId = call.caseId ∧ ∃ report recorded, Evaluated x call row snapshot report ∧
      report.passed = true ∧ Recorded x call report db recorded ∧
      Grows recorded (enforceGate x call row snapshot db).view := by
  obtain ⟨same, -⟩ | ⟨r₀, reason, found, other, advances⟩ | ⟨report, -, -, recorded, -⟩ |
    ⟨report, recorded, reason, evaluated, passed, spec, advances⟩ :=
      enforceGate_cases x call row snapshot db
  · rw [same, before] at after
    cases after
    exact absurd rfl moved
  · rw [advances] at after
    obtain ⟨-, found', -⟩ := advance_moves (call.transition reason) locked before after moved
    rw [found] at found'
    cases found'
    exact absurd active other
  · rw [recorded.cases, before] at after
    cases after
    exact absurd rfl moved
  · rw [advances] at after ⊢
    rw [← spec.cases] at before locked
    obtain ⟨own, -, grows⟩ := advance_moves (call.transition reason) locked before after moved
    exact ⟨own, report, recorded, evaluated, passed, spec, grows⟩

theorem gate_blocked {x : Externals} {call : GateCall} {row : Option CaseRow}
    {snapshot : Option SnapshotRow} {db : Database} {report : FingerprintReport}
    (answer : (enforceGate x call row snapshot db).answer = .blocked report) :
    report.passed = false ∧ Recorded x call report db (enforceGate x call row snapshot db).view := by
  obtain ⟨-, never⟩ | ⟨r, reason, -, -, advances⟩ | ⟨report', -, failed, recorded, same⟩ |
    ⟨_, recorded, reason, -, -, -, advances⟩ := enforceGate_cases x call row snapshot db
  · exact absurd answer (never report)
  · rw [advances] at answer
    exact absurd answer (advance_unblocked _ _ _ _ _)
  · rw [same] at answer
    cases answer
    exact ⟨failed, recorded⟩
  · rw [advances] at answer
    exact absurd answer (advance_unblocked _ _ _ _ _)

theorem gate_sound {x : Externals} {call : GateCall} {session : Session} {db : Database}
    (request : session.request = .gate call) (locked : session.row = db.cases.find call.caseId)
    (selected : session.gated = true → session.seen.isSome = true) (commits : Bool) :
    GateSound x call ⟨session.request, commits, session.seen, db,
      (perform x session db).committed db commits, (perform x session db).answer⟩ := by
  have performs : perform x session db =
      enforceGate x call session.row (snapshotOf session.seen call.sandboxId) db := by
    rw [perform, request]
  have seen : ∀ {report}, Evaluated x call session.row (snapshotOf session.seen call.sandboxId) report →
      ∃ reports, session.seen = some reports ∧ runFingerprintCheck x.compile call.baseline
        (observedChecks (reports.db.snapshots.find call.sandboxId)) = some report := by
    intro report evaluated
    obtain ⟨r, found, active, version⟩ := evaluated.current
    have gated : session.gated = true := by
      simp [Session.gated, request, found, active, version]
    obtain ⟨reports, same⟩ := Option.isSome_iff_exists.mp (selected gated)
    refine ⟨reports, same, ?_⟩
    have checked := evaluated.report
    rwa [same] at checked
  rw [performs]
  generalize snapshotOf session.seen call.sandboxId = snapshot at seen ⊢
  refine ⟨fun caseId row row' before after active engaging => ?_, fun report answer => ?_,
    fun stale => ?_⟩
  · have moved : row'.state ≠ row.state := by
      rw [active, engaging]
      simp
    dsimp only at before after ⊢
    rcases committed_cases (enforceGate x call session.row snapshot db) db commits with view | same
    · rw [view] at after ⊢
      obtain ⟨own, report, recorded, evaluated, passed, spec, ⟨more, audit⟩, ⟨more', outbox⟩⟩ :=
        gate_moves locked before after active moved
      obtain ⟨reports, same, checked⟩ := seen evaluated
      obtain ⟨must, should⟩ := (passed_iff report).mp passed
      refine ⟨own, reports, report, same, checked, must, should, ?_, ⟨more, ?_⟩, ⟨more', ?_⟩⟩
      · rw [gateAudit, passed, if_pos rfl]
      · rw [audit, spec.audit, List.append_assoc]
        rfl
      · rw [outbox, spec.outbox, List.append_assoc]
        rfl
    · rw [same, before] at after
      cases after
      exact absurd rfl moved
  · obtain ⟨failed, recorded⟩ := gate_blocked answer
    refine ⟨by rw [gateAudit, failed, if_neg Bool.false_ne_true], ?_⟩
    dsimp only at answer ⊢
    rw [Ended.committed, answer]
    exact recorded
  · refine committed_of_unchanged (gate_refused fun r found => stale r ?_) commits
    rw [← locked]
    exact found

structure Current (s : System) : Prop where
  held : ∀ i session, s.sessions i = some session → s.holder session.request.caseId = some i
  row : ∀ i session, s.sessions i = some session →
    session.row = s.db.cases.find session.request.caseId

theorem advance_frame (digest : String → String) (call : Call) (row : Option CaseRow) (db : Database)
    {caseId : String} (other : caseId ≠ call.caseId) :
    (advance digest call row db).view.cases.find caseId = db.cases.find caseId := by
  obtain same | ⟨current, toState, -, -, -, cases', -⟩ := advance_cases digest call row db
  · rw [same]
  · exact find_advanced cases' other

theorem perform_frame (x : Externals) (session : Session) (db : Database) {caseId : String}
    (other : caseId ≠ session.request.caseId) :
    (perform x session db).view.cases.find caseId = db.cases.find caseId := by
  obtain ⟨request, row, seen⟩ := session
  cases request with
  | transition call => exact advance_frame x.digest call row db other
  | gate call =>
    show (enforceGate x call row (snapshotOf seen call.sandboxId) db).view.cases.find caseId = _
    obtain ⟨same, -⟩ | ⟨r, reason, -, -, advances⟩ | ⟨report, -, -, recorded, -⟩ |
      ⟨report, recorded, reason, -, -, spec, advances⟩ :=
        enforceGate_cases x call row (snapshotOf seen call.sandboxId) db
    · rw [same]
    · rw [advances]
      exact advance_frame x.digest (call.transition reason) row db other
    · rw [recorded.cases]
    · rw [advances, ← spec.cases]
      exact advance_frame x.digest (call.transition reason) row recorded other

theorem Current.release {s : System} (current : Current s) {i : ℕ} {session : Session}
    (open' : s.sessions i = some session) {db : Database} {reports : Reports} {history : List Record}
    (frame : ∀ caseId, caseId ≠ session.request.caseId →
      db.cases.find caseId = s.db.cases.find caseId) :
    Current { release s i session.request.caseId with db, reports, history } := by
  have others : ∀ j session', Function.update s.sessions i none j = some session' →
      s.sessions j = some session' ∧ session'.request.caseId ≠ session.request.caseId := by
    intro j session' found
    by_cases same : j = i
    · subst same
      rw [Function.update_self] at found
      cases found
    · rw [Function.update_of_ne same] at found
      refine ⟨found, fun equal => same ?_⟩
      have held := current.held j session' found
      rw [equal, current.held i session open'] at held
      exact (Option.some.inj held).symm
  refine ⟨fun j session' found => ?_, fun j session' found => ?_⟩
  · obtain ⟨before, other⟩ := others j session' found
    show Function.update s.holder session.request.caseId none session'.request.caseId = some j
    rw [Function.update_of_ne other]
    exact current.held j session' before
  · obtain ⟨before, other⟩ := others j session' found
    rw [current.row j session' before]
    exact (frame _ other).symm

theorem Current.start {s : System} (current : Current s) {i : ℕ} {request : Request}
    (free : s.holder request.caseId = none) :
    Current { s with
      holder := Function.update s.holder request.caseId (some i)
      sessions := Function.update s.sessions i
        (some ⟨request, s.db.cases.find request.caseId, none⟩) } := by
  refine ⟨fun j session found => ?_, fun j session found => ?_⟩
  · by_cases same : j = i
    · subst same
      simp only [Function.update_self, Option.some.injEq] at found
      subst found
      exact Function.update_self _ _ _
    · simp only [Function.update_of_ne same] at found
      have held := current.held j session found
      have other : session.request.caseId ≠ request.caseId := by
        intro equal
        rw [equal, free] at held
        cases held
      show Function.update s.holder request.caseId (some i) session.request.caseId = some j
      rw [Function.update_of_ne other]
      exact held
  · by_cases same : j = i
    · subst same
      simp only [Function.update_self, Option.some.injEq] at found
      subst found
      rfl
    · simp only [Function.update_of_ne same] at found
      exact current.row j session found

theorem Current.select {s : System} (current : Current s) {i : ℕ} {request : Request}
    {row : Option CaseRow} (found : s.sessions i = some ⟨request, row, none⟩) (reports : Reports) :
    Current { s with sessions := Function.update s.sessions i (some ⟨request, row, some reports⟩) } := by
  refine ⟨fun j session found' => ?_, fun j session found' => ?_⟩
  · by_cases same : j = i
    · subst same
      simp only [Function.update_self, Option.some.injEq] at found'
      subst found'
      exact current.held j ⟨request, row, none⟩ found
    · simp only [Function.update_of_ne same] at found'
      exact current.held j session found'
  · by_cases same : j = i
    · subst same
      simp only [Function.update_self, Option.some.injEq] at found'
      subst found'
      exact current.row j ⟨request, row, none⟩ found
    · simp only [Function.update_of_ne same] at found'
      exact current.row j session found'

structure Kept (x : Externals) (db₀ : Database) (s : System) : Prop where
  current : Current s
  sound : ∀ rec ∈ s.history, ∀ call, rec.request = .gate call → GateSound x call rec
  chained : Chained db₀ s.history s.db

theorem kept_step (x : Externals) (cfg : TelemetryIngestion.Config) (db₀ : Database) (s : System)
    (e : Event) (kept : Kept x db₀ s) : Kept x db₀ (step x cfg s e) := by
  obtain ⟨current, sound, chained⟩ := kept
  cases e with
  | start i request =>
    simp only [step]
    split
    next free => exact ⟨current.start free, sound, chained⟩
    next => exact ⟨current, sound, chained⟩
  | select i =>
    simp only [step]
    split
    next found =>
      split
      · exact ⟨current.select found s.reports, sound, chained⟩
      · exact ⟨current, sound, chained⟩
    next => exact ⟨current, sound, chained⟩
  | submit request => exact ⟨⟨current.held, current.row⟩, sound, chained⟩
  | abort i =>
    simp only [step]
    split
    next session found => exact ⟨current.release found fun _ _ => rfl, sound, chained⟩
    next => exact ⟨current, sound, chained⟩
  | finish i commits =>
    simp only [step]
    split
    next session found =>
      split
      · exact ⟨current, sound, chained⟩
      next ready =>
        refine ⟨current.release found fun caseId other => ?_, fun rec mem call request => ?_,
          chained_append chained rfl rfl⟩
        · rcases committed_cases (perform x session s.db) s.db commits with view | same
          · rw [view]
            exact perform_frame x session s.db other
          · rw [same]
        · rw [finished, List.mem_append, List.mem_singleton] at mem
          rcases mem with before | rfl
          · exact sound rec before call request
          · have row := current.row i session found
            dsimp only at request
            rw [request] at row
            refine gate_sound request row (fun gated => ?_) commits
            cases seen : session.seen with
            | some reports => rfl
            | none => simp [gated, seen] at ready
    next => exact ⟨current, sound, chained⟩

theorem kept_run (x : Externals) (cfg : TelemetryIngestion.Config) (db₀ : Database)
    (agents : AgentDatabase.Database) (es : List Event) :
    Kept x db₀ (EventRun.run (step x cfg) (start db₀ agents) es) := by
  refine EventRun.run_invariant (kept_step x cfg db₀) ?_ es
  exact ⟨⟨fun i session found => (nomatch found), fun i session found => (nomatch found)⟩,
    fun rec mem => absurd mem List.not_mem_nil, rfl⟩

/-- Whatever connections do in whatever order, a case is engaged through the
gate only by a passed evaluation that is recorded with the move, a blocked one
is recorded and moves nothing, and a stale or missing case records nothing. -/
theorem gate_enforced (x : Externals) (cfg : TelemetryIngestion.Config) (db₀ : Database)
    (agents : AgentDatabase.Database) (es : List Event) :
    let s := EventRun.run (step x cfg) (start db₀ agents) es
    Chained db₀ s.history s.db ∧
      ∀ rec ∈ s.history, ∀ call, rec.request = .gate call → GateSound x call rec := by
  have kept := kept_run x cfg db₀ agents es
  exact ⟨kept.chained, kept.sound⟩

end Mirage.FingerprintGate
