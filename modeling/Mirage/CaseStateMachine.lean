import Mirage.AuditOutbox

/-! The case lifecycle: `transition_case` as one transaction that locks the case row,
checks the expected version, advances the state by one step and writes the transition, its
audit row and the two outbox events. -/

namespace Mirage.CaseStateMachine
open EventEnvelope AuditOutbox RowLocks

inductive CaseState where
  | created
  | armed
  | monitoring
  | steeringPending
  | sandboxActive
  | engaging
  | concluding
  | evidenceVerifying
  | exported
  | destroyed
  deriving DecidableEq

def CaseState.text : CaseState → String
  | created => "CREATED"
  | armed => "ARMED"
  | monitoring => "MONITORING"
  | steeringPending => "STEERING_PENDING"
  | sandboxActive => "SANDBOX_ACTIVE"
  | engaging => "ENGAGING"
  | concluding => "CONCLUDING"
  | evidenceVerifying => "EVIDENCE_VERIFYING"
  | exported => "EXPORTED"
  | destroyed => "DESTROYED"

def allowedTransitions : CaseState → Option CaseState
  | .created => some .armed
  | .armed => some .monitoring
  | .monitoring => some .steeringPending
  | .steeringPending => some .sandboxActive
  | .sandboxActive => some .engaging
  | .engaging => some .concluding
  | .concluding => some .evidenceVerifying
  | .evidenceVerifying => some .exported
  | .exported => some .destroyed
  | .destroyed => none

structure CaseRow where
  caseId : String
  state : CaseState
  version : Int

structure TransitionRow where
  caseId : String
  fromState : CaseState
  toState : CaseState
  actor : String
  actorType : String
  reason : String
  newVersion : Int
  correlationId : String

structure Database where
  cases : KeyedTable CaseRow.caseId
  transitions : List TransitionRow
  audit : List AuditRow
  outbox : Outbox

structure Call where
  caseId : String
  expectedVersion : Int
  actor : String
  actorType : String
  reason : String
  correlationId : Option String
  generatedCorrelationId : String
  stateChangedId : String
  stateChangedAt : String
  auditId : String
  auditAt : String
  stored : Bool

inductive Failure where
  | caseNotFound (caseId : String)
  | optimisticLockConflict (caseId : String) (expectedVersion actualVersion : Int)
  | invalidTransition (caseId : String) (currentState : CaseState)
  | contract (error : ContractError)
  /-- A violated constraint, a lost connection, a failed commit. -/
  | database
  deriving DecidableEq

structure TransitionResult where
  caseId : String
  fromState : CaseState
  toState : CaseState
  newVersion : Int
  correlationId : String
  deriving DecidableEq

def correlationOf (call : Call) : String :=
  match call.correlationId with
  | some id => if id = "" then call.generatedCorrelationId else id
  | none => call.generatedCorrelationId

def transitionRow (call : Call) (r : TransitionResult) : TransitionRow :=
  ⟨r.caseId, r.fromState, r.toState, call.actor, call.actorType, call.reason, r.newVersion,
    r.correlationId⟩

def caseEvent (digest : String → String) (eventId now eventType : String) (t : TransitionRow)
    (payload : List (String × Json)) : Json :=
  buildEvent digest eventId now
    { eventType, payload := .obj payload, sourceId := "mirage_common.case_state_machine",
      sequence := t.newVersion, actorType := t.actorType, classification := "INTERNAL",
      caseId := some t.caseId, sessionId := none }

def stateChangedEvent (digest : String → String) (eventId now : String) (t : TransitionRow) : Json :=
  caseEvent digest eventId now "case.state_changed" t
    [ ("case_id", .str t.caseId), ("from_state", .str t.fromState.text),
      ("to_state", .str t.toState.text), ("actor", .str t.actor),
      ("actor_type", .str t.actorType), ("reason", .str t.reason),
      ("new_version", .int t.newVersion), ("correlation_id", .str t.correlationId) ]

def auditAction (fromState toState : CaseState) : String :=
  "case.transition." ++ fromState.text ++ "_to_" ++ toState.text

def auditRow (t : TransitionRow) : AuditRow :=
  ⟨t.actor, t.actorType, auditAction t.fromState t.toState, t.caseId, "SUCCESS", t.correlationId,
    some t.reason⟩

def auditRecordedEvent (digest : String → String) (eventId now : String) (t : TransitionRow) : Json :=
  caseEvent digest eventId now "audit.recorded" t
    [ ("actor", .str t.actor), ("actor_type", .str t.actorType),
      ("action", .str (auditAction t.fromState t.toState)), ("target", .str t.caseId),
      ("outcome", .str "SUCCESS"), ("correlation_id", .str t.correlationId),
      ("detail", .str t.reason) ]

def advanced (state : CaseState) (version : Int) (r : CaseRow) : CaseRow :=
  { r with state, version }

theorem advanced_caseId (state : CaseState) (version : Int) (r : CaseRow) :
    (advanced state version r).caseId = r.caseId := rfl

def recordTransition (digest : String → String) (call : Call) (t : TransitionRow) (db : Database) :
    Except Failure Database := do
  -- `version` and `new_version` are INTEGER columns
  require (-(2 ^ 31) ≤ t.newVersion && t.newVersion < 2 ^ 31) .database
  require ((db.cases.find t.caseId).any fun r => r.version = call.expectedVersion)
    (.optimisticLockConflict t.caseId call.expectedVersion (t.newVersion - 1))
  require (t.actorType ∈ ["ANALYST", "AI", "SYSTEM"]) .database
  let outbox ← announce digest .contract .database "case.state_changed"
    (stateChangedEvent digest call.stateChangedId call.stateChangedAt t) db.outbox
  let outbox ← announce digest .contract .database "audit.recorded"
    (auditRecordedEvent digest call.auditId call.auditAt t) outbox
  require call.stored .database
  pure { db with
    cases := db.cases.update t.caseId (advanced t.toState t.newVersion)
      (advanced_caseId t.toState t.newVersion)
    transitions := db.transitions ++ [t]
    audit := db.audit ++ [auditRow t]
    outbox }

def transitionCase (digest : String → String) (call : Call) (row : Option CaseRow)
    (db : Database) : Except Failure (Database × TransitionResult) := do
  let row ← present row (.caseNotFound call.caseId)
  require (row.version = call.expectedVersion)
    (.optimisticLockConflict call.caseId call.expectedVersion row.version)
  let toState ← present (allowedTransitions row.state) (.invalidTransition call.caseId row.state)
  let result : TransitionResult :=
    ⟨call.caseId, row.state, toState, row.version + 1, correlationOf call⟩
  let db ← recordTransition digest call (transitionRow call result) db
  pure (db, result)

structure Transitioned (digest : String → String) (call : Call) (row : CaseRow) (db db' : Database)
    (r : TransitionResult) : Prop where
  caseId : r.caseId = call.caseId
  version : row.version = call.expectedVersion
  fromState : r.fromState = row.state
  allowed : allowedTransitions row.state = some r.toState
  newVersion : r.newVersion = row.version + 1
  cases : db'.cases = db.cases.update call.caseId (advanced r.toState r.newVersion)
    (advanced_caseId r.toState r.newVersion)
  transitions : db'.transitions = db.transitions ++ [transitionRow call r]
  audit : db'.audit = db.audit ++ [auditRow (transitionRow call r)]
  outbox : db'.outbox.rows = db.outbox.rows ++
    [ outboxRow "investigation.case.state_changed" (stateChangedEvent digest call.stateChangedId
        call.stateChangedAt (transitionRow call r)),
      outboxRow "audit.recorded" (auditRecordedEvent digest call.auditId call.auditAt
        (transitionRow call r)) ]

theorem transitionCase_spec {digest : String → String} {call : Call} {row : Option CaseRow}
    {db db' : Database} {r : TransitionResult}
    (h : transitionCase digest call row db = .ok (db', r)) :
    ∃ row', row = some row' ∧ Transitioned digest call row' db db' r := by
  simp only [transitionCase, recordTransition, bind_eq_ok, require_eq_ok, present_eq_ok] at h
  obtain ⟨row', found, -, version, toState, allowed, db₁, wrote, h⟩ := h
  obtain ⟨-, -, -, -, -, -, outbox₁, first, outbox₂, second, -, -, stored⟩ := wrote
  simp only [pure, Except.pure, Except.ok.injEq, Prod.mk.injEq] at h stored
  obtain ⟨rfl, rfl⟩ := h
  subst stored
  obtain ⟨topic, mapped, rows₁⟩ := announce_eq_ok first
  obtain ⟨topic', mapped', rows₂⟩ := announce_eq_ok second
  cases mapped
  cases mapped'
  refine ⟨row', found, rfl, by simpa using version, rfl, allowed, rfl, rfl, rfl, rfl, ?_⟩
  dsimp only
  rw [rows₂, rows₁, List.append_assoc]
  rfl

def lifecycle (digest : String → String) :
    Discipline String CaseRow Database Call Failure TransitionResult where
  row db caseId := db.cases.find caseId
  lockKey call := some call.caseId
  exec call row db := transitionCase digest call row db
  frame := by
    intro call row db db' r h k apart
    obtain ⟨row', -, done⟩ := transitionCase_spec h
    have other : k ≠ call.caseId := fun same => apart (congrArg some same.symm)
    rw [done.cases, KeyedTable.find_update, if_neg other]

def Chain : CaseState → Int → List TransitionRow → CaseState → Int → Prop
  | state, version, [], state', version' => state = state' ∧ version = version'
  | state, version, t :: rest, state', version' =>
    t.fromState = state ∧ t.newVersion = version + 1 ∧
      allowedTransitions state = some t.toState ∧
      Chain t.toState t.newVersion rest state' version'

theorem chain_append {state state' : CaseState} {version version' : Int} {ts : List TransitionRow}
    (chain : Chain state version ts state' version') {t : TransitionRow}
    (fromState : t.fromState = state') (newVersion : t.newVersion = version' + 1)
    (allowed : allowedTransitions state' = some t.toState) :
    Chain state version (ts ++ [t]) t.toState t.newVersion := by
  induction ts generalizing state version with
  | nil =>
    obtain ⟨rfl, rfl⟩ := chain
    exact ⟨fromState, newVersion, allowed, rfl, rfl⟩
  | cons head rest ih =>
    obtain ⟨first, next, step, later⟩ := chain
    exact ⟨first, next, step, ih later⟩

theorem chain_length {state state' : CaseState} {version version' : Int} {ts : List TransitionRow}
    (chain : Chain state version ts state' version') : version' = version + ts.length := by
  induction ts generalizing state version with
  | nil => simp [chain.2]
  | cons head rest ih =>
    obtain ⟨-, next, -, later⟩ := chain
    have := ih later
    simp only [List.length_cons]
    omega

theorem chain_versions {state state' : CaseState} {version version' : Int}
    {ts : List TransitionRow} (chain : Chain state version ts state' version') :
    ts.map TransitionRow.newVersion = (List.range ts.length).map fun i : ℕ => version + 1 + (i : Int) := by
  induction ts generalizing state version with
  | nil => rfl
  | cons head rest ih =>
    obtain ⟨-, next, -, later⟩ := chain
    rw [List.map_cons, ih later, List.length_cons, List.range_succ_eq_map, List.map_cons,
      List.map_map, next]
    congr 1
    · simp
    · apply List.map_congr_left
      intro i _
      simp only [Function.comp_apply]
      omega

def CaseState.rank : CaseState → ℕ
  | created => 0
  | armed => 1
  | monitoring => 2
  | steeringPending => 3
  | sandboxActive => 4
  | engaging => 5
  | concluding => 6
  | evidenceVerifying => 7
  | exported => 8
  | destroyed => 9

theorem rank_allowed {state next : CaseState} (allowed : allowedTransitions state = some next) :
    next.rank = state.rank + 1 := by
  cases state <;> cases allowed <;> rfl

theorem chain_rank {state state' : CaseState} {version version' : Int} {ts : List TransitionRow}
    (chain : Chain state version ts state' version') {t : TransitionRow} (mem : t ∈ ts) :
    t.newVersion - t.fromState.rank = version + 1 - state.rank := by
  induction ts generalizing state version with
  | nil => cases mem
  | cons head rest ih =>
    obtain ⟨first, next, step, later⟩ := chain
    rcases List.mem_cons.mp mem with rfl | mem
    · rw [first, next]
    · have := ih later mem
      have := rank_allowed step
      omega

theorem chain_allowed {state state' : CaseState} {version version' : Int}
    {ts : List TransitionRow} (chain : Chain state version ts state' version') {t : TransitionRow}
    (mem : t ∈ ts) : allowedTransitions t.fromState = some t.toState := by
  induction ts generalizing state version with
  | nil => cases mem
  | cons head rest ih =>
    obtain ⟨first, -, step, later⟩ := chain
    rcases List.mem_cons.mp mem with rfl | mem
    · rw [first]
      exact step
    · exact ih later mem

theorem chain_bound {state state' : CaseState} {version version' : Int} {ts : List TransitionRow}
    (chain : Chain state version ts state' version') {t : TransitionRow} (mem : t ∈ ts) :
    t.newVersion ≤ version' := by
  have listed : t.newVersion ∈ ts.map TransitionRow.newVersion := List.mem_map_of_mem mem
  rw [chain_versions chain] at listed
  obtain ⟨i, hi, same⟩ := List.mem_map.mp listed
  have := List.mem_range.mp hi
  have := chain_length chain
  omega

def transitionsOf (db : Database) (caseId : String) : List TransitionRow :=
  db.transitions.filter fun t => t.caseId = caseId

theorem mem_transitionsOf {db : Database} {t : TransitionRow} (h : t ∈ db.transitions) :
    t ∈ transitionsOf db t.caseId := by
  simp [transitionsOf, h]

def committed (log : List (Call × Except Failure TransitionResult)) :
    List (Call × TransitionResult) :=
  log.filterMap fun
    | (call, .ok r) => some (call, r)
    | (_, .error _) => none

def stateChangedRow (digest : String → String) (eventId now : String) (t : TransitionRow) :
    OutboxRow :=
  outboxRow "investigation.case.state_changed" (stateChangedEvent digest eventId now t)

def auditRecordedRow (digest : String → String) (eventId now : String) (t : TransitionRow) :
    OutboxRow :=
  outboxRow "audit.recorded" (auditRecordedEvent digest eventId now t)

def outboxRows (digest : String → String) (c : Call × TransitionResult) : List OutboxRow :=
  [ stateChangedRow digest c.1.stateChangedId c.1.stateChangedAt (transitionRow c.1 c.2),
    auditRecordedRow digest c.1.auditId c.1.auditAt (transitionRow c.1 c.2) ]

def versionKey (t : TransitionRow) : String × Int := (t.caseId, t.newVersion)

/-- The four tables after a run are what the committed calls wrote, and every
case is at the end of the chain of its transitions. -/
structure Ledger (digest : String → String) (db₀ db : Database)
    (log : List (Call × Except Failure TransitionResult)) : Prop where
  transitions : db.transitions = (committed log).map fun c => transitionRow c.1 c.2
  audit : db.audit = db₀.audit ++ db.transitions.map auditRow
  outbox : db.outbox.rows = db₀.outbox.rows ++ (committed log).flatMap (outboxRows digest)
  expected : ∀ c ∈ committed log, c.2.caseId = c.1.caseId ∧ c.2.newVersion = c.1.expectedVersion + 1
  unique : (db.transitions.map versionKey).Nodup
  known : ∀ t ∈ db.transitions, ∃ row₀, db₀.cases.find t.caseId = some row₀
  same : ∀ caseId row, db.cases.find caseId = some row → ∃ row₀, db₀.cases.find caseId = some row₀
  chain : ∀ caseId row₀, db₀.cases.find caseId = some row₀ → ∃ row, db.cases.find caseId = some row ∧
    Chain row₀.state row₀.version (transitionsOf db caseId) row.state row.version

theorem committed_append (log : List (Call × Except Failure TransitionResult)) (call : Call)
    (outcome : Except Failure TransitionResult) :
    committed (log ++ [(call, outcome)]) = committed log ++ committed [(call, outcome)] :=
  List.filterMap_append

theorem ledger_raised {digest : String → String} {db₀ db : Database}
    {log : List (Call × Except Failure TransitionResult)} (ledger : Ledger digest db₀ db log)
    (call : Call) (failure : Failure) : Ledger digest db₀ db (log ++ [(call, .error failure)]) := by
  have same : committed (log ++ [(call, .error failure)]) = committed log := by
    rw [committed_append]
    exact List.append_nil _
  exact ⟨by rw [same]; exact ledger.transitions, ledger.audit, by rw [same]; exact ledger.outbox,
    by rw [same]; exact ledger.expected, ledger.unique, ledger.known, ledger.same, ledger.chain⟩

theorem ledger_committed {digest : String → String} {db₀ db db' : Database}
    {log : List (Call × Except Failure TransitionResult)} {call : Call} {r : TransitionResult}
    {row : CaseRow} (ledger : Ledger digest db₀ db log)
    (found : db.cases.find call.caseId = some row) (done : Transitioned digest call row db db' r) :
    Ledger digest db₀ db' (log ++ [(call, .ok r)]) := by
  have grown : committed (log ++ [(call, .ok r)]) = committed log ++ [(call, r)] :=
    committed_append log call (.ok r)
  obtain ⟨row₀, found₀⟩ := ledger.same _ _ found
  obtain ⟨row', found', chain⟩ := ledger.chain _ _ found₀
  rw [found] at found'
  cases found'
  refine ⟨?_, ?_, ?_, fun c hc => ?_, ?_, fun t ht => ?_, fun caseId row' h => ?_,
    fun caseId row₁ h₁ => ?_⟩
  · rw [grown, done.transitions, ledger.transitions, List.map_append]
    rfl
  · rw [done.audit, done.transitions, ledger.audit, List.map_append, List.append_assoc]
    rfl
  · rw [grown, done.outbox, ledger.outbox, List.flatMap_append, List.append_assoc]
    rfl
  · rw [grown] at hc
    rcases List.mem_append.mp hc with old | new
    · exact ledger.expected c old
    · rw [List.mem_singleton.mp new]
      exact ⟨done.caseId, by rw [done.newVersion, done.version]⟩
  · rw [done.transitions, List.map_append, List.nodup_append]
    refine ⟨ledger.unique, by simp, fun k hk k' hk' => ?_⟩
    obtain ⟨t, ht, rfl⟩ := List.mem_map.mp hk
    rw [List.map_cons, List.map_nil, List.mem_singleton] at hk'
    subst hk'
    intro equal
    obtain ⟨sameCase, sameVersion⟩ := Prod.mk.inj equal
    have mine : t ∈ transitionsOf db call.caseId := by
      have := mem_transitionsOf ht
      rwa [sameCase, transitionRow, done.caseId] at this
    have below := chain_bound chain mine
    have above := done.newVersion
    simp only [transitionRow] at sameVersion
    omega
  · rw [done.transitions] at ht
    rcases List.mem_append.mp ht with old | new
    · exact ledger.known t old
    · rw [List.mem_singleton.mp new]
      simp only [transitionRow, done.caseId]
      exact ⟨row₀, found₀⟩
  · rw [done.cases, KeyedTable.find_update] at h
    split at h
    · rename_i here
      rw [here]
      exact ⟨row₀, found₀⟩
    · exact ledger.same caseId row' h
  · rw [done.cases, KeyedTable.find_update]
    by_cases here : caseId = call.caseId
    · subst here
      rw [found₀] at h₁
      cases h₁
      rw [if_pos rfl, found]
      refine ⟨_, rfl, ?_⟩
      have more : transitionsOf db' call.caseId =
          transitionsOf db call.caseId ++ [transitionRow call r] := by
        simp [transitionsOf, done.transitions, transitionRow, done.caseId]
      rw [more]
      refine chain_append chain (t := transitionRow call r) done.fromState done.newVersion ?_
      exact done.allowed
    · rw [if_neg here]
      have same : transitionsOf db' caseId = transitionsOf db caseId := by
        simp [transitionsOf, done.transitions, transitionRow, done.caseId, Ne.symm here]
      rw [same]
      exact ledger.chain caseId row₁ h₁

theorem run_ledger (digest : String → String) (db₀ : Database) (es : List (Event Call)) :
    Ledger digest db₀ (run (lifecycle digest) { db₀ with transitions := [] } es).store
      (run (lifecycle digest) { db₀ with transitions := [] } es).log := by
  apply RowLocks.run_invariant (lifecycle digest)
  · exact ⟨rfl, (List.append_nil _).symm, (List.append_nil _).symm, by simp [committed], by simp,
      by simp, fun _ row h => ⟨row, h⟩, fun _ row h => ⟨row, h, rfl, rfl⟩⟩
  · intro db log call ledger
    cases hout : ((lifecycle digest).atomic call db).2 with
    | error failure =>
      rw [atomic_raise _ hout]
      exact ledger_raised ledger call failure
    | ok r =>
      obtain ⟨row, found, done⟩ := transitionCase_spec (atomic_commit _ hout)
      exact ledger_committed ledger found done

def isStateChanged (t : TransitionRow) (row : OutboxRow) : Bool :=
  let payload := (row.payload.get? "payload").getD .null
  Json.isText (row.payload.get? "event_type") "case.state_changed" &&
    Json.isText (payload.get? "case_id") t.caseId &&
    isInteger (payload.get? "new_version") t.newVersion

def isAuditRecorded (t : TransitionRow) (row : OutboxRow) : Bool :=
  let payload := (row.payload.get? "payload").getD .null
  Json.isText (row.payload.get? "event_type") "audit.recorded" &&
    Json.isText (payload.get? "target") t.caseId &&
    Json.isText (payload.get? "action") (auditAction t.fromState t.toState)

def isAudit (t : TransitionRow) (row : AuditRow) : Bool :=
  row.target = t.caseId && row.action = auditAction t.fromState t.toState

theorem isAudit_eq (t t' : TransitionRow) : isAudit t (auditRow t') =
    (decide (t'.caseId = t.caseId) &&
      decide (auditAction t'.fromState t'.toState = auditAction t.fromState t.toState)) := rfl

theorem isStateChanged_stateChangedRow (digest : String → String) (eventId now : String)
    (t t' : TransitionRow) : isStateChanged t (stateChangedRow digest eventId now t') =
      decide (versionKey t' = versionKey t) := by
  simp only [isStateChanged, stateChangedRow, outboxRow, stateChangedEvent, caseEvent,
    buildEvent_eventType, buildEvent_payload, Option.getD_some]
  simp [Json.get?, Json.member, Json.isText, isInteger, versionKey]

theorem isStateChanged_auditRecordedRow (digest : String → String) (eventId now : String)
    (t t' : TransitionRow) : isStateChanged t (auditRecordedRow digest eventId now t') = false := by
  simp [isStateChanged, auditRecordedRow, outboxRow, auditRecordedEvent, caseEvent, Json.isText]

theorem isAuditRecorded_stateChangedRow (digest : String → String) (eventId now : String)
    (t t' : TransitionRow) : isAuditRecorded t (stateChangedRow digest eventId now t') = false := by
  simp [isAuditRecorded, stateChangedRow, outboxRow, stateChangedEvent, caseEvent, Json.isText]

theorem isAuditRecorded_auditRecordedRow (digest : String → String) (eventId now : String)
    (t t' : TransitionRow) :
    isAuditRecorded t (auditRecordedRow digest eventId now t') = isAudit t (auditRow t') := by
  simp only [isAuditRecorded, auditRecordedRow, outboxRow, auditRecordedEvent, caseEvent,
    buildEvent_eventType, buildEvent_payload, Option.getD_some]
  simp [Json.get?, Json.member, Json.isText, isAudit_eq]

theorem auditAction_injective {a a' b b' : CaseState} (h : allowedTransitions a = some b)
    (h' : allowedTransitions a' = some b') (same : auditAction a b = auditAction a' b') : a = a' := by
  cases a <;> cases h <;> cases a' <;> cases h' <;> first | rfl | (revert same; decide)

theorem isAudit_auditRow {digest : String → String} {db₀ db : Database}
    {log : List (Call × Except Failure TransitionResult)} (ledger : Ledger digest db₀ db log)
    {t t' : TransitionRow} (ht : t ∈ db.transitions) (ht' : t' ∈ db.transitions) :
    isAudit t (auditRow t') = decide (versionKey t' = versionKey t) := by
  rw [isAudit_eq, ← Bool.decide_and, decide_eq_decide]
  constructor
  · rintro ⟨sameCase, action⟩
    obtain ⟨row₀, found₀⟩ := ledger.known t ht
    obtain ⟨row, -, chain⟩ := ledger.chain _ _ found₀
    have mine := mem_transitionsOf ht
    have other := mem_transitionsOf ht'
    rw [sameCase] at other
    have state := auditAction_injective (chain_allowed chain other) (chain_allowed chain mine) action
    have version := (chain_rank chain other).trans (chain_rank chain mine).symm
    rw [state] at version
    have equal : t'.newVersion = t.newVersion := by omega
    rw [versionKey, versionKey, sameCase, equal]
  · intro same
    rw [List.inj_on_of_nodup_map ledger.unique ht' ht same]
    exact ⟨rfl, rfl⟩

def newOutbox (db₀ db : Database) : List OutboxRow := db.outbox.rows.drop db₀.outbox.rows.length

def newAudit (db₀ db : Database) : List AuditRow := db.audit.drop db₀.audit.length

structure Trailed (digest : String → String) (db₀ db : Database) (t : TransitionRow) : Prop where
  stateChanged : ∃ eventId now, stateChangedRow digest eventId now t ∈ newOutbox db₀ db
  stateChangedOnce : (newOutbox db₀ db).countP (isStateChanged t) = 1
  audit : auditRow t ∈ newAudit db₀ db
  auditOnce : (newAudit db₀ db).countP (isAudit t) = 1
  auditRecorded : ∃ eventId now, auditRecordedRow digest eventId now t ∈ newOutbox db₀ db
  auditRecordedOnce : (newOutbox db₀ db).countP (isAuditRecorded t) = 1

theorem ledger_trailed {digest : String → String} {db₀ db : Database}
    {log : List (Call × Except Failure TransitionResult)} (ledger : Ledger digest db₀ db log)
    {t : TransitionRow} (ht : t ∈ db.transitions) : Trailed digest db₀ db t := by
  have outbox : newOutbox db₀ db = (committed log).flatMap (outboxRows digest) := by
    rw [newOutbox, ledger.outbox, List.drop_left]
  have audit : newAudit db₀ db = db.transitions.flatMap fun t => [auditRow t] := by
    rw [newAudit, ledger.audit, List.drop_left, List.map_eq_flatMap]
  have listed : ∀ c ∈ committed log, transitionRow c.1 c.2 ∈ db.transitions := by
    intro c hc
    rw [ledger.transitions]
    exact List.mem_map_of_mem hc
  have unique : ((committed log).map fun c => versionKey (transitionRow c.1 c.2)).Nodup := by
    have := ledger.unique
    rwa [ledger.transitions, List.map_map] at this
  have mine := ht
  rw [ledger.transitions] at mine
  obtain ⟨c, hc, rfl⟩ := List.mem_map.mp mine
  refine ⟨⟨c.1.stateChangedId, c.1.stateChangedAt, ?_⟩, ?_, ?_, ?_,
    ⟨c.1.auditId, c.1.auditAt, ?_⟩, ?_⟩
  · rw [outbox]
    exact List.mem_flatMap.mpr ⟨c, hc, by simp [outboxRows]⟩
  · rw [outbox]
    refine KeyedTable.countP_flatMap_unique unique hc fun c' hc' => ?_
    simp [outboxRows, List.countP_cons, isStateChanged_stateChangedRow,
      isStateChanged_auditRecordedRow]
  · rw [audit]
    exact List.mem_flatMap.mpr ⟨_, ht, List.mem_singleton_self _⟩
  · rw [audit]
    refine KeyedTable.countP_flatMap_unique ledger.unique ht fun t' ht' => ?_
    simp [List.countP_cons, isAudit_auditRow ledger ht ht']
  · rw [outbox]
    exact List.mem_flatMap.mpr ⟨c, hc, by simp [outboxRows]⟩
  · rw [outbox]
    refine KeyedTable.countP_flatMap_unique unique hc fun c' hc' => ?_
    simp [outboxRows, List.countP_cons, isAuditRecorded_stateChangedRow,
      isAuditRecorded_auditRecordedRow, isAudit_auditRow ledger (listed c hc) (listed c' hc')]

theorem ledger_expected {digest : String → String} {db₀ db : Database}
    {log : List (Call × Except Failure TransitionResult)} (ledger : Ledger digest db₀ db log) :
    ((committed log).map fun c => (c.1.caseId, c.1.expectedVersion)).Nodup := by
  have unique := ledger.unique
  rw [ledger.transitions, List.map_map] at unique
  refine List.Nodup.of_map (fun k : String × Int => (k.1, k.2 + 1)) ?_
  rw [List.map_map]
  have same : (committed log).map ((fun k : String × Int => (k.1, k.2 + 1)) ∘ fun c =>
      (c.1.caseId, c.1.expectedVersion)) =
      (committed log).map (versionKey ∘ fun c => transitionRow c.1 c.2) := by
    apply List.map_congr_left
    intro c hc
    obtain ⟨caseId, version⟩ := ledger.expected c hc
    simp [versionKey, transitionRow, caseId, version]
  rw [same]
  exact unique

/-- The case lifecycle under any interleaving of transition calls, from any
cases, audit rows and outbox events. -/
theorem case_lifecycle (digest : String → String) (db₀ : Database) (es : List (Event Call)) :
    let sys := run (lifecycle digest) { db₀ with transitions := [] } es
    (∀ caseId row₀, db₀.cases.find caseId = some row₀ → ∃ row,
      sys.store.cases.find caseId = some row ∧
      row.version = row₀.version + (transitionsOf sys.store caseId).length ∧
      (transitionsOf sys.store caseId).map TransitionRow.newVersion =
        (List.range (transitionsOf sys.store caseId).length).map
          (fun i : ℕ => row₀.version + 1 + (i : Int)) ∧
      Chain row₀.state row₀.version (transitionsOf sys.store caseId) row.state row.version) ∧
    (∀ t ∈ sys.store.transitions, Trailed digest db₀ sys.store t) ∧
    ((committed sys.log).map fun c => (c.1.caseId, c.1.expectedVersion)).Nodup ∧
    (∀ e call failure,
      (step (lifecycle digest) sys e).log = sys.log ++ [(call, .error failure)] →
      (step (lifecycle digest) sys e).store = sys.store) := by
  intro sys
  have ledger : Ledger digest db₀ sys.store sys.log := run_ledger digest db₀ es
  refine ⟨fun caseId row₀ found₀ => ?_, fun t ht => ledger_trailed ledger ht,
    ledger_expected ledger, fun e call failure raised => ?_⟩
  · obtain ⟨row, found, chain⟩ := ledger.chain caseId row₀ found₀
    exact ⟨row, found, chain_length chain, chain_versions chain, chain⟩
  · exact step_raise (lifecycle digest) (run_current _ _ es) raised

end Mirage.CaseStateMachine
