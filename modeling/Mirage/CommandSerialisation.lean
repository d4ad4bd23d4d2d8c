import Mirage.SandboxGateway

/-! Serialisation of sandbox mutations. The version of a sandbox is compared when an
action is opened and advanced when its result is recorded; the command is executed in
between. -/

namespace Mirage.CommandSerialisation
open SandboxActions SandboxGateway AuditOutbox EventEnvelope RowLocks

def Reported (r : Request) : Prop :=
  r.action.actionType.mutating = true ∧
    ∃ outputTag errorDetail, r.phase.outcome = some (.result "SUCCESS" outputTag errorDetail)

theorem reported_congr {r : Request} {p : Phase} (same : p.outcome = r.phase.outcome) :
    Reported { r with phase := p } ↔ Reported r := by
  simp [Reported, same]

def isResultOf (commandId : String) (row : OutboxRow) : Bool :=
  Json.isText (row.payload.get? "event_type") "sandbox.command_result" &&
    Json.isText (((row.payload.get? "payload").getD .null).get? "command_id") commandId

def isAuditOf (commandId : String) (row : AuditRow) : Bool :=
  row.actor = "mirage-sandbox-gateway" && row.correlationId = commandId

def newOutbox (db₀ db : Database) : List OutboxRow := db.outbox.rows.drop db₀.outbox.rows.length

def newAudit (db₀ db : Database) : List AuditRow := db.audit.drop db₀.audit.length

structure Ended (db₀ db : Database) (a : PendingAction) : Prop where
  row : ∃ row, db.actions.find a.actionId = some row ∧ row.status ∈ completedStatuses
  event : (newOutbox db₀ db).countP (isResultOf a.commandId) = 1
  audit : (newAudit db₀ db).countP (isAuditOf a.commandId) = 1

/-- At most one mutation is reported SUCCESS for each version of a sandbox,
and every request that received a result and is finished has ended its action. -/
structure Serialised (db₀ db : Database) (requests : List Request) : Prop where
  once : ∀ (i j : ℕ) r r', requests[i]? = some r → requests[j]? = some r' → Reported r → Reported r' →
    r.action.sandboxId = r'.action.sandboxId →
    r.action.expectedStateVersion = r'.action.expectedStateVersion → i = j
  ended : ∀ (i : ℕ) r outcome, requests[i]? = some r → r.phase.ended = true →
    r.phase.outcome = some outcome → outcome.received = true → Ended db₀ db r.action

def AwaitsRecord (r : Request) : Prop := Reported r ∧ ∃ outcome, r.phase = .returned outcome

/-- A request takes a result only if it is readable and, where it reports the
success of a mutation, the sandbox is still at the version of the command and
no other success of the sandbox waits to be recorded; and a result is recorded
only if it passes the checks of the recording other than the version. -/
def Admitted (cfg : Config) (g : Gateway) : SandboxGateway.Event → Prop
  | .wake i => ∀ r value, Wakes g i r value → ∃ status outputTag errorDetail,
      readResult value = some (status, outputTag, errorDetail) ∧
      (status = "SUCCESS" → r.action.actionType.mutating = true →
        (∃ row, g.db.sandboxes.find r.action.sandboxId = some row ∧
          row.stateVersion = r.action.expectedStateVersion) ∧
        ∀ r' ∈ g.requests, AwaitsRecord r' → r'.action.sandboxId ≠ r.action.sandboxId)
  | .record i eventId now stored => ∀ r outcome, g.requests[i]? = some r →
      r.phase = .returned outcome → outcome.received = true → ∃ call,
      recordCall cfg r outcome eventId now stored = some call ∧
      recordable cfg.digest call g.db = true
  | _ => True

/-- Rows are counted under the command of each recorded request, once, and
under no other command. -/
def Tally (requests : List Request) (count : String → ℕ) : Prop :=
  (∀ (i : ℕ) r, requests[i]? = some r →
    count r.action.commandId = if r.phase.isRecorded then 1 else 0) ∧
  ∀ commandId, (∀ (i : ℕ) r, requests[i]? = some r → r.action.commandId ≠ commandId) →
    count commandId = 0

def Taken (requests : List Request) (sandboxId : String) (v : Int) : Prop :=
  ∃ (j : ℕ) (r : Request), requests[j]? = some r ∧ r.phase.isRecorded = true ∧ Reported r ∧
    r.action.sandboxId = sandboxId ∧ r.action.expectedStateVersion = v

/-- The sandbox has reached the version of the request, and every version
since then was taken. -/
def AtVersion (db : Database) (requests : List Request) (r : Request) : Prop :=
  ∃ row, db.sandboxes.find r.action.sandboxId = some row ∧
    r.action.expectedStateVersion ≤ row.stateVersion ∧
    (r.phase.isRecorded = true → Reported r → r.action.expectedStateVersion < row.stateVersion) ∧
    ∀ v, r.action.expectedStateVersion ≤ v → v < row.stateVersion →
      Taken requests r.action.sandboxId v

structure Tracked (db₀ db : Database) (requests : List Request) : Prop where
  row : ∀ (i : ℕ) r, requests[i]? = some r → ∃ row, db.actions.find r.action.actionId = some row ∧
    row.commandId = r.action.commandId ∧
    if r.phase.isRecorded then row.status ∈ completedStatuses else row.status = "PENDING"
  actions : Distinct PendingAction.actionId requests
  commands : Distinct PendingAction.commandId requests
  version : ∀ (i : ℕ) r, requests[i]? = some r → AtVersion db requests r
  outbox : ∃ new, db.outbox.rows = db₀.outbox.rows ++ new ∧
    Tally requests fun commandId => new.countP (isResultOf commandId)
  audit : ∃ new, db.audit = db₀.audit ++ new ∧
    Tally requests fun commandId => new.countP (isAuditOf commandId)

theorem pending_not_completed : "PENDING" ∉ completedStatuses := by decide

section
variable {db₀ db : Database} {requests : List Request} {count : String → ℕ}

theorem tally_advanced {i : ℕ} {r r' : Request} (tally : Tally requests count)
    (found : requests[i]? = some r) (action : r'.action = r.action)
    (unrecorded : r.phase.isRecorded = false) (unrecorded' : r'.phase.isRecorded = false) :
    Tally (requests.set i r') count := by
  refine ⟨fun j s h => ?_, fun commandId none => tally.2 commandId fun j s h => ?_⟩
  · rcases (get_set found).mp h with ⟨-, rfl⟩ | ⟨-, old⟩
    · rw [action, unrecorded', ← unrecorded]
      exact tally.1 i r found
    · exact tally.1 j s old
  · by_cases here : j = i
    · subst here
      rw [found] at h
      cases h
      rw [← action]
      exact none j r' ((get_set found).mpr (.inl ⟨rfl, rfl⟩))
    · exact none j s ((get_set found).mpr (.inr ⟨here, h⟩))

theorem tally_opened {a : PendingAction} (tally : Tally requests count)
    (fresh : ∀ (i : ℕ) r, requests[i]? = some r → r.action.commandId ≠ a.commandId) :
    Tally (requests ++ [⟨a, none, .opened⟩]) count := by
  refine ⟨fun j s h => ?_, fun commandId none => tally.2 commandId fun j s h => ?_⟩
  · rcases get_append.mp h with old | ⟨-, rfl⟩
    · exact tally.1 j s old
    · exact tally.2 a.commandId fresh
  · exact none j s (get_append.mpr (.inl h))

theorem tally_recorded {i : ℕ} {r r' : Request} {count' : String → ℕ} (tally : Tally requests count)
    (found : requests[i]? = some r) (action : r'.action = r.action)
    (unrecorded : r.phase.isRecorded = false) (recorded : r'.phase.isRecorded = true)
    (commands : ∀ (j : ℕ) s, requests[j]? = some s → s.action.commandId = r.action.commandId → j = i)
    (counted : ∀ commandId, count' commandId =
      count commandId + if commandId = r.action.commandId then 1 else 0) :
    Tally (requests.set i r') count' := by
  refine ⟨fun j s h => ?_, fun commandId none => ?_⟩
  · rw [counted]
    rcases (get_set found).mp h with ⟨-, rfl⟩ | ⟨apart, old⟩
    · have zero := tally.1 i r found
      rw [unrecorded] at zero
      simp [action, zero, recorded]
    · have other : s.action.commandId ≠ r.action.commandId := fun same => apart (commands j s old same)
      rw [if_neg other, Nat.add_zero]
      exact tally.1 j s old
  · have mine := none i r' ((get_set found).mpr (.inl ⟨rfl, rfl⟩))
    rw [action] at mine
    rw [counted, if_neg (Ne.symm mine), Nat.add_zero]
    refine tally.2 commandId fun j s h => ?_
    by_cases here : j = i
    · subst here
      rw [found] at h
      cases h
      exact mine
    · exact none j s ((get_set found).mpr (.inr ⟨here, h⟩))

theorem taken_set {i : ℕ} {r r' : Request} {sandboxId : String} {v : Int}
    (taken : Taken requests sandboxId v) (found : requests[i]? = some r)
    (unrecorded : r.phase.isRecorded = false) : Taken (requests.set i r') sandboxId v := by
  obtain ⟨j, s, hs, recorded, rest⟩ := taken
  refine ⟨j, s, (get_set found).mpr (.inr ⟨fun here => ?_, hs⟩), recorded, rest⟩
  rw [here, found] at hs
  cases hs
  rw [unrecorded] at recorded
  cases recorded

theorem tracked_advanced {i : ℕ} {r r' : Request} (tracked : Tracked db₀ db requests)
    (found : requests[i]? = some r) (action : r'.action = r.action)
    (unrecorded : r.phase.isRecorded = false) (unrecorded' : r'.phase.isRecorded = false) :
    Tracked db₀ db (requests.set i r') := by
  -- every request of the new list stands for one of the old list with the same action
  have before : ∀ (j : ℕ) s, (requests.set i r')[j]? = some s → ∃ old, requests[j]? = some old ∧
      old.action = s.action ∧ old.phase.isRecorded = s.phase.isRecorded := by
    intro j s h
    rcases (get_set found).mp h with ⟨rfl, rfl⟩ | ⟨-, old⟩
    · exact ⟨r, found, action.symm, by rw [unrecorded, unrecorded']⟩
    · exact ⟨s, old, rfl, rfl⟩
  refine ⟨fun j s h => ?_, distinct_set tracked.actions found action,
    distinct_set tracked.commands found action, fun j s h => ?_, ?_, ?_⟩
  · obtain ⟨old, hold, act, phase⟩ := before j s h
    rw [← act, ← phase]
    exact tracked.row j old hold
  · obtain ⟨old, hold, act, phase⟩ := before j s h
    obtain ⟨row, known, reached, passed, segment⟩ := tracked.version j old hold
    rw [act] at known reached segment
    refine ⟨row, known, reached, fun recorded reported => ?_,
      fun v lower upper => taken_set (segment v lower upper) found unrecorded⟩
    rcases (get_set found).mp h with ⟨rfl, rfl⟩ | ⟨-, same⟩
    · rw [unrecorded'] at recorded
      cases recorded
    · rw [hold] at same
      cases same
      exact passed recorded reported
  · obtain ⟨new, grown, tally⟩ := tracked.outbox
    exact ⟨new, grown, tally_advanced tally found action unrecorded unrecorded'⟩
  · obtain ⟨new, grown, tally⟩ := tracked.audit
    exact ⟨new, grown, tally_advanced tally found action unrecorded unrecorded'⟩

theorem tracked_ensured (tracked : Tracked db₀ db requests) (sandboxId caseId : String) :
    Tracked db₀ { db with sandboxes := db.sandboxes.upsert ⟨sandboxId, caseId, 0⟩ id fun _ => rfl }
      requests := by
  refine ⟨tracked.row, tracked.actions, tracked.commands, fun i r h => ?_, tracked.outbox,
    tracked.audit⟩
  obtain ⟨row, known, rest⟩ := tracked.version i r h
  refine ⟨row, ?_, rest⟩
  show (db.sandboxes.upsert ⟨sandboxId, caseId, 0⟩ id fun _ => rfl).find r.action.sandboxId = some row
  rw [find_ensured]
  split
  · rename_i here
    rw [here] at known
    rw [known]
    rfl
  · exact known

theorem isResultOf_command (commandId : String) (call : OpenCall) (a : PendingAction) :
    isResultOf commandId ⟨a.commandId, "sandbox.command", commandEnvelope call a⟩ = false := by
  simp [isResultOf, commandEnvelope, Json.get?, Json.member, Json.isText]

theorem tracked_opened {call : OpenCall} {db' : Database} {a : PendingAction}
    (tracked : Tracked db₀ db requests)
    (done : Opened call (db.sandboxes.find call.sandboxId) db db' a) :
    Tracked db₀ db' (requests ++ [⟨a, none, .opened⟩]) := by
  have find := KeyedTable.find_insert done.inserted
  have newAction : ∀ (i : ℕ) r, requests[i]? = some r → r.action.actionId ≠ a.actionId := by
    intro i r h same
    obtain ⟨row, known, -⟩ := tracked.row i r h
    have listed := List.mem_map_of_mem (f := ActionRow.actionId) (db.actions.mem_of_find known)
    rw [db.actions.key_of_find known, same] at listed
    exact done.fresh listed
  have newCommand : ∀ (i : ℕ) r, requests[i]? = some r → r.action.commandId ≠ a.commandId := by
    intro i r h same
    obtain ⟨row, known, command, -⟩ := tracked.row i r h
    exact done.freshCommand row (db.actions.mem_of_find known) (command.trans same)
  refine ⟨fun j s h => ?_, distinct_append tracked.actions newAction,
    distinct_append tracked.commands newCommand, fun j s h => ?_, ?_, ?_⟩
  · rcases get_append.mp h with old | ⟨-, rfl⟩
    · obtain ⟨row, known, rest⟩ := tracked.row j s old
      refine ⟨row, ?_, rest⟩
      rw [find, ← known]
      exact if_neg (Ne.symm (newAction j s old))
    · exact ⟨pendingRow a, by rw [find]; exact if_pos rfl, rfl, rfl⟩
  · rw [AtVersion, done.sandboxes]
    rcases get_append.mp h with old | ⟨-, rfl⟩
    · obtain ⟨row, known, reached, passed, segment⟩ := tracked.version j s old
      refine ⟨row, known, reached, passed, fun v lower upper => ?_⟩
      obtain ⟨k, s', hs', rest⟩ := segment v lower upper
      exact ⟨k, s', get_append.mpr (.inl hs'), rest⟩
    · obtain ⟨type, rfl⟩ := done.pending
      obtain ⟨row, known, version⟩ := done.current
      have equal : row.stateVersion = (pendingAction call type).expectedStateVersion := version
      refine ⟨row, known, equal.ge, fun recorded => (nomatch recorded), fun v lower upper => ?_⟩
      rw [equal] at upper
      exact absurd upper (not_lt.mpr lower)
  · obtain ⟨new, grown, tally⟩ := tracked.outbox
    refine ⟨new ++ [⟨a.commandId, "sandbox.command", commandEnvelope call a⟩], ?_, ?_⟩
    · rw [done.outbox, grown, List.append_assoc]
    · simp only [List.countP_append, List.countP_singleton, isResultOf_command]
      exact tally_opened tally newCommand
  · obtain ⟨new, grown, tally⟩ := tracked.audit
    exact ⟨new, by rw [done.audit, grown], tally_opened tally newCommand⟩

theorem isResultOf_result (digest : String → String) (commandId : String) (call : RecordCall) :
    isResultOf commandId (outboxRow "sandbox.result" (resultEvent digest call)) =
      decide (commandId = call.action.commandId) := by
  simp only [isResultOf, outboxRow, resultEvent, buildEvent_eventType, buildEvent_payload,
    Option.getD_some]
  simp [Json.get?, Json.member, Json.isText, eq_comm]

theorem isAuditOf_audit (commandId : String) (call : RecordCall) :
    isAuditOf commandId (auditRow call) = decide (commandId = call.action.commandId) := by
  have same : isAuditOf commandId (auditRow call) = (true && decide (call.action.commandId = commandId)) :=
    rfl
  rw [same, Bool.true_and, decide_eq_decide]
  exact eq_comm

theorem recordCall_spec {cfg : Config} {r : Request} {outcome : Outcome} {eventId now : String}
    {stored : Bool} {call : RecordCall} (h : recordCall cfg r outcome eventId now stored = some call)
    (returned : r.phase.outcome = some outcome) :
    call.action = r.action ∧ (call.advances = true ↔ Reported r) := by
  simp only [recordCall, Option.bind_eq_bind, Option.bind_eq_some_iff, Option.pure_def,
    Option.some.injEq] at h
  obtain ⟨⟨status, outputTag, errorDetail⟩, values, target, -, rfl⟩ := h
  refine ⟨rfl, ?_⟩
  simp only [RecordCall.advances, Reported, returned, Bool.and_eq_true, decide_eq_true_eq]
  cases outcome <;> simp only [Outcome.values, Option.some.injEq, Prod.mk.injEq, reduceCtorEq] at values
  case result =>
    obtain ⟨rfl, rfl, rfl⟩ := values
    simp [and_comm]
  all_goals
    obtain ⟨rfl, -, -⟩ := values
    simp

theorem atVersion_recorded {digest : String → String} {i j : ℕ} {r r' s : Request}
    {call : RecordCall} {db' : Database} (tracked : Tracked db₀ db requests)
    (found : requests[i]? = some r) (unrecorded : r.phase.isRecorded = false)
    (recorded : r'.phase.isRecorded = true) (action : r'.action = r.action)
    (same : call.action = r.action) (advances : call.advances = true ↔ Reported r')
    (done : Recorded digest call ((lockKey (.record call)).bind db.sandboxes.find) db db')
    (h : (requests.set i r')[j]? = some s) : AtVersion db' (requests.set i r') s := by
  obtain ⟨current, rows⟩ := done.sandbox
  rw [same] at current rows
  obtain ⟨old, hold, act⟩ := get_set_action found action h
  obtain ⟨row, known, reached, passed, segment⟩ := tracked.version j old hold
  rw [act] at known reached segment
  have persists : ∀ v, s.action.expectedStateVersion ≤ v → v < row.stateVersion →
      Taken (requests.set i r') s.action.sandboxId v :=
    fun v lower upper => taken_set (segment v lower upper) found unrecorded
  rw [AtVersion, rows]
  split
  · rename_i moved
    obtain ⟨row₀, known₀, version⟩ := current moved.1
    rw [moved.2, known₀] at known
    cases known
    refine ⟨withVersion (r.action.expectedStateVersion + 1) row, by rw [moved.2, known₀]; rfl, ?_, ?_,
      fun v lower upper => ?_⟩
    · simp only [withVersion]
      omega
    · intro _ _
      simp only [withVersion]
      omega
    · simp only [withVersion] at upper
      by_cases earlier : v < row.stateVersion
      · exact persists v lower earlier
      · refine ⟨i, r', (get_set found).mpr (.inl ⟨rfl, rfl⟩), recorded, advances.mp moved.1, ?_, ?_⟩
        · rw [action, moved.2]
        · rw [action]
          omega
  · rename_i still
    refine ⟨row, known, reached, fun was reported => ?_, persists⟩
    rcases (get_set found).mp h with ⟨rfl, rfl⟩ | ⟨-, kept⟩
    · exact absurd ⟨advances.mpr reported, by rw [action]⟩ still
    · rw [hold] at kept
      cases kept
      exact passed was reported

theorem tracked_recorded {digest : String → String} {i : ℕ} {r r' : Request} {call : RecordCall}
    {db' : Database} (tracked : Tracked db₀ db requests) (found : requests[i]? = some r)
    (unrecorded : r.phase.isRecorded = false) (recorded : r'.phase.isRecorded = true)
    (action : r'.action = r.action) (same : call.action = r.action)
    (advances : call.advances = true ↔ Reported r')
    (done : Recorded digest call ((lockKey (.record call)).bind db.sandboxes.find) db db') :
    Tracked db₀ db' (requests.set i r') := by
  refine ⟨fun j s h => ?_, distinct_set tracked.actions found action,
    distinct_set tracked.commands found action, fun j s h => ?_, ?_, ?_⟩
  · rw [done.actions, KeyedTable.find_update, same]
    rcases (get_set found).mp h with ⟨rfl, rfl⟩ | ⟨apart, old⟩
    · obtain ⟨row, known, command, -⟩ := tracked.row j r found
      rw [action, if_pos rfl, known, recorded]
      refine ⟨completed call row, rfl, command, ?_⟩
      exact done.terminal (by rw [same, known]; rfl)
    · obtain ⟨row, known, rest⟩ := tracked.row j s old
      refine ⟨row, ?_, rest⟩
      rw [if_neg fun equal => apart (tracked.actions j i s r old found equal), known]
  · exact atVersion_recorded tracked found unrecorded recorded action same advances done h
  · obtain ⟨new, grown, tally⟩ := tracked.outbox
    refine ⟨new ++ [outboxRow "sandbox.result" (resultEvent digest call)], ?_, ?_⟩
    · rw [done.outbox, grown, List.append_assoc]
    · refine tally_recorded tally found action unrecorded recorded
        (fun j s h equal => tracked.commands j i s r h found equal) fun commandId => ?_
      simp [List.countP_append, List.countP_singleton, isResultOf_result, same]
  · obtain ⟨new, grown, tally⟩ := tracked.audit
    refine ⟨new ++ [auditRow call], ?_, ?_⟩
    · rw [done.audit, grown, List.append_assoc]
    · refine tally_recorded tally found action unrecorded recorded
        (fun j s h equal => tracked.commands j i s r h found equal) fun commandId => ?_
      simp [List.countP_append, List.countP_singleton, isAuditOf_audit, same]

theorem tracked_ended (tracked : Tracked db₀ db requests) {i : ℕ} {r : Request}
    (found : requests[i]? = some r) (recorded : r.phase.isRecorded = true) :
    Ended db₀ db r.action := by
  obtain ⟨row, known, -, status⟩ := tracked.row i r found
  obtain ⟨events, outbox, eventTally⟩ := tracked.outbox
  obtain ⟨entries, audit, auditTally⟩ := tracked.audit
  rw [if_pos recorded] at status
  refine ⟨⟨row, known, status⟩, ?_, ?_⟩
  · have one := eventTally.1 i r found
    rw [if_pos recorded] at one
    rw [newOutbox, outbox, List.drop_left]
    exact one
  · have one := auditTally.1 i r found
    rw [if_pos recorded] at one
    rw [newAudit, audit, List.drop_left]
    exact one

/-- The part of `Serialised` that the requests show by themselves. -/
structure Clean (requests : List Request) : Prop where
  once : ∀ (i j : ℕ) r r', requests[i]? = some r → requests[j]? = some r' → Reported r →
    Reported r' → r.action.sandboxId = r'.action.sandboxId →
    r.action.expectedStateVersion = r'.action.expectedStateVersion → i = j
  kept : ∀ (i : ℕ) r outcome, requests[i]? = some r → r.phase = .raised (some outcome) →
    outcome.received = false

theorem serialised_iff_clean (tracked : Tracked db₀ db requests) :
    Serialised db₀ db requests ↔ Clean requests := by
  constructor
  · intro serialised
    refine ⟨serialised.once, fun i r outcome found raised => ?_⟩
    by_contra received
    rw [Bool.not_eq_false] at received
    obtain ⟨row, known, terminal⟩ := (serialised.ended i r outcome found (by rw [raised]; rfl)
      (by rw [raised]; rfl) received).row
    obtain ⟨row', known', -, pending⟩ := tracked.row i r found
    rw [known] at known'
    cases known'
    rw [raised] at pending
    have status : row.status = "PENDING" := pending
    rw [status] at terminal
    exact pending_not_completed terminal
  · intro clean
    refine ⟨clean.once, fun i r outcome found finished has received => ?_⟩
    cases phase : r.phase with
    | recorded o => exact tracked_ended tracked found (by rw [phase]; rfl)
    | raised o =>
      rw [phase] at has
      have equal : o = some outcome := has
      rw [equal] at phase
      rw [clean.kept i r outcome found phase] at received
      cases received
    | opened | sending | waiting | returned =>
      rw [phase] at finished
      cases finished

/-- A request that is not recorded and reports a success is at the current
version, or another success took its version. -/
theorem reported_current (tracked : Tracked db₀ db requests) (clean : Clean requests) {i : ℕ}
    {r : Request} (found : requests[i]? = some r) (reported : Reported r)
    (unrecorded : r.phase.isRecorded = false) :
    ∃ row, db.sandboxes.find r.action.sandboxId = some row ∧
      row.stateVersion = r.action.expectedStateVersion := by
  obtain ⟨row, known, reached, -, segment⟩ := tracked.version i r found
  refine ⟨row, known, ?_⟩
  by_contra passed
  obtain ⟨j, r', found', recorded, reported', sandbox, version⟩ :=
    segment r.action.expectedStateVersion (le_refl _) (by omega)
  have equal := clean.once j i r' r found' found reported' reported sandbox version
  rw [equal, found] at found'
  cases found'
  rw [unrecorded] at recorded
  cases recorded

end

section
variable {cfg : Config} {g : Gateway} {db₀ db : Database} {requests : List Request}

theorem moved_tracked (tracked : Tracked db₀ g.db g.requests) (moved : Moved g db requests) :
    Tracked db₀ db requests := by
  cases moved with
  | same => exact tracked
  | ensured sandboxId caseId => exact tracked_ensured tracked sandboxId caseId
  | opened done => exact tracked_opened tracked done
  | advanced found before unrecorded action after unrecorded' =>
    exact tracked_advanced tracked found action unrecorded unrecorded'

/-- A change of request `i` keeps the requests clean if the changed request
adds no conflict and lost no result. -/
theorem clean_set {i : ℕ} {r r' : Request} (clean : Clean requests)
    (found : requests[i]? = some r)
    (alone : Reported r' → ∀ (j : ℕ) s, j ≠ i → requests[j]? = some s → Reported s →
      s.action.sandboxId = r'.action.sandboxId →
      s.action.expectedStateVersion ≠ r'.action.expectedStateVersion)
    (kept : ∀ outcome, r'.phase = .raised (some outcome) → outcome.received = false) :
    Clean (requests.set i r') := by
  refine ⟨fun j k s s' h h' reported reported' sandbox version => ?_, fun j s outcome h => ?_⟩
  · rcases (get_set found).mp h with ⟨rfl, rfl⟩ | ⟨apart, old⟩ <;>
      rcases (get_set found).mp h' with ⟨rfl, rfl⟩ | ⟨apart', old'⟩
    · rfl
    · exact absurd version.symm (alone reported k s' apart' old' reported' sandbox.symm)
    · exact absurd version (alone reported' j s apart old reported sandbox)
    · exact clean.once j k s s' old old' reported reported' sandbox version
  · rcases (get_set found).mp h with ⟨rfl, rfl⟩ | ⟨-, old⟩
    · exact kept outcome
    · exact clean.kept j s outcome old

theorem moved_clean (clean : Clean g.requests) (moved : Moved g db requests) : Clean requests := by
  cases moved with
  | same => exact clean
  | ensured sandboxId caseId => exact clean
  | opened done =>
    refine ⟨fun j k s s' h h' reported reported' sandbox version => ?_, fun j s outcome h raised => ?_⟩
    · rcases get_append.mp h with old | ⟨-, rfl⟩
      · rcases get_append.mp h' with old' | ⟨-, rfl⟩
        · exact clean.once j k s s' old old' reported reported' sandbox version
        · obtain ⟨-, _, _, none⟩ := reported'
          cases none
      · obtain ⟨-, _, _, none⟩ := reported
        cases none
    · rcases get_append.mp h with old | ⟨-, rfl⟩
      · exact clean.kept j s outcome old raised
      · cases raised
  | advanced found before unrecorded action after unrecorded' =>
    refine clean_set clean found (fun reported => ?_) fun outcome raised => ?_
    · obtain ⟨-, outputTag, errorDetail, success⟩ := reported
      have := after _ success
      cases this
    · exact after outcome (by rw [raised]; rfl)

theorem wake_clean_iff {i : ℕ} {r : Request} {value : Json} (tracked : Tracked db₀ g.db g.requests)
    (clean : Clean g.requests) (wakes : Wakes g i r value) :
    Clean (g.requests.set i { r with phase := afterResult value }) ↔ Admitted cfg g (.wake i) := by
  obtain ⟨found, waiting, future⟩ := wakes
  have unrecorded : r.phase.isRecorded = false := by rw [waiting]; rfl
  have only : ∀ s v, Wakes g i s v → s = r ∧ v = value := by
    rintro s v ⟨found', -, future'⟩
    rw [found] at found'
    rw [future] at future'
    cases found'
    cases future'
    exact ⟨rfl, rfl⟩
  have mine : (g.requests.set i { r with phase := afterResult value })[i]? =
      some { r with phase := afterResult value } := (get_set found).mpr (.inl ⟨rfl, rfl⟩)
  constructor
  · intro after s v h
    obtain ⟨rfl, rfl⟩ := only s v h
    cases read : readResult v with
    | none =>
      have lost := after.kept i _ .unreadable mine (by simp [afterResult, read])
      cases lost
    | some values =>
      obtain ⟨status, outputTag, errorDetail⟩ := values
      refine ⟨status, outputTag, errorDetail, rfl, fun success mutating => ?_⟩
      subst success
      have reported : Reported { s with phase := afterResult v } :=
        ⟨mutating, outputTag, errorDetail, by simp [afterResult, read, Phase.outcome]⟩
      have alone : ∀ (j : ℕ) s', j ≠ i → g.requests[j]? = some s' → Reported s' →
          s'.action.sandboxId = s.action.sandboxId →
          s'.action.expectedStateVersion ≠ s.action.expectedStateVersion := by
        intro j s' apart old reported' sandbox version
        exact apart (after.once j i s' _ ((get_set found).mpr (.inr ⟨apart, old⟩)) mine reported'
          reported sandbox version)
      obtain ⟨row, known, reached, -, segment⟩ := tracked.version i s found
      have equal : row.stateVersion = s.action.expectedStateVersion := by
        by_contra passed
        obtain ⟨j, s', found', recorded, reported', sandbox, version⟩ :=
          segment s.action.expectedStateVersion (le_refl _) (by omega)
        refine alone j s' (fun here => ?_) found' reported' sandbox version
        rw [here, found] at found'
        cases found'
        rw [unrecorded] at recorded
        cases recorded
      refine ⟨⟨row, known, equal⟩, fun s' listed awaits sandbox => ?_⟩
      obtain ⟨reported', outcome, returned⟩ := awaits
      obtain ⟨j, found'⟩ := List.mem_iff_getElem?.mp listed
      obtain ⟨row', known', version'⟩ :=
        reported_current tracked clean found' reported' (by rw [returned]; rfl)
      rw [sandbox, known] at known'
      cases known'
      refine alone j s' (fun here => ?_) found' reported' sandbox (version'.symm.trans equal)
      rw [here, found] at found'
      cases found'
      rw [waiting] at returned
      cases returned
  · intro admitted
    obtain ⟨status, outputTag, errorDetail, read, clear⟩ := admitted r value ⟨found, waiting, future⟩
    refine clean_set clean found (fun reported j s apart old reported' sandbox version => ?_)
      fun outcome raised => ?_
    · obtain ⟨mutating, _, _, success⟩ := reported
      simp only [afterResult, read, Phase.outcome, Option.some.injEq, Outcome.result.injEq] at success
      obtain ⟨⟨row, known, current⟩, free⟩ := clear success.1 mutating
      cases phase : s.phase with
      | returned o => exact free s (List.mem_of_getElem? old) ⟨reported', o, phase⟩ sandbox
      | recorded o =>
        obtain ⟨row', known', -, passed, -⟩ := tracked.version j s old
        have sandbox' : s.action.sandboxId = r.action.sandboxId := sandbox
        rw [sandbox', known] at known'
        cases known'
        have below := passed (by rw [phase]; rfl) reported'
        have version' : s.action.expectedStateVersion = r.action.expectedStateVersion := version
        omega
      | raised o =>
        obtain ⟨-, outputTag', errorDetail', has⟩ := reported'
        rw [phase] at has
        have equal : o = some (.result "SUCCESS" outputTag' errorDetail') := has
        rw [equal] at phase
        have lost := clean.kept j s _ old phase
        cases lost
      | opened | sending | waiting =>
        obtain ⟨-, _, _, has⟩ := reported'
        rw [phase] at has
        cases has
    · simp [afterResult, read] at raised

theorem recordOutcome_tracked {i : ℕ} {r : Request} {outcome : Outcome}
    (tracked : Tracked db₀ g.db g.requests) (found : g.requests[i]? = some r)
    (returned : r.phase = .returned outcome) (eventId now : String) (stored : Bool) :
    Tracked db₀ (recordOutcome cfg g i r outcome eventId now stored).db
      (recordOutcome cfg g i r outcome eventId now stored).requests := by
  have unrecorded : r.phase.isRecorded = false := by rw [returned]; rfl
  have has : r.phase.outcome = some outcome := by rw [returned]; rfl
  obtain ⟨call, db, version, hcall, ran, stored', written⟩ | ⟨-, stored', written⟩ :=
    recordOutcome_cases cfg g i r outcome eventId now stored
  · rw [stored', written]
    obtain ⟨same, advances⟩ := recordCall_spec hcall has
    have reported := reported_congr (r := r) (p := .recorded outcome) has.symm
    obtain ⟨_, _, _, _, other, -⟩ | ⟨_, _, other, -⟩ | ⟨_, _, equal, -, done⟩ := atomic_cases ran
    · cases other
    · cases other
    · cases equal
      exact tracked_recorded tracked found unrecorded rfl rfl same (advances.trans reported.symm) done
  · rw [stored', written]
    exact tracked_advanced tracked found rfl unrecorded rfl

/-- A received result is recorded exactly if the recording passes its checks:
the version is then still the expected one. -/
theorem recordOutcome_clean_iff {i : ℕ} {r : Request} {outcome : Outcome}
    (tracked : Tracked db₀ g.db g.requests) (clean : Clean g.requests)
    (found : g.requests[i]? = some r) (returned : r.phase = .returned outcome)
    (eventId now : String) (stored : Bool) :
    Clean (recordOutcome cfg g i r outcome eventId now stored).requests ↔
      Admitted cfg g (.record i eventId now stored) := by
  have unrecorded : r.phase.isRecorded = false := by rw [returned]; rfl
  have has : r.phase.outcome = some outcome := by rw [returned]; rfl
  have only : ∀ s o, g.requests[i]? = some s → s.phase = .returned o → s = r ∧ o = outcome := by
    intro s o found' returned'
    rw [found] at found'
    cases found'
    rw [returned] at returned'
    cases returned'
    exact ⟨rfl, rfl⟩
  have alone : ∀ phase : Phase, phase.outcome = some outcome →
      Reported { r with phase } → ∀ (j : ℕ) s, j ≠ i → g.requests[j]? = some s → Reported s →
      s.action.sandboxId = r.action.sandboxId →
      s.action.expectedStateVersion ≠ r.action.expectedStateVersion := by
    intro phase same reported j s apart old reported' sandbox version
    have reported₀ := (reported_congr (same.trans has.symm)).mp reported
    exact apart (clean.once j i s r old found reported' reported₀ sandbox version)
  obtain ⟨call, db, version, hcall, ran, -, written⟩ | ⟨failed, -, written⟩ :=
    recordOutcome_cases cfg g i r outcome eventId now stored
  · rw [written]
    constructor
    · intro _ s o found' returned' _
      obtain ⟨rfl, rfl⟩ := only s o found' returned'
      exact ⟨call, hcall, (record_commits_iff.mp ⟨db, version, ran⟩).1⟩
    · intro _
      exact clean_set clean found (alone (.recorded outcome) rfl) fun o raised => nomatch raised
  · rw [written]
    constructor
    · intro after s o found' returned' received
      obtain ⟨rfl, rfl⟩ := only s o found' returned'
      have lost := after.kept i _ o ((get_set found).mpr (.inl ⟨rfl, rfl⟩)) rfl
      rw [lost] at received
      cases received
    · intro admitted
      refine clean_set clean found (alone (.raised (some outcome)) rfl) fun o raised => ?_
      cases raised
      by_contra received
      rw [Bool.not_eq_false] at received
      obtain ⟨call, hcall, passes⟩ := admitted r outcome found returned received
      obtain ⟨same, advances⟩ := recordCall_spec hcall has
      obtain ⟨db', n, ran⟩ := record_commits_iff.mpr ⟨passes, fun h => by
        rw [same]
        exact reported_current tracked clean found (advances.mp h) unrecorded⟩
      obtain ⟨failure, raised⟩ := failed call hcall
      rw [ran] at raised
      cases raised

theorem step_tracked (e : SandboxGateway.Event) (tracked : Tracked db₀ g.db g.requests) :
    Tracked db₀ (step cfg g e).db (step cfg g e).requests := by
  obtain ⟨-, moved⟩ | ⟨i, r, value, rfl, ⟨found, waiting, -⟩, db, requests⟩ |
    ⟨i, eventId, now, stored, r, outcome, rfl, found, returned, same⟩ := step_cases cfg g e
  · exact moved_tracked tracked moved
  · rw [db, requests]
    refine tracked_advanced tracked found rfl (by rw [waiting]; rfl) ?_
    simp only [afterResult]
    split <;> rfl
  · rw [same]
    exact recordOutcome_tracked tracked found returned eventId now stored

theorem silent_admitted {e : SandboxGateway.Event} (silent : Silent g e) : Admitted cfg g e := by
  obtain ⟨wakes, records⟩ := silent
  cases e with
  | wake i => exact fun r value h => absurd h (wakes i r value rfl)
  | record i eventId now stored =>
    exact fun r outcome found returned =>
      absurd returned (records i eventId now stored r outcome rfl found)
  | connect | frame | disconnect | leave | issue | dispatch | sent | sendFailed | timeout => trivial

theorem step_clean_iff (e : SandboxGateway.Event) (tracked : Tracked db₀ g.db g.requests)
    (clean : Clean g.requests) : Clean (step cfg g e).requests ↔ Admitted cfg g e := by
  obtain ⟨silent, moved⟩ | ⟨i, r, value, rfl, wakes, -, requests⟩ |
    ⟨i, eventId, now, stored, r, outcome, rfl, found, returned, same⟩ := step_cases cfg g e
  · exact iff_of_true (moved_clean clean moved) (silent_admitted silent)
  · rw [requests]
    exact wake_clean_iff tracked clean wakes
  · rw [same]
    exact recordOutcome_clean_iff tracked clean found returned eventId now stored

end

theorem start_tracked (db₀ : Database) : Tracked db₀ (start db₀).db (start db₀).requests := by
  have empty : ∀ (i : ℕ) r, (start db₀).requests[i]? ≠ some r := by
    intro i r h
    cases h
  refine ⟨fun i r h => absurd h (empty i r), fun i j r r' h => absurd h (empty i r),
    fun i j r r' h => absurd h (empty i r), fun i r h => absurd h (empty i r), ⟨[], ?_, ?_⟩,
    ⟨[], ?_, ?_⟩⟩
  · exact (List.append_nil _).symm
  · exact ⟨fun i r h => absurd h (empty i r), fun _ _ => rfl⟩
  · exact (List.append_nil _).symm
  · exact ⟨fun i r h => absurd h (empty i r), fun _ _ => rfl⟩

/-- A run serialises the mutations of every sandbox exactly if its steps are admitted. -/
theorem serialised_iff_admitted (cfg : Config) (db₀ : Database)
    (es : List SandboxGateway.Event) :
    EventRun.Throughout (step cfg) (fun g => Serialised db₀ g.db g.requests) (start db₀) es ↔
      EventRun.Along (step cfg) (Admitted cfg) (start db₀) es := by
  refine EventRun.throughout_iff_along (I := fun g => Tracked db₀ g.db g.requests)
    (fun g e tracked => step_tracked e tracked) (fun g e tracked serialised => ?_)
    (start_tracked db₀) ?_ es
  · rw [serialised_iff_clean (step_tracked e tracked)]
    exact step_clean_iff e tracked ((serialised_iff_clean tracked).mp serialised)
  · rw [serialised_iff_clean (start_tracked db₀)]
    exact ⟨fun i j r r' h => (nomatch h), fun i r outcome h => (nomatch h)⟩

/-- Two directories are requested at version 0 of one sandbox, both commands
are sent, and the controller reports SUCCESS for both. -/
def twoSuccesses : List SandboxGateway.Event :=
  [sampleConnect, firstIssue, secondIssue, .dispatch 0, .dispatch 1, .sent 0, .sent 1,
    sampleSuccess 0 "01ARZ3NDEKTSV4RRFFQ69G5FA1", sampleSuccess 0 "01ARZ3NDEKTSV4RRFFQ69G5FA2",
    .wake 0, .record 0 "01ARZ3NDEKTSV4RRFFQ69G5FE1" "2026-01-02T03:04:05.678Z" true,
    .wake 1, .record 1 "01ARZ3NDEKTSV4RRFFQ69G5FE2" "2026-01-02T03:04:05.678Z" true]

theorem twoSuccesses_unserialised :
    ¬ EventRun.Throughout (step sampleConfig)
      (fun g => Serialised sampleDatabase g.db g.requests) (start sampleDatabase) twoSuccesses := by
  intro throughout
  have serialised := EventRun.throughout_last throughout
  have finished : (EventRun.run (step sampleConfig) (start sampleDatabase) twoSuccesses).requests.any
      (fun r => r.action.actionId = "01ARZ3NDEKTSV4RRFFQ69G5FA2" && r.phase.ended &&
        r.phase.outcome.any Outcome.received) = true := by decide +kernel
  have pending : (EventRun.run (step sampleConfig) (start sampleDatabase)
      twoSuccesses).db.actions.rows.all (fun row => row.actionId ≠ "01ARZ3NDEKTSV4RRFFQ69G5FA2" ||
        row.status = "PENDING") = true := by decide +kernel
  obtain ⟨r, listed, facts⟩ := List.any_eq_true.mp finished
  simp only [Bool.and_eq_true, decide_eq_true_eq, Option.any_eq_true] at facts
  obtain ⟨⟨id, ended⟩, outcome, has, received⟩ := facts
  obtain ⟨i, found⟩ := List.mem_iff_getElem?.mp listed
  obtain ⟨row, known, terminal⟩ := (serialised.ended i r outcome found ended has received).row
  have waits := List.all_eq_true.mp pending row (KeyedTable.mem_of_find _ known)
  simp only [KeyedTable.key_of_find _ known, id, ne_eq, not_true_eq_false, decide_false,
    Bool.false_or, decide_eq_true_eq] at waits
  rw [waits] at terminal
  exact pending_not_completed terminal

end Mirage.CommandSerialisation
