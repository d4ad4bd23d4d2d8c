import Mirage.SandboxGateway
import Mirage.EventRun

/-! Cases and their sandboxes at the gateway. The case of a request comes from its URL,
the sandbox from its body, and which case a sandbox belongs to was fixed by the
controller's first connect. -/

namespace Mirage.CaseIsolation
open SandboxActions SandboxGateway AuditOutbox EventEnvelope RowLocks

def Owned (db : Database) (sandboxId caseId : String) : Prop :=
  ∃ row, db.sandboxes.find sandboxId = some row ∧ row.caseId = caseId

def CommandOwned (db : Database) (e : OutboxRow) : Prop :=
  ∃ sandboxId caseId, e.payload.get? "sandbox_id" = some (.str sandboxId) ∧
    e.payload.get? "case_id" = some (.str caseId) ∧ Owned db sandboxId caseId

/-- A result in the outbox carries the case of the sandbox that its journal
entry was for. -/
def ResultOwned (db : Database) (e : OutboxRow) : Prop :=
  ∃ row ∈ db.actions.rows,
    ((e.payload.get? "payload").getD .null).get? "journal_entry_id" = some (.str row.actionId) ∧
    e.payload.get? "case_id" = some (.str row.caseId) ∧ Owned db row.sandboxId row.caseId

structure Isolated (g : Gateway) : Prop where
  actions : ∀ row ∈ g.db.actions.rows, Owned g.db row.sandboxId row.caseId
  commands : ∀ e ∈ g.db.outbox.rows, e.topic = "sandbox.command" → CommandOwned g.db e
  results : ∀ e ∈ g.db.outbox.rows, e.topic = "sandbox.result" → ResultOwned g.db e
  requests : ∀ r ∈ g.requests, Owned g.db r.action.sandboxId r.action.caseId

def openable (call : OpenCall) (db : Database) : Bool :=
  match actionTypeOf call.actionType with
  | none => false
  | some actionType =>
    let a := pendingAction call actionType
    ulidPattern a.actionId && ulidPattern a.commandId && ulidPattern a.policyDecisionId &&
      a.issuedBy ∈ ["AI", "ANALYST", "SYSTEM"] &&
      (db.actions.rows.all fun r => r.commandId ≠ a.commandId) &&
      (db.actions.insert (pendingRow a)).isSome &&
      (db.outbox.insert ⟨a.commandId, "sandbox.command", commandEnvelope call a⟩).isSome &&
      call.stored

def Admitted (g : Gateway) : SandboxGateway.Event → Prop
  | .issue caseId body drawn => ∀ call row, readBody caseId body drawn = .ok call →
      g.db.sandboxes.find call.sandboxId = some row →
      row.stateVersion = call.expectedStateVersion → openable call g.db = true →
      row.caseId = call.caseId
  | _ => True

def Linked (g : Gateway) : Prop :=
  ∀ r ∈ g.requests, ∃ row ∈ g.db.actions.rows, row.actionId = r.action.actionId ∧
    row.sandboxId = r.action.sandboxId ∧ row.caseId = r.action.caseId

theorem openPendingAction_isOk_iff {call : OpenCall} {row : Option SandboxRow} {db : Database} :
    (∃ done, openPendingAction call row db = .ok done) ↔
      (∃ r, row = some r ∧ r.stateVersion = call.expectedStateVersion) ∧
        openable call db = true := by
  constructor
  · rintro ⟨done, ran⟩
    simp only [openPendingAction, bind_eq_ok, require_eq_ok, present_eq_ok] at ran
    obtain ⟨r, found, -, version, actionType, known, -, ids, -, issuer, -, command, actions,
      inserted, outbox, announced, -, stored, -⟩ := ran
    refine ⟨⟨r, found, by simpa using version⟩, ?_⟩
    simp only [openable, known, inserted, announced, stored, command, issuer, Option.isSome_some,
      Bool.and_true]
    exact ids
  · rintro ⟨⟨r, rfl, version⟩, passes⟩
    simp only [openable] at passes
    cases known : actionTypeOf call.actionType with
    | none => simp [known] at passes
    | some actionType =>
      simp only [known, Bool.and_eq_true] at passes
      obtain ⟨⟨⟨⟨⟨ids, issuer⟩, command⟩, inserted⟩, announced⟩, stored⟩ := passes
      obtain ⟨actions, inserted⟩ := Option.isSome_iff_exists.mp inserted
      obtain ⟨outbox, announced⟩ := Option.isSome_iff_exists.mp announced
      refine ⟨({ db with actions, outbox }, pendingAction call actionType), ?_⟩
      simp only [openPendingAction, bind_eq_ok, require_eq_ok, present_eq_ok]
      exact ⟨r, rfl, (), by simpa using version, actionType, known, (), by simpa using ids, (),
        issuer, (), command, actions, inserted, outbox, announced, (), stored, rfl⟩

theorem issue_isOk_iff (cfg : Config) (db : Database) (call : OpenCall) :
    (∃ db' a, (ledger cfg.digest).atomic (.openAction call) db = (db', .ok (.pending a))) ↔
      (∃ r, db.sandboxes.find call.sandboxId = some r ∧
        r.stateVersion = call.expectedStateVersion) ∧ openable call db = true := by
  rw [← openPendingAction_isOk_iff]
  constructor
  · rintro ⟨db', a, ran⟩
    have executed := (atomic_eq_ok (ledger cfg.digest)).mp ran
    simp only [ledger, execute, bind_eq_ok] at executed
    obtain ⟨done, opened, -⟩ := executed
    exact ⟨done, opened⟩
  · rintro ⟨⟨db', a⟩, opened⟩
    refine ⟨db', a, (atomic_eq_ok (ledger cfg.digest)).mpr ?_⟩
    simp only [ledger, execute, bind_eq_ok]
    exact ⟨(db', a), opened, rfl⟩

/-! What a sandbox belongs to never changes. -/

theorem owned_ensured {db : Database} {sandboxId caseId : String} (id caseId' : String)
    (owned : Owned db sandboxId caseId) :
    Owned { db with sandboxes := db.sandboxes.upsert ⟨id, caseId', 0⟩ (fun r => r) fun _ => rfl }
      sandboxId caseId := by
  obtain ⟨row, found, same⟩ := owned
  refine ⟨row, ?_, same⟩
  show (db.sandboxes.upsert ⟨id, caseId', 0⟩ _ fun _ => rfl).find sandboxId = some row
  rw [KeyedTable.find_upsert]
  split
  next here =>
    rw [here] at found
    rw [found]
    rfl
  next => exact found

theorem owned_recorded {digest : String → String} {call : RecordCall} {row : Option SandboxRow}
    {db db' : Database} (done : Recorded digest call row db db') {sandboxId caseId : String}
    (owned : Owned db sandboxId caseId) : Owned db' sandboxId caseId := by
  obtain ⟨row, found, same⟩ := owned
  rw [Owned, done.sandboxes]
  split
  · rw [KeyedTable.find_update]
    split
    next here =>
      rw [← here, found]
      exact ⟨_, rfl, same⟩
    next => exact ⟨row, found, same⟩
  · exact ⟨row, found, same⟩

structure Keeps (db db' : Database) : Prop where
  owned : ∀ sandboxId caseId, Owned db sandboxId caseId → Owned db' sandboxId caseId
  kept : ∀ row ∈ db.actions.rows, ∃ row' ∈ db'.actions.rows, row'.actionId = row.actionId ∧
    row'.sandboxId = row.sandboxId ∧ row'.caseId = row.caseId

theorem Keeps.command {db db' : Database} (keeps : Keeps db db') {e : OutboxRow}
    (owned : CommandOwned db e) : CommandOwned db' e := by
  obtain ⟨sandboxId, caseId, names, carries, owned⟩ := owned
  exact ⟨sandboxId, caseId, names, carries, keeps.owned _ _ owned⟩

theorem Keeps.result {db db' : Database} (keeps : Keeps db db') {e : OutboxRow}
    (owned : ResultOwned db e) : ResultOwned db' e := by
  obtain ⟨row, mem, entry, carries, owned⟩ := owned
  obtain ⟨row', mem', sameId, sameSandbox, sameCase⟩ := keeps.kept row mem
  refine ⟨row', mem', ?_, ?_, ?_⟩
  · rw [sameId, entry]
  · rw [sameCase, carries]
  · rw [sameSandbox, sameCase]
    exact keeps.owned _ _ owned

theorem Keeps.linked {g g' : Gateway} (keeps : Keeps g.db g'.db)
    (requests : ∀ r ∈ g'.requests, ∃ r₀ ∈ g.requests, r₀.action = r.action) (linked : Linked g) :
    Linked g' := by
  intro r mem
  obtain ⟨r₀, mem₀, same⟩ := requests r mem
  obtain ⟨row, inside, sameId, sameSandbox, sameCase⟩ := linked r₀ mem₀
  obtain ⟨row', inside', sameId', sameSandbox', sameCase'⟩ := keeps.kept row inside
  rw [← same]
  exact ⟨row', inside', sameId'.trans sameId, sameSandbox'.trans sameSandbox,
    sameCase'.trans sameCase⟩

theorem keeps_refl (db : Database) : Keeps db db :=
  ⟨fun _ _ owned => owned, fun row mem => ⟨row, mem, rfl, rfl, rfl⟩⟩

theorem keeps_ensured (db : Database) (sandboxId caseId : String) :
    Keeps db { db with sandboxes := db.sandboxes.upsert ⟨sandboxId, caseId, 0⟩ id fun _ => rfl } :=
  ⟨fun _ _ owned => owned_ensured sandboxId caseId owned, fun row mem => ⟨row, mem, rfl, rfl, rfl⟩⟩

theorem keeps_opened {call : OpenCall} {row : Option SandboxRow} {db db' : Database}
    {a : PendingAction} (done : Opened call row db db' a) : Keeps db db' := by
  refine ⟨fun sandboxId caseId owned => ?_, fun row mem => ⟨row, ?_, rfl, rfl, rfl⟩⟩
  · rw [Owned, done.sandboxes]
    exact owned
  · rw [(KeyedTable.insert_eq_some done.inserted).2]
    exact List.mem_append_left _ mem

theorem mem_completed {digest : String → String} {call : RecordCall} {row : Option SandboxRow}
    {db db' : Database} (done : Recorded digest call row db db') {r' : ActionRow} :
    r' ∈ db'.actions.rows ↔ ∃ r ∈ db.actions.rows,
      (if r.actionId = call.action.actionId then completed call r else r) = r' := by
  rw [done.actions]
  exact List.mem_map

theorem keeps_recorded {digest : String → String} {call : RecordCall} {row : Option SandboxRow}
    {db db' : Database} (done : Recorded digest call row db db') : Keeps db db' := by
  refine ⟨fun _ _ owned => owned_recorded done owned, fun r mem => ?_⟩
  refine ⟨_, (mem_completed done).mpr ⟨r, mem, rfl⟩, ?_⟩
  split <;> exact ⟨rfl, rfl, rfl⟩

theorem Isolated.step {g g' : Gateway} (isolated : Isolated g) (keeps : Keeps g.db g'.db)
    (actions : ∀ row' ∈ g'.db.actions.rows, Owned g'.db row'.sandboxId row'.caseId ∨
      ∃ row ∈ g.db.actions.rows, row.sandboxId = row'.sandboxId ∧ row.caseId = row'.caseId)
    (outbox : ∀ e ∈ g'.db.outbox.rows, e ∈ g.db.outbox.rows ∨
      (e.topic = "sandbox.command" → CommandOwned g'.db e) ∧
        (e.topic = "sandbox.result" → ResultOwned g'.db e))
    (requests : ∀ r ∈ g'.requests, Owned g'.db r.action.sandboxId r.action.caseId ∨
      ∃ r₀ ∈ g.requests, r₀.action = r.action) : Isolated g' := by
  refine ⟨fun row' mem => ?_, fun e mem topic => ?_, fun e mem topic => ?_, fun r mem => ?_⟩
  · rcases actions row' mem with owned | ⟨row, before, sameSandbox, sameCase⟩
    · exact owned
    · rw [← sameSandbox, ← sameCase]
      exact keeps.owned _ _ (isolated.actions row before)
  · rcases outbox e mem with before | ⟨command, -⟩
    · exact keeps.command (isolated.commands e before topic)
    · exact command topic
  · rcases outbox e mem with before | ⟨-, result⟩
    · exact keeps.result (isolated.results e before topic)
    · exact result topic
  · rcases requests r mem with owned | ⟨r₀, before, same⟩
    · exact owned
    · rw [← same]
      exact keeps.owned _ _ (isolated.requests r₀ before)

/-- A request that opened its action keeps the cases apart exactly if it names
a sandbox of its own case. -/
theorem opened_isolated_iff {g g' : Gateway} {call : OpenCall} {a : PendingAction}
    (isolated : Isolated g)
    (done : Opened call (g.db.sandboxes.find call.sandboxId) g.db g'.db a)
    (requests : g'.requests = g.requests ++ [⟨a, none, .opened⟩]) :
    Isolated g' ↔ Owned g.db call.sandboxId call.caseId := by
  obtain ⟨actionType, rfl⟩ := done.pending
  constructor
  · intro isolated'
    have owned := isolated'.requests ⟨pendingAction call actionType, none, .opened⟩
      (by rw [requests]; exact List.mem_append_right _ (List.mem_singleton_self _))
    rw [Owned, done.sandboxes] at owned
    exact owned
  · intro owned
    have keeps := keeps_opened done
    refine isolated.step keeps (fun row' mem => ?_) (fun e mem => ?_) (fun r mem => ?_)
    · rw [(KeyedTable.insert_eq_some done.inserted).2, List.mem_append, List.mem_singleton] at mem
      rcases mem with before | rfl
      · exact .inr ⟨row', before, rfl, rfl⟩
      · exact .inl (keeps.owned _ _ owned)
    · rw [done.outbox, List.mem_append, List.mem_singleton] at mem
      rcases mem with before | rfl
      · exact .inl before
      · refine .inr ⟨fun _ => ?_, fun topic => absurd topic (by simp)⟩
        exact ⟨call.sandboxId, call.caseId, rfl, rfl, keeps.owned _ _ owned⟩
    · rw [requests, List.mem_append, List.mem_singleton] at mem
      rcases mem with before | rfl
      · exact .inr ⟨r, before, rfl⟩
      · exact .inl (keeps.owned _ _ owned)

theorem opened_linked {g g' : Gateway} {call : OpenCall} {row : Option SandboxRow} {a : PendingAction}
    (linked : Linked g) (done : Opened call row g.db g'.db a)
    (requests : g'.requests = g.requests ++ [⟨a, none, .opened⟩]) : Linked g' := by
  have rows := (KeyedTable.insert_eq_some done.inserted).2
  intro r mem
  rw [requests, List.mem_append, List.mem_singleton] at mem
  rcases mem with before | rfl
  · obtain ⟨row, inside, same⟩ := linked r before
    exact ⟨row, by rw [rows]; exact List.mem_append_left _ inside, same⟩
  · refine ⟨pendingRow a, ?_, rfl, rfl, rfl⟩
    rw [rows]
    exact List.mem_append_right _ (List.mem_singleton_self _)

theorem recorded_isolated {digest : String → String} {g g' : Gateway} {call : RecordCall}
    {row : Option SandboxRow} {r : Request} (isolated : Isolated g) (linked : Linked g)
    (done : Recorded digest call row g.db g'.db) (mem : r ∈ g.requests)
    (same : call.action = r.action)
    (requests : ∀ r ∈ g'.requests, ∃ r₀ ∈ g.requests, r₀.action = r.action) : Isolated g' := by
  have keeps := keeps_recorded done
  refine isolated.step keeps (fun row' mem' => ?_) (fun e mem' => ?_) (fun r' mem' => .inr (requests r' mem'))
  · obtain ⟨row, inside, rfl⟩ := (mem_completed done).mp mem'
    refine .inr ⟨row, inside, ?_⟩
    split <;> exact ⟨rfl, rfl⟩
  · rw [done.outbox, List.mem_append, List.mem_singleton] at mem'
    rcases mem' with before | rfl
    · exact .inl before
    · refine .inr ⟨fun topic => absurd topic (by simp [outboxRow]), fun _ => ?_⟩
      obtain ⟨row, inside, sameId, sameSandbox, sameCase⟩ := linked r mem
      obtain ⟨row', inside', sameId', sameSandbox', sameCase'⟩ := keeps.kept row inside
      refine ⟨row', inside', ?_, ?_, ?_⟩
      · rw [sameId', sameId, ← same]
        rfl
      · rw [sameCase', sameCase, ← same]
        rfl
      · rw [sameSandbox', sameCase']
        exact keeps.owned _ _ (isolated.actions row inside)

theorem action_of_set {requests : List Request} {i : ℕ} {r r' : Request}
    (found : requests[i]? = some r) (action : r'.action = r.action) :
    ∀ r₁ ∈ requests.set i r', ∃ r₀ ∈ requests, r₀.action = r₁.action := by
  intro r₁ mem
  rcases List.mem_or_eq_of_mem_set mem with before | rfl
  · exact ⟨r₁, before, rfl⟩
  · exact ⟨r, List.mem_of_getElem? found, action.symm⟩

theorem recordCall_action {cfg : Config} {r : Request} {outcome : Outcome} {eventId now : String}
    {stored : Bool} {call : RecordCall} (h : recordCall cfg r outcome eventId now stored = some call) :
    call.action = r.action := by
  simp only [recordCall, Option.bind_eq_bind, Option.bind_eq_some_iff, Option.pure_def,
    Option.some.injEq] at h
  obtain ⟨_, -, _, -, rfl⟩ := h
  rfl

/-- Recording changes no action of a request, and the database as
`record_action_result` does or not at all. -/
theorem recordOutcome_changes (cfg : Config) {g : Gateway} {i : ℕ} {r : Request} (outcome : Outcome)
    (found : g.requests[i]? = some r) (eventId now : String) (stored : Bool) :
    let g' := recordOutcome cfg g i r outcome eventId now stored
    (∀ r ∈ g'.requests, ∃ r₀ ∈ g.requests, r₀.action = r.action) ∧
      (g'.db = g.db ∨ ∃ call row, call.action = r.action ∧ Recorded cfg.digest call row g.db g'.db) := by
  obtain ⟨call, db, version, hcall, ran, sameDb, sameRequests⟩ | ⟨-, sameDb, sameRequests⟩ :=
    recordOutcome_cases cfg g i r outcome eventId now stored
  · refine ⟨by rw [sameRequests]; exact action_of_set found rfl, .inr ?_⟩
    obtain ⟨_, _, _, _, other, -⟩ | ⟨_, _, other, -⟩ | ⟨_, _, equal, -, done⟩ := atomic_cases ran
    · cases other
    · cases other
    · cases equal
      rw [← sameDb] at done
      exact ⟨call, _, recordCall_action hcall, done⟩
  · exact ⟨by rw [sameRequests]; exact action_of_set found rfl, .inl sameDb⟩

theorem keeps_of_eq {db db' : Database} (same : db' = db) : Keeps db db' := same ▸ keeps_refl db

theorem requests_length (cfg : Config) (g : Gateway) (e : SandboxGateway.Event)
    (other : ∀ caseId body drawn, e ≠ .issue caseId body drawn) :
    (SandboxGateway.step cfg g e).requests.length = g.requests.length := by
  cases e with
  | issue caseId body drawn => exact absurd rfl (other caseId body drawn)
  | connect sandboxId caseId h stored accepted =>
    simp only [SandboxGateway.step]
    split
    · split
      · split <;> rfl
      · rfl
    · rfl
  | frame ws text =>
    simp only [SandboxGateway.step, deliver, cleanUp]
    split
    · split
      · split
        · split <;> rfl
        · rfl
        · rfl
      · rfl
    · rfl
  | disconnect ws =>
    simp only [SandboxGateway.step]
    split <;> rfl
  | leave ws =>
    simp only [SandboxGateway.step]
    split
    · split <;> rfl
    · rfl
  | dispatch i =>
    simp only [SandboxGateway.step]
    split
    · split <;> simp [settle]
    · rfl
  | sent i =>
    simp only [SandboxGateway.step]
    split <;> simp [settle]
  | sendFailed i caught =>
    simp only [SandboxGateway.step]
    split
    · split <;> simp [endDispatch, settle]
    · rfl
  | timeout i =>
    simp only [SandboxGateway.step]
    split <;> simp [endDispatch, settle]
  | wake i =>
    simp only [SandboxGateway.step]
    split
    · split <;> simp [endDispatch, settle]
    · rfl
  | record i eventId now stored =>
    obtain ⟨r, outcome, -, -, same⟩ | ⟨-, same⟩ := record_cases cfg g i eventId now stored
    · rw [same]
      obtain ⟨_, _, _, -, -, -, requests⟩ | ⟨-, -, requests⟩ :=
        recordOutcome_cases cfg g i r outcome eventId now stored
      · rw [requests, List.length_set]
      · rw [requests, List.length_set]
    · rw [same]

theorem step_changes (cfg : Config) (g : Gateway) (e : SandboxGateway.Event)
    (other : ∀ caseId body drawn, e ≠ .issue caseId body drawn) :
    let g' := SandboxGateway.step cfg g e
    (∀ r ∈ g'.requests, ∃ r₀ ∈ g.requests, r₀.action = r.action) ∧
      (g'.db = g.db ∨
        (∃ sandboxId caseId, g'.db = { g.db with
          sandboxes := g.db.sandboxes.upsert ⟨sandboxId, caseId, 0⟩ id fun _ => rfl }) ∨
        ∃ call row, (∃ r ∈ g.requests, call.action = r.action) ∧
          Recorded cfg.digest call row g.db g'.db) := by
  intro g'
  have itself : ∀ r ∈ g.requests, ∃ r₀ ∈ g.requests, r₀.action = r.action := fun r mem => ⟨r, mem, rfl⟩
  obtain ⟨-, moved⟩ | ⟨i, r, value, -, wakes, sameDb, requests⟩ |
    ⟨i, eventId, now, stored, r, outcome, -, found, -, same⟩ := step_cases cfg g e
  · have length := requests_length cfg g e other
    change Moved g g'.db g'.requests at moved
    change g'.requests.length = _ at length
    generalize g'.db = db at moved
    generalize g'.requests = requests at moved length
    cases moved with
    | same => exact ⟨itself, .inl rfl⟩
    | ensured sandboxId caseId => exact ⟨itself, .inr (.inl ⟨sandboxId, caseId, rfl⟩)⟩
    | opened done =>
      rw [List.length_append, List.length_singleton] at length
      omega
    | advanced found _ _ action _ _ => exact ⟨action_of_set found action, .inl rfl⟩
  · refine ⟨?_, .inl sameDb⟩
    show ∀ r ∈ (SandboxGateway.step cfg g e).requests, _
    rw [requests]
    exact action_of_set wakes.1 rfl
  · have changes := recordOutcome_changes cfg outcome found eventId now stored
    rw [← same] at changes
    obtain ⟨requests, unchanged | ⟨call, row, action, done⟩⟩ := changes
    · exact ⟨requests, .inl unchanged⟩
    · exact ⟨requests, .inr (.inr ⟨call, row, ⟨r, List.mem_of_getElem? found, action⟩, done⟩)⟩

theorem step_keeps (cfg : Config) (g : Gateway) {e : SandboxGateway.Event}
    (other : ∀ caseId body drawn, e ≠ .issue caseId body drawn) :
    Keeps g.db (SandboxGateway.step cfg g e).db := by
  obtain ⟨-, same | ⟨sandboxId, caseId, same⟩ | ⟨_, _, -, done⟩⟩ := step_changes cfg g e other
  · exact keeps_of_eq same
  · rw [same]
    exact keeps_ensured g.db sandboxId caseId
  · exact keeps_recorded done

theorem step_isolated {cfg : Config} {g : Gateway} {e : SandboxGateway.Event} (linked : Linked g)
    (isolated : Isolated g) (other : ∀ caseId body drawn, e ≠ .issue caseId body drawn) :
    Isolated (SandboxGateway.step cfg g e) := by
  have keeps := step_keeps cfg g other
  obtain ⟨requests, same | ⟨sandboxId, caseId, same⟩ | ⟨call, row, ⟨r, mem, action⟩, done⟩⟩ :=
    step_changes cfg g e other
  · refine isolated.step keeps (fun row' mem => .inr ⟨row', ?_, rfl, rfl⟩) (fun e mem => .inl ?_)
      (fun r mem => .inr (requests r mem))
    · rwa [same] at mem
    · rwa [same] at mem
  · refine isolated.step keeps (fun row' mem => .inr ⟨row', ?_, rfl, rfl⟩) (fun e mem => .inl ?_)
      (fun r mem => .inr (requests r mem))
    · rwa [same] at mem
    · rwa [same] at mem
  · exact recorded_isolated isolated linked done mem action requests

theorem issue_cases (cfg : Config) (g : Gateway) (caseId : String) (body : Json) (drawn : Drawn) :
    (∃ call a, readBody caseId body drawn = .ok call ∧ openable call g.db = true ∧
      Opened call (g.db.sandboxes.find call.sandboxId) g.db
        (SandboxGateway.step cfg g (.issue caseId body drawn)).db a ∧
      (SandboxGateway.step cfg g (.issue caseId body drawn)).requests =
        g.requests ++ [⟨a, none, .opened⟩]) ∨
    (SandboxGateway.step cfg g (.issue caseId body drawn) = g ∧
      ∀ call row, readBody caseId body drawn = .ok call →
        g.db.sandboxes.find call.sandboxId = some row →
        row.stateVersion = call.expectedStateVersion → openable call g.db ≠ true) := by
  cases read : readBody caseId body drawn with
  | error refusal =>
    refine .inr ⟨by simp only [SandboxGateway.step, read], fun call row h => (nomatch h)⟩
  | ok call =>
    by_cases opens : (∃ r, g.db.sandboxes.find call.sandboxId = some r ∧
        r.stateVersion = call.expectedStateVersion) ∧ openable call g.db = true
    · obtain ⟨db, a, ran⟩ := (issue_isOk_iff cfg g.db call).mpr opens
      left
      obtain ⟨_, _, _, _, wrong, -⟩ | ⟨c, a', equal, answer, done⟩ | ⟨_, _, wrong, -⟩ := atomic_cases ran
      · cases wrong
      · cases equal
        cases answer
        refine ⟨call, a, rfl, opens.2, ?_, ?_⟩
        · simpa only [SandboxGateway.step, read, ran] using done
        · simp only [SandboxGateway.step, read, ran]
      · cases wrong
    · right
      constructor
      · simp only [SandboxGateway.step, read]
        split
        next db action ran => exact absurd ((issue_isOk_iff cfg g.db call).mp ⟨db, action, ran⟩) opens
        next => rfl
      · intro call' row same found version passes
        cases same
        exact opens ⟨⟨row, found, version⟩, passes⟩

theorem step_linked (cfg : Config) (g : Gateway) (e : SandboxGateway.Event) (linked : Linked g) :
    Linked (SandboxGateway.step cfg g e) := by
  by_cases issues : ∃ caseId body drawn, e = .issue caseId body drawn
  · obtain ⟨caseId, body, drawn, rfl⟩ := issues
    obtain ⟨call, a, -, -, done, requests⟩ | ⟨same, -⟩ := issue_cases cfg g caseId body drawn
    · exact opened_linked linked done requests
    · rw [same]
      exact linked
  · have other : ∀ caseId body drawn, e ≠ .issue caseId body drawn :=
      fun caseId body drawn h => issues ⟨caseId, body, drawn, h⟩
    exact (step_keeps cfg g other).linked (step_changes cfg g e other).1 linked

theorem step_isolated_iff (cfg : Config) (g : Gateway) (e : SandboxGateway.Event)
    (linked : Linked g) (isolated : Isolated g) :
    Isolated (SandboxGateway.step cfg g e) ↔ Admitted g e := by
  by_cases issues : ∃ caseId body drawn, e = .issue caseId body drawn
  · obtain ⟨caseId, body, drawn, rfl⟩ := issues
    obtain ⟨call, a, read, passes, done, requests⟩ | ⟨same, refused⟩ :=
      issue_cases cfg g caseId body drawn
    · rw [opened_isolated_iff isolated done requests]
      constructor
      · rintro ⟨row, found, owned⟩ call' row' read' found' - -
        rw [read] at read'
        cases read'
        rw [found] at found'
        cases found'
        exact owned
      · intro admitted
        obtain ⟨row, found, version⟩ := done.current
        exact ⟨row, found, admitted call row read found version passes⟩
    · rw [same]
      refine iff_of_true isolated fun call row read found version passes => ?_
      exact absurd passes (refused call row read found version)
  · have other : ∀ caseId body drawn, e ≠ .issue caseId body drawn :=
      fun caseId body drawn h => issues ⟨caseId, body, drawn, h⟩
    refine iff_of_true (step_isolated linked isolated other) ?_
    cases e with
    | issue caseId body drawn => exact absurd rfl (other caseId body drawn)
    | _ => trivial

def newDatabase : Database where
  sandboxes := .empty
  actions := .empty
  audit := []
  outbox := .empty
  artifactTables := true
  deployments := []
  artifacts := .empty

/-- The cases are kept apart in every state of a run exactly if each of its
requests that passes the checks names a sandbox of its own case. -/
theorem caseIsolated_iff_admitted (cfg : Config) (es : List SandboxGateway.Event) :
    EventRun.Throughout (SandboxGateway.step cfg) Isolated (start newDatabase) es ↔
      EventRun.Along (SandboxGateway.step cfg) Admitted (start newDatabase) es := by
  have linked : Linked (start newDatabase) := fun r mem => absurd mem List.not_mem_nil
  have isolated : Isolated (start newDatabase) := by
    refine ⟨fun row mem => ?_, fun e mem => ?_, fun e mem => ?_, fun r mem => ?_⟩
    · exact absurd mem List.not_mem_nil
    · exact absurd mem List.not_mem_nil
    · exact absurd mem List.not_mem_nil
    · exact absurd mem List.not_mem_nil
  exact EventRun.throughout_iff_along (step_linked cfg) (step_isolated_iff cfg) linked isolated es

def strayIssue : SandboxGateway.Event :=
  .issue "01ARZ3NDEKTSV4RRFFQ69G5FC2"
    (.obj
      [ ("sandbox_id", .str "sandbox-1"), ("action_type", .str "CREATE_DECOY_DIRECTORY"),
        ("expected_state_version", .int 0),
        ("action_params", .obj [("path", .str "C:\\Users\\Public\\Payroll")]) ])
    ⟨"01ARZ3NDEKTSV4RRFFQ69G5FA1", "01ARZ3NDEKTSV4RRFFQ69G5FB1", "01ARZ3NDEKTSV4RRFFQ69G5FD1", true⟩

theorem strayIssue_crosses : ¬ EventRun.Throughout (SandboxGateway.step sampleConfig) Isolated
    (start newDatabase) [sampleConnect, strayIssue] := by
  intro throughout
  have isolated := EventRun.throughout_last throughout
  have opened : (EventRun.run (SandboxGateway.step sampleConfig) (start newDatabase)
      [sampleConnect, strayIssue]).requests.any
      (fun r => r.action.caseId = "01ARZ3NDEKTSV4RRFFQ69G5FC2") = true := by decide +kernel
  have first : (EventRun.run (SandboxGateway.step sampleConfig) (start newDatabase)
      [sampleConnect, strayIssue]).db.sandboxes.rows.all
      (fun row => row.caseId = "01ARZ3NDEKTSV4RRFFQ69G5FC1") = true := by decide +kernel
  obtain ⟨r, listed, stray⟩ := List.any_eq_true.mp opened
  obtain ⟨row, found, owned⟩ := isolated.requests r listed
  have belongs := List.all_eq_true.mp first row (KeyedTable.mem_of_find _ found)
  rw [owned, of_decide_eq_true stray] at belongs
  exact absurd belongs (by decide)

end Mirage.CaseIsolation
