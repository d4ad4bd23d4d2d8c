import Mirage.AgentDatabase
import Mirage.SandboxActions

/-! mirage-sandbox-gateway: the websockets of the environment controllers and the requests
that issue one sandbox action each. -/

namespace Mirage.SandboxGateway
open SandboxActions RowLocks
open AgentDatabase (AgentStatus Role)

structure Config where
  digest : String → String
  proxySharedSecret : String
  /-- `str.isprintable` on one character outside ASCII. -/
  printable : Char → Bool

/-- What `_dispatch_to_live_controller` ends with. -/
inductive Outcome where
  /-- The controller's result, with values the columns can take. -/
  | result (status : String) (outputTag errorDetail : Option String)
  /-- The controller's result without a status, or with a value of a type that
  the columns or the contract of the result event refuse. -/
  | unreadable
  | noConnection
  | disconnected
  | sendFailed (detail : String)
  | timeout

inductive Phase where
  | opened
  | sending
  | waiting
  /-- The dispatch returned; the result is not recorded yet. -/
  | returned (outcome : Outcome)
  | recorded (outcome : Outcome)
  /-- An exception ended the request, in its dispatch or later. -/
  | raised (outcome : Option Outcome)

structure Request where
  action : PendingAction
  sentOn : Option ℕ
  phase : Phase

inductive Future where
  | pending
  | result (value : Json)
  | disconnected
  | cancelled

def Future.done : Future → Bool
  | pending => false
  | _ => true

theorem Future.done_eq_false {future : Future} : future.done = false ↔ future = .pending := by
  cases future <;> simp [done]

structure Socket where
  sandboxId : String
  connected : Bool
  serving : Bool

structure Gateway where
  db : Database
  sockets : List Socket
  liveConnections : String → Option ℕ
  /-- For each sandbox, action ids with the requests whose futures they name. -/
  pendingBySandbox : String → List (String × ℕ)
  /-- The future that request `i` creates when it dispatches. -/
  futures : ℕ → Future
  requests : List Request

def escape (cfg : Config) (quote : Char) (c : Char) : List Char :=
  if c = quote || c = '\\' then ['\\', c]
  else if c = '\n' then ['\\', 'n']
  else if c = '\r' then ['\\', 'r']
  else if c = '\t' then ['\\', 't']
  else if (32 ≤ c.toNat && c.toNat < 127) || (127 < c.toNat && cfg.printable c) then [c]
  else
    let hex := fun digits : ℕ =>
      (List.range digits).reverse.map fun i => Json.hexDigit (c.toNat / 16 ^ i % 16)
    if c.toNat < 256 then '\\' :: 'x' :: hex 2
    else if c.toNat < 65536 then '\\' :: 'u' :: hex 4
    else '\\' :: 'U' :: hex 8

def repr (cfg : Config) (text : String) : String :=
  let quote := if text.toList.contains '\'' && !text.toList.contains '"' then '"' else '\''
  String.ofList (quote :: (text.toList.flatMap (escape cfg quote) ++ [quote]))

def Outcome.values (cfg : Config) (sandboxId : String) :
    Outcome → Option (String × Option String × Option String)
  | result status outputTag errorDetail => some (status, outputTag, errorDetail)
  | unreadable => none
  | noConnection => some ("FAILED", none,
      some ("no live controller connection for sandbox_id=" ++ repr cfg sandboxId))
  | disconnected => some ("FAILED", none,
      some ("sandbox " ++ repr cfg sandboxId ++ " controller disconnected mid-command"))
  | sendFailed detail => some ("FAILED", none, some detail)
  | timeout => some ("TIMEOUT", none,
      some "no result received from the sandbox controller within the command timeout")

/-! Reading what clients and controllers send. -/

inductive Refusal where
  | missingField (name : String)
  | unknownActionType (value : Json)
  | unknownIssuer (value : Json)
  | malformed

structure Drawn where
  actionId : String
  commandId : String
  policyDecisionId : String
  stored : Bool

def truthy : Json → Bool
  | .null => false
  | .bool b => b
  | .int n => n ≠ 0
  | .float _ integral => integral ≠ some 0
  | .str s => s ≠ ""
  | .arr items => !items.isEmpty
  | .obj members => !members.isEmpty

def field (body : Json) (name : String) : Except Refusal Json :=
  present (body.get? name) (.missingField name)

def readBody (caseId : String) (body : Json) (drawn : Drawn) : Except Refusal OpenCall := do
  let sandboxId ← field body "sandbox_id"
  let actionType ← field body "action_type"
  let version ← field body "expected_state_version"
  let actionType ← match actionType with
    | .str name => if (actionTypeOf name).isSome then .ok name else .error (.unknownActionType actionType)
    | _ => .error (.unknownActionType actionType)
  let issuedBy := (body.get? "issued_by").getD (.str "ANALYST")
  let issuedBy ← match issuedBy with
    | .str name => if name ∈ ["AI", "ANALYST", "SYSTEM"] then .ok name else .error (.unknownIssuer issuedBy)
    | _ => .error (.unknownIssuer issuedBy)
  let sandboxId ← match sandboxId with
    | .str name => .ok name
    | _ => .error .malformed
  let version ← match version with
    | .int n | .float _ (some n) => .ok n
    | _ => .error .malformed
  let params := (body.get? "action_params").getD .null
  pure
    { sandboxId, caseId, actionType, issuedBy
      actionParams := if truthy params then params else .obj []
      expectedStateVersion := version
      policyDecisionId := none
      actionId := drawn.actionId
      commandId := drawn.commandId
      generatedPolicyDecisionId := drawn.policyDecisionId
      stored := drawn.stored }

def optionalText : Option Json → Option (Option String)
  | none | some .null => some none
  | some (.str s) => some (some s)
  | _ => none

/-- `result["status"], result.get("output_tag"), result.get("error_detail")`;
none where the first raises or a column or the contract refuses the type later. -/
def readResult (result : Json) : Option (String × Option String × Option String) :=
  match result.get? "status", optionalText (result.get? "output_tag"),
    optionalText (result.get? "error_detail") with
  | some (.str status), some outputTag, some errorDetail => some (status, outputTag, errorDetail)
  | _, _, _ => none

inductive Reading where
  | result (actionId : String) (value : Json)
  | nothing
  /-- An exception other than `WebSocketDisconnect` leaves the loop. -/
  | exception

/-- `json.loads` and the lookup of `action_id`: no text is one that is not JSON. -/
def readFrame : Option Json → Reading
  | some (.obj members) =>
    match Json.member "action_id" members with
    | some (.str id) => if id = "" then .nothing else .result id (.obj members)
    | some (.arr (_ :: _)) | some (.obj (_ :: _)) => .exception
    | _ => .nothing
  | _ => .exception

/-- The value of `rollback_action_id`, if it can be computed and stored as a text. -/
def rollbackTarget (a : PendingAction) (status : String) : Option (Option String) :=
  if a.actionType = .rollbackAction ∧ status = "SUCCESS" then
    match a.actionParams with
    | .obj members => optionalText (Json.member "target_action_id" members)
    | _ => none
  else some none

structure Handshake where
  proxyAuth : Option String
  clientSerial : Option String
  /-- Status and role of the agent under the serial. -/
  agent : Option (AgentStatus × Role)

def admits (cfg : Config) (h : Handshake) : Bool :=
  h.proxyAuth.any (fun s => s ≠ "" && s = cfg.proxySharedSecret) &&
    h.clientSerial.any (fun s => s ≠ "") && h.agent = some (.active, .envController)

inductive Event where
  /-- A controller connects; `accepted` says whether the upgrade went through. -/
  | connect (sandboxId caseId : String) (handshake : Handshake) (stored accepted : Bool)
  | frame (ws : ℕ) (text : Option Json)
  /-- The peer is gone, which nobody has noticed yet. -/
  | disconnect (ws : ℕ)
  /-- The handler gets `WebSocketDisconnect` and cleans up. -/
  | leave (ws : ℕ)
  | issue (caseId : String) (body : Json) (drawn : Drawn)
  | dispatch (i : ℕ)
  | sent (i : ℕ)
  /-- `send_text` raises: an error that is caught, with its text, or another one. -/
  | sendFailed (i : ℕ) (caught : Option String)
  | wake (i : ℕ)
  /-- The timer of `wait_for` fires. It may be ahead of a result that is already set. -/
  | timeout (i : ℕ)
  | record (i : ℕ) (eventId now : String) (stored : Bool)

def settle (g : Gateway) (i : ℕ) (r : Request) (phase : Phase) : Gateway :=
  { g with requests := g.requests.set i { r with phase } }

/-- `pending_by_sandbox.get(sandbox_id, {}).pop(action_id, None)`. -/
def popPending (pending : String → List (String × ℕ)) (sandboxId actionId : String) :
    String → List (String × ℕ) :=
  Function.update pending sandboxId ((pending sandboxId).filter fun entry => entry.1 ≠ actionId)

/-- A dispatch ends; its `finally` removes the entry of the action. -/
def endDispatch (g : Gateway) (i : ℕ) (r : Request) (phase : Phase) : Gateway :=
  { settle g i r phase with
    pendingBySandbox := popPending g.pendingBySandbox r.action.sandboxId r.action.actionId }

/-- The `finally` of `sandbox_connect`: every future of the sandbox that is
not done fails, whichever websocket its command was sent on. -/
def cleanUp (g : Gateway) (ws : ℕ) (socket : Socket) : Gateway :=
  let failed := (g.pendingBySandbox socket.sandboxId).map Prod.snd
  { g with
    sockets := g.sockets.set ws { socket with connected := false, serving := false }
    liveConnections :=
      if g.liveConnections socket.sandboxId = some ws then
        Function.update g.liveConnections socket.sandboxId none
      else g.liveConnections
    pendingBySandbox := Function.update g.pendingBySandbox socket.sandboxId []
    futures := fun i =>
      if i ∈ failed && !(g.futures i).done then .disconnected else g.futures i }

/-- `pending.pop(action_id, None)` and `future.set_result(result)`. -/
def deliver (g : Gateway) (sandboxId actionId : String) (value : Json) : Gateway :=
  match (g.pendingBySandbox sandboxId).find? fun entry => entry.1 = actionId with
  | none => g
  | some (_, i) =>
    { g with
      pendingBySandbox := popPending g.pendingBySandbox sandboxId actionId
      futures :=
        if (g.futures i).done then g.futures else Function.update g.futures i (.result value) }

def recordCall (cfg : Config) (r : Request) (outcome : Outcome) (eventId now : String)
    (stored : Bool) : Option RecordCall := do
  let (status, outputTag, errorDetail) ← outcome.values cfg r.action.sandboxId
  let rollbackActionId ← rollbackTarget r.action status
  pure ⟨r.action, status, outputTag, rollbackActionId, errorDetail, eventId, now, stored⟩

def recordOutcome (cfg : Config) (g : Gateway) (i : ℕ) (r : Request) (outcome : Outcome)
    (eventId now : String) (stored : Bool) : Gateway :=
  match recordCall cfg r outcome eventId now stored with
  | none => settle g i r (.raised (some outcome))
  | some call =>
    match (ledger cfg.digest).atomic (.record call) g.db with
    | (db, .ok _) => { settle g i r (.recorded outcome) with db }
    | (_, .error _) => settle g i r (.raised (some outcome))

def step (cfg : Config) (g : Gateway) : Event → Gateway
  | .connect sandboxId caseId handshake stored accepted =>
    if admits cfg handshake then
      match (ledger cfg.digest).atomic (.ensureSandbox sandboxId caseId stored) g.db with
      | (db, .ok _) =>
        if accepted then
          { g with
            db
            sockets := g.sockets ++ [⟨sandboxId, true, true⟩]
            liveConnections := Function.update g.liveConnections sandboxId (some g.sockets.length) }
        else { g with db }
      | (_, .error _) => g
    else g
  | .frame ws text =>
    match g.sockets[ws]? with
    | some socket =>
      if socket.serving then
        match readFrame text with
        | .result actionId value => deliver g socket.sandboxId actionId value
        | .nothing => g
        | .exception => cleanUp g ws socket
      else g
    | none => g
  | .disconnect ws =>
    match g.sockets[ws]? with
    | some socket => { g with sockets := g.sockets.set ws { socket with connected := false } }
    | none => g
  | .leave ws =>
    match g.sockets[ws]? with
    | some socket => if socket.serving && !socket.connected then cleanUp g ws socket else g
    | none => g
  | .issue caseId body drawn =>
    match readBody caseId body drawn with
    | .error _ => g
    | .ok call =>
      match (ledger cfg.digest).atomic (.openAction call) g.db with
      | (db, .ok (.pending action)) =>
        { g with db, requests := g.requests ++ [⟨action, none, .opened⟩] }
      | _ => g
  | .dispatch i =>
    match g.requests[i]? with
    | some ⟨action, sentOn, .opened⟩ =>
      match g.liveConnections action.sandboxId with
      | none => settle g i ⟨action, sentOn, .opened⟩ (.returned .noConnection)
      | some ws =>
        { settle g i ⟨action, some ws, .opened⟩ .sending with
          pendingBySandbox := Function.update g.pendingBySandbox action.sandboxId
            ((g.pendingBySandbox action.sandboxId).filter (fun entry => entry.1 ≠ action.actionId) ++
              [(action.actionId, i)])
          futures := Function.update g.futures i .pending }
    | _ => g
  | .sent i =>
    match g.requests[i]? with
    | some ⟨action, sentOn, .sending⟩ => settle g i ⟨action, sentOn, .sending⟩ .waiting
    | _ => g
  | .sendFailed i caught =>
    match g.requests[i]? with
    | some ⟨action, some ws, .sending⟩ =>
      if (g.sockets[ws]?).any (fun socket => !socket.connected) then
        endDispatch g i ⟨action, some ws, .sending⟩ (match caught with
          | some detail => .returned (.sendFailed detail)
          | none => .raised none)
      else g
    | _ => g
  | .wake i =>
    match g.requests[i]? with
    | some ⟨action, sentOn, .waiting⟩ =>
      match g.futures i with
      | .result value =>
        endDispatch g i ⟨action, sentOn, .waiting⟩ (match readResult value with
          | some (status, outputTag, errorDetail) => .returned (.result status outputTag errorDetail)
          | none => .raised (some .unreadable))
      | .disconnected => endDispatch g i ⟨action, sentOn, .waiting⟩ (.returned .disconnected)
      | .pending | .cancelled => g
    | _ => g
  | .timeout i =>
    match g.requests[i]? with
    | some ⟨action, sentOn, .waiting⟩ =>
      { endDispatch g i ⟨action, sentOn, .waiting⟩ (.returned .timeout) with
        futures :=
          if (g.futures i).done then g.futures else Function.update g.futures i .cancelled }
    | _ => g
  | .record i eventId now stored =>
    match g.requests[i]? with
    | some ⟨action, sentOn, .returned outcome⟩ =>
      recordOutcome cfg g i ⟨action, sentOn, .returned outcome⟩ outcome eventId now stored
    | _ => g

def start (db : Database) : Gateway := ⟨db, [], fun _ => none, fun _ => [], fun _ => .pending, []⟩

/-! What a step does to the database and the requests. -/

def Phase.outcome : Phase → Option Outcome
  | returned outcome | recorded outcome => some outcome
  | raised outcome => outcome
  | opened | sending | waiting => none

def Phase.isRecorded : Phase → Bool
  | recorded _ => true
  | _ => false

def Phase.inFlight : Phase → Bool
  | sending | waiting => true
  | _ => false

def Phase.ended : Phase → Bool
  | recorded _ | raised _ => true
  | _ => false

def Outcome.received : Outcome → Bool
  | result .. | unreadable => true
  | _ => false

inductive Moved (g : Gateway) : Database → List Request → Prop
  | same : Moved g g.db g.requests
  | ensured (sandboxId caseId : String) :
      Moved g { g.db with sandboxes := g.db.sandboxes.upsert ⟨sandboxId, caseId, 0⟩ id fun _ => rfl }
        g.requests
  | opened {call : OpenCall} {db : Database} {a : PendingAction}
      (done : Opened call (g.db.sandboxes.find call.sandboxId) g.db db a) :
      Moved g db (g.requests ++ [⟨a, none, .opened⟩])
  | advanced {i : ℕ} {r r' : Request} (found : g.requests[i]? = some r)
      (before : r.phase.outcome = none) (unrecorded : r.phase.isRecorded = false)
      (action : r'.action = r.action)
      (after : ∀ outcome, r'.phase.outcome = some outcome → outcome.received = false)
      (unrecorded' : r'.phase.isRecorded = false) : Moved g g.db (g.requests.set i r')

def Distinct (key : PendingAction → String) (requests : List Request) : Prop :=
  ∀ (i j : ℕ) r r', requests[i]? = some r → requests[j]? = some r' →
    key r.action = key r'.action → i = j

theorem get_set {requests : List Request} {i j : ℕ} {old new r : Request}
    (found : requests[i]? = some old) :
    (requests.set i new)[j]? = some r ↔ (j = i ∧ r = new) ∨ (j ≠ i ∧ requests[j]? = some r) := by
  have bound : i < requests.length := (List.getElem?_eq_some_iff.mp found).1
  rw [List.getElem?_set]
  by_cases here : i = j
  · subst here
    simp [bound, eq_comm]
  · simp [here, Ne.symm here]

theorem get_append {requests : List Request} {j : ℕ} {new r : Request} :
    (requests ++ [new])[j]? = some r ↔
      requests[j]? = some r ∨ (j = requests.length ∧ r = new) := by
  rw [List.getElem?_append]
  split
  · rename_i below
    have apart : j ≠ requests.length := by omega
    simp [apart]
  · rename_i beyond
    have none : requests[j]? = none := List.getElem?_eq_none (by omega)
    rw [none]
    by_cases here : j = requests.length
    · subst here
      simp [eq_comm]
    · have past : 1 ≤ j - requests.length := by omega
      rw [List.getElem?_eq_none (by simpa using past)]
      simp [here]

theorem get_set_action {requests : List Request} {i j : ℕ} {old new r : Request}
    (found : requests[i]? = some old) (action : new.action = old.action)
    (h : (requests.set i new)[j]? = some r) :
    ∃ r₀, requests[j]? = some r₀ ∧ r₀.action = r.action := by
  rcases (get_set found).mp h with ⟨rfl, rfl⟩ | ⟨-, same⟩
  · exact ⟨old, found, action.symm⟩
  · exact ⟨r, same, rfl⟩

theorem distinct_set {key : PendingAction → String} {requests : List Request} {i : ℕ}
    {old new : Request} (distinct : Distinct key requests) (found : requests[i]? = some old)
    (action : new.action = old.action) : Distinct key (requests.set i new) := by
  intro j k r r' h h' equal
  obtain ⟨r₀, h₀, same⟩ := get_set_action found action h
  obtain ⟨r₁, h₁, same'⟩ := get_set_action found action h'
  rw [← same, ← same'] at equal
  exact distinct j k r₀ r₁ h₀ h₁ equal

theorem distinct_append {key : PendingAction → String} {requests : List Request} {new : Request}
    (distinct : Distinct key requests)
    (fresh : ∀ (i : ℕ) r, requests[i]? = some r → key r.action ≠ key new.action) :
    Distinct key (requests ++ [new]) := by
  intro j k r r' h h' equal
  rcases get_append.mp h with old | ⟨last, rfl⟩ <;> rcases get_append.mp h' with old' | ⟨last', rfl⟩
  · exact distinct j k r r' old old' equal
  · exact absurd equal (fresh j r old)
  · exact absurd equal.symm (fresh k r' old')
  · rw [last, last']

theorem connect_moved (cfg : Config) (g : Gateway) (sandboxId caseId : String) (h : Handshake)
    (stored accepted : Bool) :
    Moved g (step cfg g (.connect sandboxId caseId h stored accepted)).db
      (step cfg g (.connect sandboxId caseId h stored accepted)).requests := by
  simp only [step]
  split
  · split
    · rename_i db answer ran
      have written : db = { g.db with
          sandboxes := g.db.sandboxes.upsert ⟨sandboxId, caseId, 0⟩ id fun _ => rfl } := by
        obtain ⟨_, _, _, _, call, -, written⟩ | ⟨_, _, call, -⟩ | ⟨_, _, call, -⟩ :=
          atomic_cases ran
        · cases call
          exact written
        · cases call
        · cases call
      split <;> exact written ▸ .ensured sandboxId caseId
    · exact .same
  · exact .same

theorem issue_moved (cfg : Config) (g : Gateway) (caseId : String) (body : Json) (drawn : Drawn) :
    Moved g (step cfg g (.issue caseId body drawn)).db
      (step cfg g (.issue caseId body drawn)).requests := by
  simp only [step]
  split
  · exact .same
  · split
    · rename_i call read db action ran
      obtain ⟨_, _, _, _, other, -⟩ | ⟨c, a, same, answer, done⟩ | ⟨_, _, other, -⟩ :=
        atomic_cases ran
      · cases other
      · cases same
        cases answer
        exact .opened done
      · cases other
    · exact .same

theorem dispatch_moved (cfg : Config) (g : Gateway) (i : ℕ) :
    Moved g (step cfg g (.dispatch i)).db (step cfg g (.dispatch i)).requests := by
  simp only [step]
  split
  · rename_i found
    split
    · exact .advanced found rfl rfl rfl (by simp [Phase.outcome, Outcome.received]) rfl
    · exact .advanced found rfl rfl rfl (by simp [Phase.outcome]) rfl
  · exact .same

theorem sent_moved (cfg : Config) (g : Gateway) (i : ℕ) :
    Moved g (step cfg g (.sent i)).db (step cfg g (.sent i)).requests := by
  simp only [step]
  split
  · rename_i found
    exact .advanced found rfl rfl rfl (by simp [Phase.outcome]) rfl
  · exact .same

theorem sendFailed_moved (cfg : Config) (g : Gateway) (i : ℕ) (caught : Option String) :
    Moved g (step cfg g (.sendFailed i caught)).db (step cfg g (.sendFailed i caught)).requests := by
  simp only [step]
  split
  · rename_i found
    split
    · cases caught with
      | none => exact .advanced found rfl rfl rfl (by simp [Phase.outcome]) rfl
      | some detail =>
        exact .advanced found rfl rfl rfl (by simp [Phase.outcome, Outcome.received]) rfl
    · exact .same
  · exact .same

theorem timeout_moved (cfg : Config) (g : Gateway) (i : ℕ) :
    Moved g (step cfg g (.timeout i)).db (step cfg g (.timeout i)).requests := by
  simp only [step]
  split
  · rename_i found
    exact .advanced found rfl rfl rfl (by simp [Phase.outcome, Outcome.received]) rfl
  · exact .same

def afterResult (value : Json) : Phase :=
  match readResult value with
  | some (status, outputTag, errorDetail) => .returned (.result status outputTag errorDetail)
  | none => .raised (some .unreadable)

def Wakes (g : Gateway) (i : ℕ) (r : Request) (value : Json) : Prop :=
  g.requests[i]? = some r ∧ r.phase = .waiting ∧ g.futures i = .result value

theorem wake_cases (cfg : Config) (g : Gateway) (i : ℕ) :
    (∃ r value, Wakes g i r value ∧ (step cfg g (.wake i)).db = g.db ∧
      (step cfg g (.wake i)).requests = g.requests.set i { r with phase := afterResult value }) ∨
    ((∀ r value, ¬ Wakes g i r value) ∧
      Moved g (step cfg g (.wake i)).db (step cfg g (.wake i)).requests) := by
  simp only [step]
  split
  · rename_i action sentOn found
    cases future : g.futures i with
    | result value => exact .inl ⟨_, value, ⟨found, rfl, future⟩, rfl, rfl⟩
    | disconnected =>
      refine .inr ⟨fun r value wakes => ?_, ?_⟩
      · rw [wakes.2.2] at future
        cases future
      · exact .advanced found rfl rfl rfl (by simp [Phase.outcome, Outcome.received]) rfl
    | pending | cancelled =>
      refine .inr ⟨fun r value wakes => ?_, .same⟩
      rw [wakes.2.2] at future
      cases future
  · rename_i other
    refine .inr ⟨fun r value wakes => ?_, .same⟩
    obtain ⟨action, sentOn, phase⟩ := r
    obtain ⟨found, waiting, -⟩ := wakes
    cases waiting
    exact other action sentOn found

theorem record_cases (cfg : Config) (g : Gateway) (i : ℕ) (eventId now : String) (stored : Bool) :
    (∃ r outcome, g.requests[i]? = some r ∧ r.phase = .returned outcome ∧
      step cfg g (.record i eventId now stored) =
        recordOutcome cfg g i r outcome eventId now stored) ∨
    ((∀ r outcome, g.requests[i]? = some r → r.phase ≠ .returned outcome) ∧
      step cfg g (.record i eventId now stored) = g) := by
  simp only [step]
  split
  · rename_i action sentOn outcome found
    exact .inl ⟨_, outcome, found, rfl, rfl⟩
  · rename_i other
    refine .inr ⟨fun r outcome found returned => ?_, rfl⟩
    obtain ⟨action, sentOn, phase⟩ := r
    cases returned
    exact other action sentOn outcome found

theorem frame_moved (cfg : Config) (g : Gateway) (ws : ℕ) (text : Option Json) :
    Moved g (step cfg g (.frame ws text)).db (step cfg g (.frame ws text)).requests := by
  simp only [step]
  split
  · split
    · split
      · simp only [deliver]
        split <;> exact .same
      · exact .same
      · exact .same
    · exact .same
  · exact .same

theorem leave_moved (cfg : Config) (g : Gateway) (ws : ℕ) :
    Moved g (step cfg g (.leave ws)).db (step cfg g (.leave ws)).requests := by
  simp only [step]
  split
  · split <;> exact .same
  · exact .same

theorem disconnect_moved (cfg : Config) (g : Gateway) (ws : ℕ) :
    Moved g (step cfg g (.disconnect ws)).db (step cfg g (.disconnect ws)).requests := by
  simp only [step]
  split <;> exact .same

def Silent (g : Gateway) (e : Event) : Prop :=
  (∀ i r value, e = .wake i → ¬ Wakes g i r value) ∧
  ∀ i eventId now stored r outcome, e = .record i eventId now stored →
    g.requests[i]? = some r → r.phase ≠ .returned outcome

theorem step_cases (cfg : Config) (g : Gateway) (e : Event) :
    (Silent g e ∧ Moved g (step cfg g e).db (step cfg g e).requests) ∨
    (∃ i r value, e = .wake i ∧ Wakes g i r value ∧ (step cfg g e).db = g.db ∧
      (step cfg g e).requests = g.requests.set i { r with phase := afterResult value }) ∨
    (∃ i eventId now stored r outcome, e = .record i eventId now stored ∧
      g.requests[i]? = some r ∧ r.phase = .returned outcome ∧
      step cfg g e = recordOutcome cfg g i r outcome eventId now stored) := by
  have moved : ∀ {e}, (∀ i, e ≠ .wake i) → (∀ i a b c, e ≠ .record i a b c) →
      Moved g (step cfg g e).db (step cfg g e).requests →
      Silent g e ∧ Moved g (step cfg g e).db (step cfg g e).requests := by
    intro e wakes records moved
    exact ⟨⟨fun i r value h => absurd h (wakes i),
      fun i eventId now stored r outcome h => absurd h (records i eventId now stored)⟩, moved⟩
  cases e with
  | connect sandboxId caseId h stored accepted =>
    exact .inl (moved nofun nofun (connect_moved cfg g sandboxId caseId h stored accepted))
  | frame ws text => exact .inl (moved nofun nofun (frame_moved cfg g ws text))
  | disconnect ws => exact .inl (moved nofun nofun (disconnect_moved cfg g ws))
  | leave ws => exact .inl (moved nofun nofun (leave_moved cfg g ws))
  | issue caseId body drawn => exact .inl (moved nofun nofun (issue_moved cfg g caseId body drawn))
  | dispatch i => exact .inl (moved nofun nofun (dispatch_moved cfg g i))
  | sent i => exact .inl (moved nofun nofun (sent_moved cfg g i))
  | sendFailed i caught => exact .inl (moved nofun nofun (sendFailed_moved cfg g i caught))
  | timeout i => exact .inl (moved nofun nofun (timeout_moved cfg g i))
  | wake i =>
    obtain ⟨r, value, wakes, written⟩ | ⟨idle, moved⟩ := wake_cases cfg g i
    · exact .inr (.inl ⟨i, r, value, rfl, wakes, written⟩)
    · refine .inl ⟨⟨fun j r value h => ?_, fun j eventId now stored r outcome h => (nomatch h)⟩, moved⟩
      cases h
      exact idle r value
  | record i eventId now stored =>
    obtain ⟨r, outcome, found, returned, same⟩ | ⟨idle, same⟩ :=
      record_cases cfg g i eventId now stored
    · exact .inr (.inr ⟨i, eventId, now, stored, r, outcome, rfl, found, returned, same⟩)
    · refine .inl ⟨⟨fun j r value h => (nomatch h), fun j a b c r outcome h => ?_⟩, ?_⟩
      · cases h
        exact idle r outcome
      · rw [same]
        exact .same

theorem recordOutcome_cases (cfg : Config) (g : Gateway) (i : ℕ) (r : Request) (outcome : Outcome)
    (eventId now : String) (stored : Bool) :
    (∃ call db version, recordCall cfg r outcome eventId now stored = some call ∧
      (ledger cfg.digest).atomic (.record call) g.db = (db, .ok (.version version)) ∧
      (recordOutcome cfg g i r outcome eventId now stored).db = db ∧
      (recordOutcome cfg g i r outcome eventId now stored).requests =
        g.requests.set i { r with phase := .recorded outcome }) ∨
    ((∀ call, recordCall cfg r outcome eventId now stored = some call →
      ∃ failure, (ledger cfg.digest).atomic (.record call) g.db = (g.db, .error failure)) ∧
      (recordOutcome cfg g i r outcome eventId now stored).db = g.db ∧
      (recordOutcome cfg g i r outcome eventId now stored).requests =
        g.requests.set i { r with phase := .raised (some outcome) }) := by
  unfold recordOutcome
  cases hcall : recordCall cfg r outcome eventId now stored with
  | none => exact .inr ⟨fun call h => (nomatch h), rfl, rfl⟩
  | some call =>
    cases ran : (ledger cfg.digest).atomic (.record call) g.db with
    | mk db returned =>
      cases returned with
      | error failure =>
        have same : db = g.db := by
          have := atomic_raise (ledger cfg.digest) (congrArg Prod.snd ran)
          rwa [ran] at this
        subst same
        refine .inr ⟨fun call' h => ?_, ?_, ?_⟩
        · cases h
          exact ⟨failure, ran⟩
        · simp [ran, settle]
        · simp [ran, settle]
      | ok answer =>
        obtain ⟨_, _, _, _, other, -⟩ | ⟨_, _, other, -⟩ | ⟨_, version, -, rfl, -⟩ := atomic_cases ran
        · cases other
        · cases other
        · refine .inl ⟨call, db, version, rfl, ran, ?_, ?_⟩
          · simp [ran, settle]
          · simp [ran, settle]

/-! One controller and its clients, for the runs that later modules exhibit. -/

def sampleConfig : Config := ⟨sampleDigest, "secret", fun _ => true⟩

def sampleConnect : Event :=
  .connect "sandbox-1" "01ARZ3NDEKTSV4RRFFQ69G5FC1" ⟨some "secret", some "1001", some (.active, .envController)⟩ true true

def sampleIssue (actionId commandId : String) : Event :=
  .issue "01ARZ3NDEKTSV4RRFFQ69G5FC1"
    (.obj
      [ ("sandbox_id", .str "sandbox-1"), ("action_type", .str "CREATE_DECOY_DIRECTORY"),
        ("expected_state_version", .int 0),
        ("action_params", .obj [("path", .str "C:\\Users\\Public\\Payroll")]) ])
    ⟨actionId, commandId, "01ARZ3NDEKTSV4RRFFQ69G5FD1", true⟩

def firstIssue : Event := sampleIssue "01ARZ3NDEKTSV4RRFFQ69G5FA1" "01ARZ3NDEKTSV4RRFFQ69G5FB1"

def secondIssue : Event := sampleIssue "01ARZ3NDEKTSV4RRFFQ69G5FA2" "01ARZ3NDEKTSV4RRFFQ69G5FB2"

def sampleSuccess (ws : ℕ) (actionId : String) : Event :=
  .frame ws (some (.obj
    [("action_id", .str actionId), ("status", .str "SUCCESS"), ("output_tag", .str "REAL_OS_OUTPUT")]))

end Mirage.SandboxGateway
