import Mirage.CaseStateMachine
import Mirage.SignedPackage

/-! Direct messages of an analyst: what is checked before one is created, its confirmation
and its cancellation, and the controls that disable the channel. A request is one
transaction; identifiers of messages are positions. -/

namespace Mirage.AnalystMessages
open CaseStateMachine PythonText RowLocks

inductive MessageStatus where
  | draft | previewed | pendingConfirmation | approved | sent | delivered | failed | cancelled | blocked
  deriving DecidableEq

structure Message where
  caseId : String
  sessionId : String
  authorId : String
  content : Text
  surface : String
  previewHash : Text
  confirmationRequired : Bool
  confirmedAt : Option ℕ
  policyDecisionId : String
  status : MessageStatus
  deliveredAt : Option ℕ
  responseEventIds : List String
  evidenceId : Option String
  idempotencyKey : String
  deriving DecidableEq

structure Session where
  sessionId : String
  caseId : String
  status : String
  sandboxId : Option String

structure PolicyDecision where
  decisionId : String
  caseId : String
  decision : String

/-- A row of `analyst_channel_controls`; without a case it is for the platform. -/
structure ChannelControl where
  caseId : Option String
  disabled : Bool

structure State where
  lifecycle : Database
  sessions : List Session
  policyDecisions : List PolicyDecision
  /-- The sandbox instances with their state versions. -/
  sandboxes : List (String × ℕ)
  controls : List ChannelControl
  messages : List Message

structure Rules where
  command : Text → Bool
  sensitive : Text → Bool
  sha256Hex : ByteArray → Text

def approvedSurfaces : List String :=
  ["DECOY_WEB_CHAT", "DECOY_TERMINAL_BANNER", "CONTROLLED_DESKTOP_NOTIFICATION", "SCENARIO_SERVICE_RESPONSE"]

structure MessagePreview where
  content : Text
  previewHash : Text
  confirmationRequired : Bool

def nul : CodePoint := 0

def previewHash (rules : Rules) (caseId surface : String) (content : Text) : Except String Text := do
  let bytes ← present (encodeUtf8 (text caseId ++ nul :: text surface ++ nul :: content)) "UnicodeEncodeError"
  pure (rules.sha256Hex bytes)

def previewMessage (rules : Rules) (caseId surface : String) (content : Text) : Except String MessagePreview := do
  require (surface ∈ approvedSurfaces) "surface is not approved"
  let content := SignedPackage.strip content
  require (content ≠ []) "message must be 1..2048 bytes"
  let bytes ← present (encodeUtf8 content) "UnicodeEncodeError"
  require (bytes.size ≤ 2048) "message must be 1..2048 bytes"
  require (!rules.command content) "arbitrary command content is prohibited"
  let hash ← previewHash rules caseId surface content
  pure ⟨content, hash, rules.sensitive content⟩

def channelDisabled (s : State) (caseId : String) : Bool :=
  s.controls.any fun control => control.disabled && (control.caseId = none || control.caseId = some caseId)

/-- What a call of `create_message` is given; `stored` is whether the database takes the row. -/
structure Creation where
  caseId : String
  sessionId : String
  authorId : String
  content : Text
  surface : String
  suppliedPreviewHash : Text
  policyDecisionId : String
  idempotencyKey : String
  stored : Bool

structure Answer where
  messageId : ℕ
  status : MessageStatus
  confirmationRequired : Bool
  previewHash : Text

def permitted : List String := ["ALLOW", "REQUIRE_ANALYST_APPROVAL"]

def decisionOf (s : State) (caseId decisionId : String) : Option String :=
  (s.policyDecisions.find? fun row => row.decisionId = decisionId && row.caseId = caseId).map (·.decision)

def checkPreview (rules : Rules) (r : Creation) : Except String MessagePreview := do
  let preview ← previewMessage rules r.caseId r.surface r.content
  require (r.sessionId ≠ "") "an active session_id is required"
  require (r.suppliedPreviewHash.all fun p => p.val < 128) "TypeError"
  require (preview.previewHash = r.suppliedPreviewHash) "preview hash mismatch"
  pure preview

/-- The states of a case in which `create_message` refuses. -/
def refused : List CaseState := [.concluding, .exported, .destroyed]

def caseState (s : State) (caseId : String) : Option CaseState := (s.lifecycle.cases.find caseId).map (·.state)

def activeSession (s : State) (r : Creation) : Bool :=
  s.sessions.any fun session => session.sessionId = r.sessionId && session.caseId = r.caseId && session.status = "ACTIVE"

def vet (rules : Rules) (s : State) (r : Creation) : Except String (MessagePreview × String) := do
  let preview ← checkPreview rules r
  require (!channelDisabled s r.caseId) "analyst direct-message channel is disabled"
  let state ← present (caseState s r.caseId) "message requires an active session belonging to the case"
  require (activeSession s r) "message requires an active session belonging to the case"
  require (state ∉ refused) "case state does not permit direct messages"
  let decision ← present (decisionOf s r.caseId r.policyDecisionId) "message policy decision does not permit delivery"
  require (decision ∈ permitted) "message policy decision does not permit delivery"
  pure (preview, decision)

def existing (s : State) (caseId idempotencyKey : String) : Option ℕ :=
  s.messages.findIdx? fun row => row.caseId = caseId && row.idempotencyKey = idempotencyKey

def newMessage (preview : MessagePreview) (decision : String) (r : Creation) : Message :=
  let requiresConfirmation := preview.confirmationRequired || decision = "REQUIRE_ANALYST_APPROVAL"
  { caseId := r.caseId
    sessionId := r.sessionId
    authorId := r.authorId
    content := preview.content
    surface := r.surface
    previewHash := preview.previewHash
    confirmationRequired := requiresConfirmation
    confirmedAt := none
    policyDecisionId := r.policyDecisionId
    status := if requiresConfirmation then .pendingConfirmation else .approved
    deliveredAt := none
    responseEventIds := []
    evidenceId := none
    idempotencyKey := r.idempotencyKey }

def answerOf (messageId : ℕ) (row : Message) : Answer :=
  ⟨messageId, row.status, row.confirmationRequired, row.previewHash⟩

def createMessage (rules : Rules) (s : State) (r : Creation) : State × Except String Answer :=
  match vet rules s r with
  | .error message => (s, .error message)
  | .ok (preview, decision) =>
    match existing s r.caseId r.idempotencyKey with
    | some messageId =>
      (s, (present s.messages[messageId]? "psycopg.Error").map (answerOf messageId))
    | none =>
      let row := newMessage preview decision r
      if r.stored then ({ s with messages := s.messages ++ [row] }, .ok (answerOf s.messages.length row))
      else (s, .error "psycopg.Error")

def confirmable (caseId authorId : String) (hash : Text) (row : Message) : Bool :=
  row.caseId = caseId && row.authorId = authorId && row.status = .pendingConfirmation && row.previewHash = hash

def confirmed (now : ℕ) (row : Message) : Message := { row with status := .approved, confirmedAt := some now }

def cancellable (caseId authorId : String) (row : Message) : Bool :=
  row.caseId = caseId && row.authorId = authorId &&
    row.status ∈ [MessageStatus.draft, .previewed, .pendingConfirmation, .approved]

def cancelled (row : Message) : Message := { row with status := .cancelled }

/-- `set_channel_control`, whose update or insert leaves one row for its scope. -/
def setChannelControl (s : State) (caseId : Option String) (disabled : Bool) : State :=
  match caseId with
  | some known =>
    if (s.lifecycle.cases.find known).isSome then
      { s with controls := ⟨caseId, disabled⟩ :: s.controls.filter (·.caseId ≠ caseId) }
    else s
  | none => { s with controls := ⟨none, disabled⟩ :: s.controls.filter (·.caseId ≠ none) }

/-- A call of `transition_case`, which leaves everything as it is when it fails. -/
def transition (digest : String → String) (s : State) (call : Call) : State :=
  match transitionCase digest call (s.lifecycle.cases.find call.caseId) s.lifecycle with
  | .ok (database, _) => { s with lifecycle := database }
  | .error _ => s

theorem existing_bound {s : State} {caseId idempotencyKey : String} {messageId : ℕ}
    (found : existing s caseId idempotencyKey = some messageId) : messageId < s.messages.length :=
  (List.findIdx?_eq_some_iff_getElem.mp found).1

/-! A case with a session and a decision that allows its messages. -/

def sampleCase : String := "01ARZ3NDEKTSV4RRFFQ69G5FAV"

def sampleRules : Rules where
  command _ := false
  sensitive _ := false
  sha256Hex bytes :=
    if bytes = "01ARZ3NDEKTSV4RRFFQ69G5FAV\x00DECOY_WEB_CHAT\x00hello".toUTF8 then
      text "cf3d7377047cf27ee1576a25d4d20849aaeebbe5b95f591d5e3e75af8a0c707d"
    else []

def engaged (state : CaseState) : State where
  lifecycle := ⟨⟨[⟨sampleCase, state, 1⟩], List.nodup_singleton _⟩, [], [], KeyedTable.empty⟩
  sessions := [⟨"S", sampleCase, "ACTIVE", some "SB"⟩]
  policyDecisions := [⟨"D", sampleCase, "ALLOW"⟩]
  sandboxes := [("SB", 1)]
  controls := []
  messages := []

def hello : Creation where
  caseId := sampleCase
  sessionId := "S"
  authorId := "analyst"
  content := text "hello"
  surface := "DECOY_WEB_CHAT"
  suppliedPreviewHash := text "cf3d7377047cf27ee1576a25d4d20849aaeebbe5b95f591d5e3e75af8a0c707d"
  policyDecisionId := "D"
  idempotencyKey := "K"
  stored := true

end Mirage.AnalystMessages
