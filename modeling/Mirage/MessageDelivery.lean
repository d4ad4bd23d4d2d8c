import Mirage.AnalystMessages
import Mirage.EventRun

/-! The delivery of direct messages. A delivery is a transaction that locks the row of its
message, posts it to the gateway of the sandbox, and is committed or rolled back by its
caller. -/

namespace Mirage.MessageDelivery
open EventRun AnalystMessages PythonText

structure SandboxAction where
  caseId : String
  sandboxId : String
  expectedStateVersion : ℕ
  surface : String
  content : Text
  deriving DecidableEq

inductive Stage where
  | waiting
  | answered (actionId : Option String)
  /-- The last write is done, and the caller has the transaction. -/
  | written

inductive Phase where
  /-- `channel_disabled` has answered. -/
  | checked (disabled : Bool)
  /-- The row is locked, and this is what the transaction has made of it. -/
  | holding (row : Message) (stage : Stage)
  | over

structure Delivery where
  messageId : ℕ
  phase : Phase
  action : Option SandboxAction

structure Display where
  delivery : ℕ
  messageId : ℕ
  action : SandboxAction
  row : Message
  disabled : Bool

structure Confirmation where
  messageId : ℕ
  authorId : String
  previewHash : Text

structure World where
  state : State
  deliveries : List Delivery
  displays : List Display
  confirmations : List Confirmation

inductive Response where
  | success (actionId : Option String)
  | refusal (actionId : Option String)
  /-- No answer, an error status, or a body that is no JSON. -/
  | raised

inductive Action where
  | createMessage (r : Creation)
  /-- `disabled` is what `channel_disabled` answered before the update. -/
  | confirmMessage (now : ℕ) (caseId authorId : String) (hash : Text) (messageId : ℕ) (disabled : Bool)
  | cancelMessage (caseId authorId : String) (messageId : ℕ)
  | setChannelControl (caseId : Option String) (disabled : Bool)
  | surroundings (s : State)
  | deliver (messageId : ℕ)
  | lock (delivery : ℕ)
  | display (delivery : ℕ)
  | answer (delivery : ℕ) (response : Response)
  | collect (delivery : ℕ) (evidenceId : Option String) (now : ℕ)
  | finish (delivery : ℕ) (commit : Bool)
  | crash (delivery : ℕ)

def Delivery.holds (x : Delivery) : Bool :=
  match x.phase with
  | .holding _ _ => true
  | _ => false

def locked (w : World) (messageId : ℕ) : Bool := w.deliveries.any fun x => x.messageId = messageId && x.holds

def displayedBy (w : World) (delivery : ℕ) : Bool := w.displays.any fun e => e.delivery = delivery

def World.put (w : World) (delivery : ℕ) (x : Delivery) : World :=
  { w with deliveries := w.deliveries.set delivery x }

def World.write (w : World) (messageId : ℕ) (row : Message) : World :=
  { w with state := { w.state with messages := w.state.messages.set messageId row } }

def target (s : State) (row : Message) : Option (SandboxAction × String) := do
  let session ← s.sessions.find? fun session => session.sessionId = row.sessionId
  let sandboxId ← session.sandboxId
  let sandbox ← s.sandboxes.find? fun sandbox => sandbox.1 = sandboxId
  let policy ← s.policyDecisions.find? fun policy => policy.decisionId = row.policyDecisionId
  pure (⟨row.caseId, sandboxId, sandbox.2, row.surface, row.content⟩, policy.decision)

/-- The statement behind the check of the channel: the update to BLOCKED, or the selection
for update. -/
def lockRow (w : World) (delivery messageId : ℕ) (disabled : Bool) (row : Message) : World :=
  if disabled then
    if locked w messageId then w
    else w.put delivery ⟨messageId, .holding { row with status := .blocked } .written, none⟩
  else if row.status ≠ .approved then w.put delivery ⟨messageId, .over, none⟩
  else if locked w messageId then w
  else match target w.state row with
    | none => w.put delivery ⟨messageId, .over, none⟩
    | some (action, decision) =>
      if decision ∈ permitted then
        w.put delivery ⟨messageId, .holding { row with status := .sent } .waiting, some action⟩
      else w.put delivery ⟨messageId, .holding { row with status := .blocked } .written, none⟩

def failed (row : Message) : Message := { row with status := .failed }

def answerRow (row : Message) : Response → Phase
  | .success actionId => .holding row (.answered actionId)
  | .refusal actionId =>
    .holding { row with
      status := .failed
      deliveredAt := none
      responseEventIds := row.responseEventIds ++ actionId.toList
      evidenceId := none } .written
  | .raised => .holding (failed row) .written

def collectRow (row : Message) (actionId : Option String) (now : ℕ) : Option String → Message
  | some evidenceId =>
    { row with
      status := .delivered
      deliveredAt := some now
      responseEventIds := row.responseEventIds ++ actionId.toList
      evidenceId := some evidenceId }
  | none => failed row

def displayRow (w : World) (delivery : ℕ) (x : Delivery) : World :=
  match x.action, w.state.messages[x.messageId]? with
  | some action, some row =>
    if displayedBy w delivery then w
    else { w with displays :=
      w.displays ++ [⟨delivery, x.messageId, action, row, channelDisabled w.state row.caseId⟩] }
  | _, _ => w

def stepDelivery (w : World) (delivery : ℕ) (x : Delivery) : Action → World
  | .lock _ =>
    match x.phase, w.state.messages[x.messageId]? with
    | .checked disabled, some row => lockRow w delivery x.messageId disabled row
    | _, _ => w
  | .display _ => displayRow w delivery x
  | .answer _ response =>
    match x.phase with
    | .holding row .waiting => w.put delivery { x with phase := answerRow row response }
    | _ => w
  | .collect _ evidenceId now =>
    match x.phase with
    | .holding row (.answered actionId) =>
      w.put delivery { x with phase := .holding (collectRow row actionId now evidenceId) .written }
    | _ => w
  | .finish _ commit =>
    match x.phase with
    | .holding row .written =>
      let ended := w.put delivery { x with phase := .over }
      if commit then ended.write x.messageId row else ended
    | _ => w
  | .crash _ => w.put delivery { x with phase := .over }
  | _ => w

def Action.delivery? : Action → Option ℕ
  | .lock delivery | .display delivery | .answer delivery _ | .collect delivery _ _ | .finish delivery _
  | .crash delivery => some delivery
  | _ => none

def update (w : World) (messageId : ℕ) (asks : Message → Bool) (f : Message → Message) : Option World :=
  match w.state.messages[messageId]? with
  | some row => if asks row && !locked w messageId then some (w.write messageId (f row)) else none
  | none => none

def step (rules : Rules) (w : World) (a : Action) : World :=
  match a with
  | .createMessage r => { w with state := (AnalystMessages.createMessage rules w.state r).1 }
  | .confirmMessage now caseId authorId hash messageId disabled =>
    if disabled then w
    else match update w messageId (confirmable caseId authorId hash) (confirmed now) with
      | some after => { after with confirmations := w.confirmations ++ [⟨messageId, authorId, hash⟩] }
      | none => w
  | .cancelMessage caseId authorId messageId =>
    (update w messageId (cancellable caseId authorId) cancelled).getD w
  | .setChannelControl caseId disabled =>
    { w with state := AnalystMessages.setChannelControl w.state caseId disabled }
  | .surroundings now => { w with state := { now with controls := w.state.controls, messages := w.state.messages } }
  | .deliver messageId =>
    match w.state.messages[messageId]? with
    | some row =>
      { w with deliveries := w.deliveries ++ [⟨messageId, .checked (channelDisabled w.state row.caseId), none⟩] }
    | none => w
  | a =>
    match a.delivery? with
    | some delivery => (w.deliveries[delivery]?).elim w fun x => stepDelivery w delivery x a
    | none => w

end Mirage.MessageDelivery
