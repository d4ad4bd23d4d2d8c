import Mirage.EventRun
import Mirage.SignedPackage

/-! Analyst directives: their submission, the four operations that write their status, and
the phases of a case's strategy that the application of a directive records. -/

namespace Mirage.AnalystDirectives
open EventRun PythonText

inductive DirectiveStatus where
  | submitted | acknowledged | queued | applied | rejected | expired | cancelled
  deriving DecidableEq

structure Directive where
  caseId : String
  sessionId : Option String
  objective : Text
  priority : String
  status : DirectiveStatus
  createdBy : String
  createdAt : ℕ
  expiresAt : Option ℕ
  idempotencyKey : String
  acknowledgedAt : Option ℕ
  appliedAt : Option ℕ
  rejectedAt : Option ℕ
  rejectionReason : Option String
  linkedProposalIds : List String
  linkedActionIds : List String
  deriving DecidableEq

/-- A row of `strategy_phase_history`. -/
structure PhaseChange where
  caseId : String
  fromPhase : String
  toPhase : String
  directiveId : ℕ
  approvedBy : String
  deriving DecidableEq

structure State where
  cases : List String
  directives : List Directive
  history : List PhaseChange

/-- What a call of `submit_directive` is given; `stored` is whether the contract and the
database take what it writes. -/
structure Submission where
  caseId : String
  sessionId : Option String
  objective : Text
  priority : String
  createdBy : String
  expiresAt : Option ℕ
  idempotencyKey : String
  stored : Bool

/-- `validate_objective`; the verdict of the prohibited patterns is a parameter. -/
def validateObjective (prohibited : Text → Bool) (objective : Text) : Except String Text :=
  let objective := SignedPackage.strip objective
  if objective = [] then .error "objective is required"
  else match encodeUtf8 objective with
    | none => .error "UnicodeEncodeError"
    | some bytes =>
      if 512 < bytes.size then .error "objective exceeds 512 bytes"
      else if prohibited objective then
        .error "objective contains a prohibited command, secret, or scope request"
      else .ok objective

def isExpired (expiresAt : Option ℕ) (now : ℕ) : Bool := expiresAt.any fun e => e ≤ now

def existing (s : State) (caseId idempotencyKey : String) : Option ℕ :=
  s.directives.findIdx? fun row => row.caseId = caseId && row.idempotencyKey = idempotencyKey

def newDirective (now : ℕ) (objective : Text) (r : Submission) : Directive where
  caseId := r.caseId
  sessionId := r.sessionId
  objective
  priority := r.priority
  status := .submitted
  createdBy := r.createdBy
  createdAt := now
  expiresAt := r.expiresAt
  idempotencyKey := r.idempotencyKey
  acknowledgedAt := none
  appliedAt := none
  rejectedAt := none
  rejectionReason := none
  linkedProposalIds := []
  linkedActionIds := []

def validate (prohibited : Text → Bool) (now : ℕ) (r : Submission) : Except String Text :=
  match validateObjective prohibited r.objective with
  | .error message => .error message
  | .ok objective =>
    if r.priority ∉ ["LOW", "NORMAL", "HIGH", "URGENT"] then .error "invalid priority"
    else if isExpired r.expiresAt now then .error "directive is already expired"
    else .ok objective

/-- `submit_directive`: the state behind it, and the directive that it returns. -/
def submitDirective (prohibited : Text → Bool) (s : State) (now : ℕ) (r : Submission) : State × Except String ℕ :=
  match validate prohibited now r with
  | .error message => (s, .error message)
  | .ok objective =>
    match existing s r.caseId r.idempotencyKey with
    | some directiveId => (s, .ok directiveId)
    | none =>
      if r.caseId ∉ s.cases then (s, .error "unknown case")
      else if r.stored then
        ({ s with directives := s.directives ++ [newDirective now objective r] }, .ok s.directives.length)
      else (s, .error "psycopg.Error")

def isOpen : DirectiveStatus → Bool
  | .submitted | .acknowledged | .queued => true
  | _ => false

def modify (s : State) (directiveId : ℕ) (f : Directive → Directive) : State :=
  { s with directives := s.directives.modify directiveId f }

/-- `acknowledge_directive`; `committed` is what its caller does behind the exception. -/
def acknowledgeDirective (committed : Bool) (now : ℕ) (row : Directive) : Directive :=
  if row.status = .submitted ∧ isExpired row.expiresAt now = false then
    { row with status := .acknowledged, acknowledgedAt := some now }
  else if isExpired row.expiresAt now ∧ isOpen row.status ∧ committed then { row with status := .expired }
  else row

def cancelDirective (caseId : String) (row : Directive) : Directive :=
  if row.caseId = caseId ∧ isOpen row.status then { row with status := .cancelled } else row

def linkDirectiveResult (now : ℕ) (proposalId actionId : Option String) (applied : Bool)
    (rejectionReason : Option String) (row : Directive) : Directive :=
  { row with
    status := if applied then .applied else .rejected
    appliedAt := if applied then some now else row.appliedAt
    rejectedAt := if applied then row.rejectedAt else some now
    rejectionReason
    linkedProposalIds := row.linkedProposalIds ++ proposalId.toList
    linkedActionIds := row.linkedActionIds ++ actionId.toList }

def nextPhase : String → Option String
  | "OBSERVE" => some "PROFILE"
  | "PROFILE" => some "ENGAGE"
  | "ENGAGE" => some "DEEPEN"
  | "DEEPEN" => some "VERIFY"
  | "VERIFY" => some "CONTAIN"
  | "CONTAIN" => some "CONCLUDE"
  | _ => none

def appliesStrategy (fromPhase toPhase : String) (row : Directive) : Bool :=
  nextPhase fromPhase = some toPhase && (row.status = .acknowledged || row.status = .queued)

def applyDirectiveStrategy (s : State) (now directiveId : ℕ) (fromPhase toPhase : String)
    (proposalId actionId : Option String) : State :=
  match s.directives[directiveId]? with
  | none => s
  | some row =>
    if appliesStrategy fromPhase toPhase row then
      { modify s directiveId (linkDirectiveResult now proposalId actionId true none) with
        history := s.history ++ [⟨row.caseId, fromPhase, toPhase, directiveId, row.createdBy⟩] }
    else s

inductive Action where
  | openCase (caseId : String)
  | submitDirective (now : ℕ) (r : Submission)
  | acknowledgeDirective (now directiveId : ℕ) (committed : Bool)
  | cancelDirective (caseId : String) (directiveId : ℕ)
  | linkDirectiveResult (now directiveId : ℕ) (proposalId actionId : Option String) (applied : Bool)
      (rejectionReason : Option String)
  | applyDirectiveStrategy (now directiveId : ℕ) (fromPhase toPhase : String) (proposalId actionId : Option String)

def step (prohibited : Text → Bool) (s : State) : Action → State
  | .openCase caseId => { s with cases := s.cases ++ [caseId] }
  | .submitDirective now r => (submitDirective prohibited s now r).1
  | .acknowledgeDirective now directiveId committed => modify s directiveId (acknowledgeDirective committed now)
  | .cancelDirective caseId directiveId => modify s directiveId (cancelDirective caseId)
  | .linkDirectiveResult now directiveId proposalId actionId applied rejectionReason =>
    modify s directiveId (linkDirectiveResult now proposalId actionId applied rejectionReason)
  | .applyDirectiveStrategy now directiveId fromPhase toPhase proposalId actionId =>
    applyDirectiveStrategy s now directiveId fromPhase toPhase proposalId actionId

def application (s : State) : Action → Option (ℕ × ℕ)
  | .linkDirectiveResult now directiveId _ _ true _ =>
    (s.directives[directiveId]?).map fun _ => (directiveId, now)
  | .applyDirectiveStrategy now directiveId fromPhase toPhase _ _ =>
    (s.directives[directiveId]?).bind fun row =>
      if appliesStrategy fromPhase toPhase row then some (directiveId, now) else none
  | _ => none

/-! The state with what was applied so far. -/

structure Trace where
  state : State
  applied : List (ℕ × ℕ)

def traceStep (prohibited : Text → Bool) (t : Trace) (a : Action) : Trace where
  state := step prohibited t.state a
  applied := t.applied ++ (application t.state a).toList

end Mirage.AnalystDirectives
