import Mirage.JsonLoads
import Mathlib.Data.Rat.Defs

/-! The provider boundary of ai.py: what a provider request can end with, how its
answer is validated, and what `AIOrchestrator.propose` makes of one attempt. -/

namespace Mirage.AiProposals
open PythonText Raw

/-- The exception classes that a provider raises or a handler names; of those
below `valueError` and `transportError` nothing else is told apart. -/
inductive Failure where
  | validationError
  | valueError
  | timeoutError
  | transportError
  | runtimeError
  | httpStatusError
  | requestError
  | keyError
  | indexError
  | typeError
  | other
  deriving DecidableEq

/-- `datetime`: the date, the microseconds of the day, and the offset from UTC of
an aware one. -/
structure DateTime where
  year : ℕ
  month : ℕ
  day : ℕ
  micros : ℤ
  offset : Option ℤ
  deriving DecidableEq

namespace DateTime

def isLeap (year : ℕ) : Bool := year % 4 = 0 && (year % 100 ≠ 0 || year % 400 = 0)

def ordinal (t : DateTime) : ℤ :=
  let years : ℤ := (t.year : ℤ) - 1
  let months := [0, 31, 59, 90, 120, 151, 181, 212, 243, 273, 304, 334].getD (t.month - 1) 0
  years * 365 + years / 4 - years / 100 + years / 400 + months +
    (if 2 < t.month && isLeap t.year then 1 else 0) + t.day

def wall (t : DateTime) : ℤ := t.ordinal * 86400000000 + t.micros

def date (t : DateTime) : ℕ × ℕ × ℕ := (t.year, t.month, t.day)

def yearMonth (t : DateTime) : ℕ × ℕ := (t.year, t.month)

/-- `a <= b`; a naive and an aware time cannot be compared. -/
def le (a b : DateTime) : Except Failure Bool :=
  match a.offset, b.offset with
  | none, none => .ok (a.wall ≤ b.wall)
  | some x, some y => .ok (a.wall - x ≤ b.wall - y)
  | _, _ => .error .typeError

end DateTime

/-- What `propose` reads of a validated `Proposal`. -/
structure Proposal where
  caseId : Text
  snapshotId : Text
  expiresAt : DateTime

section
variable (py : JsonLoads.Interpreter)

/-- What `response.raise_for_status` and `response.json` read of a response. -/
structure Response where
  status : ℕ
  body : ByteArray

def raiseForStatus (response : Response) : Except Failure Unit :=
  if 200 ≤ response.status ∧ response.status < 300 then .ok () else .error .httpStatusError

/-- `json.loads` raises nothing but `JSONDecodeError` and other value errors, and
`RecursionError`. -/
def ofLoads (exc : Raised) : Failure :=
  if exc.kind = .jsonDecodeError ∨ exc.kind = .valueError then .valueError else .runtimeError

def atKey (name : String) : Raw → Except Failure Raw
  | .obj members =>
    match member (text name) members with
    | some value => .ok value
    | none => .error .keyError
  | _ => .error .typeError

def atZero : Raw → Except Failure Raw
  | .arr (item :: _) => .ok item
  | .str (p :: _) => .ok (.str [p])
  | .arr [] | .str [] => .error .indexError
  | .obj _ => .error .keyError
  | _ => .error .typeError

def loadsContent : Raw → Except Failure Raw
  | .str t => (JsonLoads.loadsText py t).mapError ofLoads
  | _ => .error .typeError

/-- `ConfiguredExternalProvider.propose`, given what the request ends with. -/
def configuredPropose (post : Except Failure Response) : Except Failure Raw := do
  let response ← post
  raiseForStatus response
  let body ← (JsonLoads.loads py response.body).mapError ofLoads
  let content ← atKey "choices" body >>= atZero >>= atKey "message" >>= atKey "content"
  loadsContent py content

variable (modelValidate : Raw → Except Failure Proposal)

def answerData : Raw → Except Failure Raw
  | .str t =>
    if 16 * 1024 < t.length then .error .valueError
    else (JsonLoads.loadsText py t).mapError ofLoads
  | value => .ok value

def requireUnexpired (proposal : Proposal) (now : DateTime) : Except Failure Proposal := do
  let expired ← proposal.expiresAt.le now
  if expired then .error .valueError else .ok proposal

/-- `validate_proposal`; `modelValidate` is `Proposal.model_validate`. -/
def validateProposal (raw : Raw) (now : DateTime) : Except Failure Proposal := do
  let data ← answerData py raw
  let proposal ← modelValidate data
  requireUnexpired proposal now

/-- The arguments of `AIOrchestrator.propose` that decide what it does. -/
structure Call where
  caseId : Text
  snapshotId : Text
  estimatedCost : ℚ
  now : DateTime

inductive Verdict where
  | accepted (proposal : Proposal)
  /-- Accepted and recorded, but its tokens cannot be estimated. -/
  | unencodable
  | invalid
  | retryable (timeout : Bool)
  | escapes (exc : Failure)

def handled : Failure → Verdict
  | .validationError | .valueError => .invalid
  | .timeoutError => .retryable true
  | .transportError | .runtimeError => .retryable false
  | exc => .escapes exc

/-- `estimate_tokens(raw) if isinstance(raw, dict) else 0` returns. -/
def encodable : Raw → Bool
  | .obj members => isScalar (.obj members)
  | _ => true

def judge (call : Call) (outcome : Except Failure Raw) : Verdict :=
  match outcome with
  | .error exc => handled exc
  | .ok raw =>
    match validateProposal py modelValidate raw call.now with
    | .error exc => handled exc
    | .ok proposal =>
      if proposal.caseId ≠ call.caseId ∨ proposal.snapshotId ≠ call.snapshotId then .invalid
      else if encodable raw then .accepted proposal
      else .unencodable

inductive FallbackReason where
  | budgetStop
  | circuitOpen
  | invalidResponse
  | aiTimeout
  | providerFailure
  deriving DecidableEq

/-- `OrchestrationResult` without its latency. -/
structure OrchestrationResult where
  proposal : Option Proposal
  fallbackReason : Option FallbackReason
  retryCount : ℕ

inductive Next where
  | returned (result : OrchestrationResult)
  | again
  | raised (exc : Failure)

/-- What an attempt does: whether the breaker counts a success (and the budget is
charged), whether it counts a failure, and what follows. -/
structure Attempt where
  succeeded : Bool
  failed : Bool
  next : Next

def attempt (maxRetries : ℕ) (call : Call) (retries : ℕ) (outcome : Except Failure Raw) : Attempt :=
  match judge py modelValidate call outcome with
  | .accepted proposal => ⟨true, false, .returned ⟨some proposal, none, retries⟩⟩
  | .unencodable => ⟨true, true, .returned ⟨none, some .invalidResponse, retries⟩⟩
  | .invalid => ⟨false, true, .returned ⟨none, some .invalidResponse, retries⟩⟩
  | .retryable timeout =>
    if maxRetries ≤ retries then
      ⟨false, true, .returned ⟨none, some (if timeout then .aiTimeout else .providerFailure), retries⟩⟩
    else ⟨false, true, .again⟩
  | .escapes exc => ⟨false, false, .raised exc⟩

end

section
variable {py : JsonLoads.Interpreter} {modelValidate : Raw → Except Failure Proposal}
  {maxRetries retries : ℕ} {call : Call} {outcome : Except Failure Raw}

theorem attempt_again (again : (attempt py modelValidate maxRetries call retries outcome).next = .again) :
    retries < maxRetries := by
  unfold attempt at again
  split at again
  next => cases again
  next => cases again
  next => cases again
  next =>
    split at again
    next => cases again
    next left => exact Nat.lt_of_not_le left
  next => cases again

theorem attempt_failed (py : JsonLoads.Interpreter) (modelValidate : Raw → Except Failure Proposal)
    (maxRetries retries : ℕ) (call : Call) (outcome : Except Failure Raw) : (attempt py modelValidate maxRetries call retries outcome).failed = true ∨
    (∃ proposal, judge py modelValidate call outcome = .accepted proposal) ∨
    ∃ exc, judge py modelValidate call outcome = .escapes exc := by
  unfold attempt
  cases judge py modelValidate call outcome with
  | accepted proposal => exact .inr (.inl ⟨proposal, rfl⟩)
  | unencodable => exact .inl rfl
  | invalid => exact .inl rfl
  | retryable timeout =>
    left
    simp only
    split
    next => rfl
    next => rfl
  | escapes exc => exact .inr (.inr ⟨exc, rfl⟩)

end
end Mirage.AiProposals
