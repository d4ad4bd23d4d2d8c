import Mirage.Canary
import Mirage.CanaryIngestion
import Mirage.EvidenceAcquisition
import Mirage.EventRun

/-! The requests that acquire evidence of a service: callbacks of canary tokens, and the
completions of the report worker. Each is one transaction. -/

namespace Mirage.CanaryConcurrency
open EvidenceAcquisition

export CanaryIngestion (Usage TokenStatus)

structure Token where
  tokenId : String
  publicTokenHash : String
  caseId : String
  artifactId : String
  expiresAt : Int
  revokedAt : Option Int
  expectedUsage : Usage
  status : TokenStatus
  classificationStatus : Option Canary.Classification
  deriving DecidableEq

/-- What a callback gives behind the check of its signature: the hash of its public token, its
time (none without an offset), its request id, the bytes of the signed body, and what
the transaction draws and the classifier says. -/
structure Callback where
  publicTokenHash : String
  callbackTime : Option Int
  collectorRequestId : Option String
  body : Bytes
  classification : Canary.Classification
  ruleVersion : String
  callbackId : String
  callbackEventId : String
  correlationId : String
  evidenceId : String
  eventId : String
  storedTime : Int

structure Completion where
  caseId : String
  reportId : String
  exportId : String
  createdAt : Int
  package : Bytes
  manifestSha256 : String
  evidenceId : String
  eventId : String
  storedTime : Int

inductive Job where
  | callback (r : Callback)
  | completion (r : Completion)

/-- What `acquire` has returned: a row that the transaction inserts, or the record of one that was there. -/
inductive Acquired where
  | inserted (p : Prepared)
  | found (record : EvidenceRecord)

inductive Phase where
  | opened
  /-- The row of the token is locked, and it is neither revoked nor expired. -/
  | locked
  /-- Neither the request nor a token for one use is replayed. -/
  | checked
  /-- The sequence is computed; the source had `seen` rows then. -/
  | allocated (c : Call) (seen : ℕ)
  | acquired (c : Call) (evidence : Acquired)
  | written (c : Call) (evidence : Acquired)
  | over

structure Transaction where
  job : Job
  token : Option Token
  phase : Phase

structure CallbackRow where
  callbackId : String
  tokenId : String
  callbackTime : Int
  collectorRequestId : String
  classification : Canary.Classification
  evidenceId : String
  deriving DecidableEq

/-- A `canary.callback` event of the outbox. -/
structure CallbackEvent where
  eventId : String
  callbackId : String
  tokenId : String
  caseId : String
  sequence : Int
  deriving DecidableEq

inductive Answer where
  | http (status : ℕ) (detail : String)
  | raised (e : EvidenceAcquisition.Raised)
  | failed
  | done
  deriving DecidableEq

structure World where
  domain : Domain
  tokens : List Token
  callbacks : List CallbackRow
  events : List CallbackEvent
  ledger : Ledger
  transactions : List Transaction
  answers : List (ℕ × Answer)

inductive Action where
  | issueToken (token : Token)
  | revokeToken (caseId tokenId : String) (now : Int)
  | surroundings (domain : Domain)
  | request (job : Job)
  | lockToken (i : ℕ)
  | checkReplay (i : ℕ)
  | allocate (i : ℕ)
  | acquire (i : ℕ)
  | write (i : ℕ)
  | commit (i : ℕ) (location : Location)
  | fail (i : ℕ)

def canarySource : String := "mirage-canary-collector"

def reportSource : String := "mirage-report-worker"

def Job.source : Job → String
  | .callback _ => canarySource
  | .completion _ => reportSource

def classificationText : Canary.Classification → String
  | .unknownSourceCallback => "UNKNOWN_SOURCE_CALLBACK"
  | .inSandboxCallback => "IN_SANDBOX_CALLBACK"
  | .securityScannerCallback => "SECURITY_SCANNER_CALLBACK"
  | .externalCallback => "EXTERNAL_CALLBACK"

def nextSequence (rows : List EvidenceRow) : Int := (rows.map fun row => row.sourceSequence).foldl max 0 + 1

def callbackCall (token : Token) (callbackTime : Int) (sequence : Int) (r : Callback) : Call where
  request :=
    { caseId := token.caseId
      sessionId := none
      evidenceType := "CANARY_CALLBACK"
      sourceId := canarySource
      sourceSequence := sequence
      sourceCertificateSerial := none
      relatedEventIds := []
      acquisitionTime := callbackTime
      originalFilename := none
      mediaType := "application/json"
      collectionMethod := "SIGNED_CANARY_CALLBACK"
      classification := "SENSITIVE"
      metadata := [("token_id", .str token.tokenId), ("artifact_id", .str token.artifactId),
        ("classification", .str (classificationText r.classification)), ("rule_version", .str r.ruleVersion)]
      requiredForExport := true }
  stream := [r.body]
  actor := canarySource
  correlationId := r.correlationId
  evidenceId := r.evidenceId
  eventId := r.eventId
  storedTime := r.storedTime

def completionCall (sequence : Int) (r : Completion) : Call where
  request :=
    { caseId := r.caseId
      sessionId := none
      evidenceType := "EXPORT"
      sourceId := reportSource
      sourceSequence := sequence
      sourceCertificateSerial := none
      relatedEventIds := []
      acquisitionTime := r.createdAt
      originalFilename := some (r.reportId ++ "-report-package.zip")
      mediaType := "application/zip"
      collectionMethod := "REPORT_WORKER_REPORT"
      classification := "SENSITIVE"
      metadata := [("report_id", .str r.reportId), ("export_id", .str r.exportId),
        ("manifest_sha256", .str r.manifestSha256)]
      requiredForExport := false }
  stream := [r.package]
  actor := reportSource
  correlationId := r.reportId
  evidenceId := r.evidenceId
  eventId := r.eventId
  storedTime := r.storedTime

def Phase.isOver : Phase → Bool
  | .over => true
  | _ => false

def Transaction.holdsSource (x : Transaction) : Option String :=
  match x.phase with
  | .acquired c _ | .written c _ => some c.request.sourceId
  | _ => none

def Transaction.holdsToken (x : Transaction) : Option String :=
  if x.phase.isOver then none else x.token.map (·.tokenId)

def tokenLocked (w : World) (tokenId : String) : Bool := w.transactions.any fun x => x.holdsToken = some tokenId

def sourceLocked (w : World) (source : String) : Bool := w.transactions.any fun x => x.holdsSource = some source

def World.put (w : World) (i : ℕ) (x : Transaction) : World := { w with transactions := w.transactions.set i x }

def World.finish (w : World) (i : ℕ) (x : Transaction) (answer : Answer) : World :=
  { w.put i { x with phase := .over } with answers := w.answers ++ [(i, answer)] }

def updateToken (tokens : List Token) (tokenId : String) (f : Token → Token) : List Token :=
  tokens.map fun token => if token.tokenId = tokenId then f token else token

/-! The statements of a transaction. -/

def lockToken (w : World) (i : ℕ) (x : Transaction) (r : Callback) : World :=
  match w.tokens.find? fun token => token.publicTokenHash = r.publicTokenHash with
  | none => w.finish i x (.http 404 "unknown canary token")
  | some token =>
    if tokenLocked w token.tokenId then w
    else if token.revokedAt.isSome || token.status = .revoked then w.finish i x (.http 410 "canary token revoked")
    else match r.callbackTime with
      | none => w.finish i x .failed
      | some time =>
        if token.expiresAt ≤ time || token.status = .expired then
          { w.finish i x (.http 410 "canary token expired") with
            tokens := updateToken w.tokens token.tokenId fun t => { t with status := .expired } }
        else w.put i { x with token := some token, phase := .locked }

def checkReplay (w : World) (i : ℕ) (x : Transaction) (r : Callback) (token : Token) : World :=
  if r.collectorRequestId.any fun id => w.callbacks.any fun row => row.collectorRequestId = id then
    w.finish i x (.http 409 "callback replay detected")
  else if token.expectedUsage = .oneTime && token.status = .used then
    w.finish i x (.http 409 "one-time token replay detected")
  else w.put i { x with phase := .checked }

def allocate (w : World) (i : ℕ) (x : Transaction) : World :=
  let rows := rowsOf w.ledger x.job.source
  match x.job, x.token, x.phase with
  | .callback r, some token, .checked =>
    match r.callbackTime with
    | some time => w.put i { x with phase := .allocated (callbackCall token time (nextSequence rows) r) rows.length }
    | none => w
  | .completion r, _, .opened =>
    w.put i { x with phase := .allocated (completionCall (nextSequence rows) r) rows.length }
  | _, _, _ => w

section
variable (sha256 : Bytes → String) (overrides : List (String × ℕ))

def acquire (w : World) (i : ℕ) (x : Transaction) (c : Call) : World :=
  if sourceLocked w c.request.sourceId then w
  else match prepare sha256 overrides c with
    | .error e => w.finish i x (.raised e)
    | .ok p =>
      match check w.domain w.ledger p with
      | .error e => w.finish i x (.raised e)
      | .ok (some record) => w.put i { x with phase := .acquired c (.found record) }
      | .ok none => w.put i { x with phase := .acquired c (.inserted p) }

end

/-- The insertion of the callback, whose request id is not null and unique. -/
def write (w : World) (i : ℕ) (x : Transaction) (c : Call) (evidence : Acquired) : World :=
  match x.job with
  | .completion _ => w.put i { x with phase := .written c evidence }
  | .callback r =>
    match r.collectorRequestId with
    | none => w.finish i x .failed
    | some id =>
      if w.callbacks.any fun row => row.collectorRequestId = id || row.callbackId = r.callbackId then
        w.finish i x .failed
      else w.put i { x with phase := .written c evidence }

def Acquired.evidenceId (c : Call) : Acquired → String
  | .inserted _ => c.evidenceId
  | .found record => record.evidenceId

def Acquired.store (ledger : Ledger) (location : Location) : Acquired → Option Ledger
  | .inserted p => insertAll ledger p location
  | .found _ => some ledger

def callbackRow (token : Token) (time : Int) (id : String) (c : Call) (evidence : Acquired) (r : Callback) : CallbackRow :=
  ⟨r.callbackId, token.tokenId, time, id, r.classification, evidence.evidenceId c⟩

def callbackEvent (token : Token) (c : Call) (r : Callback) : CallbackEvent :=
  ⟨r.callbackEventId, r.callbackId, token.tokenId, token.caseId, c.request.sourceSequence⟩

def usedToken (r : Callback) (token : Token) : Token :=
  { token with
    status := if token.expectedUsage = .oneTime then .used else token.status
    classificationStatus := some r.classification }

def commit (w : World) (i : ℕ) (x : Transaction) (c : Call) (evidence : Acquired) (location : Location) : World :=
  match evidence.store w.ledger location with
  | none => w.finish i x .failed
  | some ledger =>
    let w := w.finish i x .done
    match x.job, x.token with
    | .callback r, some token =>
      match r.callbackTime, r.collectorRequestId with
      | some time, some id =>
        { w with
          ledger
          callbacks := w.callbacks ++ [callbackRow token time id c evidence r]
          events := w.events ++ [callbackEvent token c r]
          tokens := updateToken w.tokens token.tokenId (usedToken r) }
      | _, _ => w
    | _, _ => { w with ledger }

def issueToken (w : World) (token : Token) : World :=
  if w.tokens.any fun other => other.tokenId = token.tokenId || other.publicTokenHash = token.publicTokenHash then w
  else { w with tokens := w.tokens ++ [{ token with
    revokedAt := none
    status := .active
    classificationStatus := none }] }

def revokeToken (w : World) (caseId tokenId : String) (now : Int) : World :=
  if tokenLocked w tokenId then w
  else { w with tokens := updateToken w.tokens tokenId fun token =>
    if token.caseId = caseId && (token.status = .active || token.status = .used) then
      { token with status := .revoked, revokedAt := some now }
    else token }

section
variable (sha256 : Bytes → String) (overrides : List (String × ℕ))

def advance (w : World) (i : ℕ) (x : Transaction) : Action → World
  | .lockToken _ =>
    match x.job, x.phase with
    | .callback r, .opened => lockToken w i x r
    | _, _ => w
  | .checkReplay _ =>
    match x.job, x.token, x.phase with
    | .callback r, some token, .locked => checkReplay w i x r token
    | _, _, _ => w
  | .allocate _ => allocate w i x
  | .acquire _ =>
    match x.phase with
    | .allocated c _ => acquire sha256 overrides w i x c
    | _ => w
  | .write _ =>
    match x.phase with
    | .acquired c evidence => write w i x c evidence
    | _ => w
  | .commit _ location =>
    match x.phase with
    | .written c evidence => commit w i x c evidence location
    | _ => w
  | .fail _ => if x.phase.isOver then w else w.finish i x .failed
  | _ => w

def Action.transaction? : Action → Option ℕ
  | .lockToken i | .checkReplay i | .allocate i | .acquire i | .write i | .commit i _ | .fail i => some i
  | _ => none

def step (w : World) (a : Action) : World :=
  match a with
  | .issueToken token => issueToken w token
  | .revokeToken caseId tokenId now => revokeToken w caseId tokenId now
  | .surroundings domain => { w with domain }
  | .request job => { w with transactions := w.transactions ++ [⟨job, none, .opened⟩] }
  | a =>
    match a.transaction? with
    | some i => (w.transactions[i]?).elim w fun x => advance sha256 overrides w i x a
    | none => w

end

end Mirage.CanaryConcurrency
