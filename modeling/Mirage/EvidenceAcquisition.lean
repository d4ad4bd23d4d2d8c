import Mirage.EventEnvelope
import Mirage.KeyedTable
import Mirage.RowLocks

/-! `EvidenceService.acquire`. -/

namespace Mirage.EvidenceAcquisition
open RowLocks

/-- The exceptions, by their class; `other` is any one that is not the module's own. -/
inductive ErrorClass where
  | evidence | tooLarge | source | value | other
  deriving DecidableEq

structure Raised where
  cls : ErrorClass
  message : String
  deriving DecidableEq

/-! Limits, categories and keys. -/

def evidenceCategories : List String :=
  ["raw", "artifacts", "screenshots", "logs", "snapshots", "exports", "manifests"]

def typeCategories : List (String × String) :=
  [("RAW_TELEMETRY", "raw"), ("ARTIFACT", "artifacts"), ("SCREENSHOT", "screenshots"), ("LOG", "logs"),
    ("SNAPSHOT", "snapshots"), ("EXPORT", "exports"), ("MANIFEST", "manifests"),
    ("SIGNATURE", "manifests"), ("VERIFICATION_REPORT", "exports"), ("CANARY_CALLBACK", "raw")]

def defaultMaxBytes : List (String × ℕ) :=
  [("RAW_TELEMETRY", 64 * 1024 * 1024), ("ARTIFACT", 250 * 1024 * 1024),
    ("SCREENSHOT", 50 * 1024 * 1024), ("LOG", 250 * 1024 * 1024), ("SNAPSHOT", 32 * 1024 * 1024),
    ("EXPORT", 2 * 1024 * 1024 * 1024), ("MANIFEST", 4 * 1024 * 1024), ("SIGNATURE", 64 * 1024),
    ("VERIFICATION_REPORT", 8 * 1024 * 1024), ("CANARY_CALLBACK", 256 * 1024)]

def maxBytesByType (overrides : List (String × ℕ)) (evidenceType : String) : Option ℕ :=
  (overrides.lookup evidenceType).or (defaultMaxBytes.lookup evidenceType)

def pathName (chars : List Char) : List Char :=
  (((chars.splitOn '/').filter fun part => part ≠ [] && part ≠ ['.']).getLast?).getD []

def filenameChar (c : Char) : Bool :=
  ('A' ≤ c && c ≤ 'Z') || ('a' ≤ c && c ≤ 'z') || ('0' ≤ c && c ≤ '9') || c ∈ ['.', '_', '-']

/-- Every run of characters that `bad` selects becomes one underscore; the flag
says that the last character was selected. -/
def underscoreRuns (bad : Char → Bool) : Bool → List Char → List Char
  | _, [] => []
  | inRun, c :: rest =>
    if bad c then if inRun then underscoreRuns bad true rest else '_' :: underscoreRuns bad true rest
    else c :: underscoreRuns bad false rest

def stripDots (chars : List Char) : List Char :=
  let edge := fun c => c = '.' || c = '_'
  ((chars.dropWhile edge).reverse.dropWhile edge).reverse

def sanitiseFilename (filename : String) : String :=
  let name := pathName (filename.toList.map fun c => if c = '\\' then '/' else c)
  let safe := underscoreRuns (· = '_') false (stripDots (underscoreRuns (fun c => !filenameChar c) false name))
  String.ofList ((if safe = [] then "unnamed".toList else safe).take 128)

def isUlid (text : String) : Bool :=
  match text.toList with
  | first :: rest =>
    '0' ≤ first && first ≤ '7' && rest.length = 25 && rest.all EventEnvelope.isCrockford
  | [] => false

def evidenceS3Key (caseId category evidenceId : String) (originalFilename : Option String) :
    Except Raised String := do
  require (category ∈ evidenceCategories) ⟨.value, "unsupported evidence category: " ++ category⟩
  require (isUlid caseId) ⟨.value, "case_id must be a canonical ULID"⟩
  require (isUlid evidenceId) ⟨.value, "evidence_id must be a canonical ULID"⟩
  let suffix := match originalFilename with
    | none => ""
    | some filename => "-" ++ sanitiseFilename filename
  return "cases/" ++ caseId ++ "/" ++ category ++ "/" ++ evidenceId ++ suffix

abbrev Bytes := List UInt8

def contents : List Bytes → Bytes
  | [] => []
  | chunk :: rest => if chunk = [] then [] else chunk ++ contents rest

/-- The loop of `stream_hash`: the spool holds what was read so far. -/
def spoolChunks (maxBytes : ℕ) : List Bytes → Bytes → Except Raised Bytes
  | [], spool => .ok spool
  | chunk :: rest, spool =>
    if chunk = [] then .ok spool
    else if spool.length + chunk.length > maxBytes then
      .error ⟨.tooLarge, "evidence exceeds " ++ toString maxBytes ++ " bytes"⟩
    else spoolChunks maxBytes rest (spool ++ chunk)

def streamHash (sha256 : Bytes → String) (maxBytes : ℕ) (stream : List Bytes) :
    Except Raised (Bytes × ℕ × String) :=
  (spoolChunks maxBytes stream []).map fun spool => (spool, spool.length, sha256 spool)

theorem spoolChunks_eq (maxBytes : ℕ) (stream : List Bytes) {spool : Bytes} (fits : spool.length ≤ maxBytes) :
    spoolChunks maxBytes stream spool =
      if (spool ++ contents stream).length ≤ maxBytes then .ok (spool ++ contents stream)
      else .error ⟨.tooLarge, "evidence exceeds " ++ toString maxBytes ++ " bytes"⟩ := by
  induction stream generalizing spool with
  | nil => simp [spoolChunks, contents, fits]
  | cons chunk rest ih =>
    rw [spoolChunks, contents]
    by_cases empty : chunk = []
    · simp [empty, fits]
    · rw [if_neg empty, if_neg empty]
      by_cases long : spool.length + chunk.length > maxBytes
      · have beyond : ¬ (spool ++ (chunk ++ contents rest)).length ≤ maxBytes := by
          rw [List.length_append, List.length_append]
          omega
        rw [if_pos long, if_neg beyond]
      · have next : (spool ++ chunk).length ≤ maxBytes := by
          rw [List.length_append]
          omega
        rw [if_neg long, ih next, List.append_assoc]

theorem streamHash_eq (sha256 : Bytes → String) (maxBytes : ℕ) (stream : List Bytes) :
    streamHash sha256 maxBytes stream =
      if (contents stream).length ≤ maxBytes then
        .ok (contents stream, (contents stream).length, sha256 (contents stream))
      else .error ⟨.tooLarge, "evidence exceeds " ++ toString maxBytes ++ " bytes"⟩ := by
  rw [streamHash, spoolChunks_eq maxBytes stream (Nat.zero_le _), List.nil_append]
  split <;> rfl

structure AcquisitionRequest where
  caseId : String
  sessionId : Option String
  evidenceType : String
  sourceId : String
  sourceSequence : Int
  sourceCertificateSerial : Option String
  relatedEventIds : List String
  acquisitionTime : Int
  originalFilename : Option String
  mediaType : String
  collectionMethod : String
  classification : String
  metadata : List (String × Json)
  requiredForExport : Bool

structure Location where
  bucket : String
  key : String
  versionId : String
  deriving DecidableEq

/-- A row of `evidence_objects`; its `originalFilename` is the sanitised one. -/
structure EvidenceRow extends AcquisitionRequest where
  evidenceId : String
  storedTime : Int
  sizeBytes : ℕ
  sha256 : String
  location : Location
  verificationStatus : String

structure EvidenceRecord where
  evidenceId : String
  caseId : String
  sha256 : String
  sizeBytes : ℕ
  location : Location
  verificationStatus : String
  deriving DecidableEq

def EvidenceRow.record (row : EvidenceRow) : EvidenceRecord :=
  ⟨row.evidenceId, row.caseId, row.sha256, row.sizeBytes, row.location, row.verificationStatus⟩

structure AuditRow where
  actor : String
  target : String
  correlationId : String
  detail : String
  deriving DecidableEq

/-- An `evidence.created` event of the outbox. -/
structure CreatedEvent where
  eventId : String
  evidenceId : String
  caseId : String
  sessionId : Option String
  evidenceType : String
  sha256 : String
  sizeBytes : ℕ
  s3Key : String
  s3VersionId : String
  sequence : Int

structure Agent where
  agentId : String
  status : String
  certificateSerial : String

structure Domain where
  cases : List String
  sessions : List (String × String)
  agents : List Agent

structure Ledger where
  rows : KeyedTable EvidenceRow.evidenceId
  audit : List AuditRow
  outbox : KeyedTable CreatedEvent.eventId

structure Call where
  request : AcquisitionRequest
  stream : List Bytes
  actor : String
  correlationId : String
  evidenceId : String
  eventId : String
  storedTime : Int

/-- A call behind `stream_hash` and `evidence_s3_key`. -/
structure Prepared where
  call : Call
  spool : Bytes
  sizeBytes : ℕ
  sha256 : String
  key : String

section
variable (sha256 : Bytes → String) (overrides : List (String × ℕ))

def prepare (c : Call) : Except Raised Prepared := do
  let unsupported : Raised := ⟨.evidence, "unsupported evidence type: " ++ c.request.evidenceType⟩
  let maxBytes ← present (maxBytesByType overrides c.request.evidenceType) unsupported
  let category ← present (typeCategories.lookup c.request.evidenceType) unsupported
  let (spool, sizeBytes, digest) ← streamHash sha256 maxBytes c.stream
  let key ← evidenceS3Key c.request.caseId category c.evidenceId c.request.originalFilename
  return ⟨c, spool, sizeBytes, digest, key⟩

end

def given (text : Option String) : Option String := text.filter fun text => text ≠ ""

instance pair_lawful : LawfulBEq (String × String) := inferInstance

def admitSession (d : Domain) (r : AcquisitionRequest) : Except Raised Unit :=
  match given r.sessionId with
  | none => .ok ()
  | some sessionId =>
    require ((sessionId, r.caseId) ∈ d.sessions) ⟨.evidence, "session does not belong to case"⟩

def authenticate (d : Domain) (r : AcquisitionRequest) : Except Raised Unit :=
  match given r.sourceCertificateSerial with
  | none => .ok ()
  | some serial =>
    require ((d.agents.find? fun agent => agent.agentId = r.sourceId).any fun agent =>
      agent.status = "ACTIVE" && agent.certificateSerial = serial)
      ⟨.source, "source authentication failed"⟩

def admissible (d : Domain) (r : AcquisitionRequest) : Except Raised Unit := do
  require (r.caseId ∈ d.cases) ⟨.evidence, "unknown case"⟩
  admitSession d r
  authenticate d r

def rowsOf (l : Ledger) (sourceId : String) : List EvidenceRow :=
  l.rows.rows.filter fun row => row.sourceId = sourceId

def maxSequence (l : Ledger) (sourceId : String) : Int :=
  ((rowsOf l sourceId).map fun row => row.sourceSequence).foldl max (-1)

def sameEvidence (row : EvidenceRow) (p : Prepared) : Bool :=
  row.caseId = p.call.request.caseId && row.sessionId = p.call.request.sessionId &&
    row.evidenceType = p.call.request.evidenceType && row.sha256 = p.sha256 &&
    row.sizeBytes = p.sizeBytes

/-- The checks under the lock: the record of an equal replay, or nothing where the
evidence is new. -/
def check (d : Domain) (l : Ledger) (p : Prepared) : Except Raised (Option EvidenceRecord) := do
  admissible d p.call.request
  match (rowsOf l p.call.request.sourceId).find? fun row =>
      row.sourceSequence = p.call.request.sourceSequence with
  | some row =>
    require (sameEvidence row p)
      ⟨.source, "source sequence replayed with different evidence metadata or bytes"⟩
    return some row.record
  | none =>
    require (maxSequence l p.call.request.sourceId < p.call.request.sourceSequence)
      ⟨.source, "source sequence is replayed or out of order"⟩
    return none

def newRow (p : Prepared) (location : Location) : EvidenceRow :=
  { p.call.request with
    originalFilename := p.call.request.originalFilename.map sanitiseFilename
    evidenceId := p.call.evidenceId
    storedTime := p.call.storedTime
    sizeBytes := p.sizeBytes
    sha256 := p.sha256
    location
    verificationStatus := "PENDING" }

@[simp] theorem newRow_sourceId (p : Prepared) (location : Location) :
    (newRow p location).sourceId = p.call.request.sourceId := rfl

@[simp] theorem newRow_evidenceId (p : Prepared) (location : Location) :
    (newRow p location).evidenceId = p.call.evidenceId := rfl

def newAudit (p : Prepared) : AuditRow where
  actor := p.call.actor
  target := p.call.evidenceId
  correlationId := p.call.correlationId
  detail := p.call.request.evidenceType ++ ":" ++ toString p.sizeBytes

def newEvent (p : Prepared) (location : Location) : CreatedEvent where
  eventId := p.call.eventId
  evidenceId := p.call.evidenceId
  caseId := p.call.request.caseId
  sessionId := p.call.request.sessionId
  evidenceType := p.call.request.evidenceType
  sha256 := p.sha256
  sizeBytes := p.sizeBytes
  s3Key := location.key
  s3VersionId := location.versionId
  sequence := p.call.request.sourceSequence

@[simp] theorem newEvent_evidenceId (p : Prepared) (location : Location) :
    (newEvent p location).evidenceId = p.call.evidenceId := rfl

def insertAll (l : Ledger) (p : Prepared) (location : Location) : Option Ledger := do
  let rows ← l.rows.insert (newRow p location)
  let outbox ← l.outbox.insert (newEvent p location)
  return ⟨rows, l.audit ++ [newAudit p], outbox⟩

theorem prepare_eq_ok {sha256 : Bytes → String} {overrides : List (String × ℕ)} {c : Call} {p : Prepared}
    (prepared : prepare sha256 overrides c = .ok p) :
    p.call = c ∧ p.spool = contents c.stream ∧ p.sizeBytes = (contents c.stream).length ∧
      p.sha256 = sha256 (contents c.stream) ∧
      ∃ maxBytes, maxBytesByType overrides c.request.evidenceType = some maxBytes ∧
        (contents c.stream).length ≤ maxBytes := by
  simp only [prepare, bind_eq_ok, present_eq_ok, streamHash_eq] at prepared
  obtain ⟨maxBytes, limit, category, -, ⟨spool, sizeBytes, digest⟩, read, key, -, made⟩ := prepared
  cases made
  split at read
  · cases read
    exact ⟨rfl, rfl, rfl, rfl, maxBytes, limit, ‹_›⟩
  · cases read

theorem le_maxSequence {l : Ledger} {sourceId : String} {row : EvidenceRow} (mem : row ∈ rowsOf l sourceId) :
    row.sourceSequence ≤ maxSequence l sourceId := by
  suffices h : ∀ (rows : List Int) (low : Int), low ≤ rows.foldl max low ∧
      ∀ n ∈ rows, n ≤ rows.foldl max low from
    (h _ _).2 _ (List.mem_map.mpr ⟨row, mem, rfl⟩)
  intro rows
  induction rows with
  | nil => simp
  | cons n rest ih =>
    intro low
    obtain ⟨start, later⟩ := ih (max low n)
    rw [List.foldl_cons]
    refine ⟨le_trans (le_max_left low n) start, fun m listed => ?_⟩
    rcases List.mem_cons.mp listed with rfl | mem
    · exact le_trans (le_max_right low m) start
    · exact later m mem

theorem check_eq_none {d : Domain} {l : Ledger} {p : Prepared} (passed : check d l p = .ok none) :
    ∀ row ∈ rowsOf l p.call.request.sourceId, row.sourceSequence < p.call.request.sourceSequence := by
  intro row mem
  rw [check, bind_eq_ok] at passed
  obtain ⟨-, -, found⟩ := passed
  split at found
  · rw [bind_eq_ok] at found
    obtain ⟨-, -, returned⟩ := found
    cases returned
  · simp only [bind_eq_ok, require_eq_ok, decide_eq_true_eq] at found
    obtain ⟨-, beyond, -⟩ := found
    exact lt_of_le_of_lt (le_maxSequence mem) beyond

theorem insertAll_eq_some {l l' : Ledger} {p : Prepared} {location : Location}
    (wrote : insertAll l p location = some l') :
    p.call.evidenceId ∉ l.rows.rows.map EvidenceRow.evidenceId ∧
      l'.rows.rows = l.rows.rows ++ [newRow p location] ∧ l'.audit = l.audit ++ [newAudit p] ∧
      l'.outbox.rows = l.outbox.rows ++ [newEvent p location] := by
  simp only [insertAll, Option.bind_eq_bind, Option.bind_eq_some_iff, Option.pure_def,
    Option.some.injEq] at wrote
  obtain ⟨rows, inserted, outbox, announced, rfl⟩ := wrote
  obtain ⟨new, grown⟩ := KeyedTable.insert_eq_some inserted
  exact ⟨new, grown, rfl, (KeyedTable.insert_eq_some announced).2⟩

end Mirage.EvidenceAcquisition
