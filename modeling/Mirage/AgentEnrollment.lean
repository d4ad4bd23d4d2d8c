import Mirage.AgentDatabase
import Mirage.EventRun
import Mirage.RowLocks

/-! Enrolment, renewal and revocation of agents. Calls of one agent are serialised, and
nobody else writes the agent's row or a token of its subject, so a call is taken to run as
a whole at its commit. -/

namespace Mirage.AgentEnrollment
open AgentDatabase RowLocks

structure Config where
  /-- `jwt.decode` without signature verification. -/
  decode : String → Option Json
  parseUuid : String → Option ℕ
  /-- The serial number of a PEM certificate in base 10. -/
  serialBase10 : String → Option String

structure Issued where
  certificatePem : String
  certificateChainPem : String
  notAfter : String

/-- How `sign_csr` ends. -/
inductive Signing where
  | issued (certificate : Issued)
  /-- step-ca answered with an error status. -/
  | refused (error : String)
  | failed

structure EnrollResult where
  agentId : String
  role : Role
  certificateProfile : String
  certificatePem : String
  certificateChainPem : String
  certificateSerial : String
  notAfter : String

inductive Failure where
  | unknownRole (role : String)
  | enrollmentTokenInvalid
  | hostFingerprintInvalid
  | buildHashNotAllowed
  | caSigning (error : String)
  | agentNotFound (agentId : String)
  | agentAlreadyRevoked (agentId : String)
  | internal
  deriving DecidableEq

structure TokenRequest where
  role : String
  subject : String
  /-- The identifier and the expiry of the minted token. -/
  minted : Option (ℕ × Int)
  stored : Bool

structure EnrollRequest where
  enrollmentToken : String
  hostFingerprint : String
  buildHash : String
  now : Int
  signing : Signing
  stored : Bool

structure RenewRequest where
  agentId : String
  signing : Signing
  stored : Bool

structure RevokeRequest where
  agentId : String
  reason : String
  stored : Bool
  /-- Whether step-ca took the revocation that follows the commit. -/
  caRevoked : Bool

def roleOf : String → Option Role
  | "ENDPOINT" => some .endpoint
  | "SPIDER" => some .spider
  | "ENV_CONTROLLER" => some .envController
  | "BROKER_CLIENT" => some .brokerClient
  | "INTERNAL_CONTROL" => some .internalControl
  | _ => none

def insertToken (db : Database) (req : TokenRequest) : Except Failure (Database × ℕ) := do
  let role ← present (roleOf req.role) (.unknownRole req.role)
  let (tokenId, expiresAt) ← present req.minted .internal
  let tokens ← present (db.tokens.insert ⟨tokenId, role, req.subject, expiresAt, none⟩) .internal
  require req.stored .internal
  pure ({ db with tokens }, tokenId)

def truthy : Json → Bool
  | .null => false
  | .bool b => b
  | .int n => n ≠ 0
  | .float _ integral => integral ≠ some 0
  | .str s => s ≠ ""
  | .arr items => !items.isEmpty
  | .obj members => !members.isEmpty

def isBuildHash (hash : String) : Bool :=
  hash.toList.all (fun c => c.toLower ∈ "0123456789abcdef".toList) && hash.length = 64

/-- The checks before the first statement: the identifiers in the token, and
the shape of fingerprint and build hash. -/
def presentedToken (cfg : Config) (req : EnrollRequest) :
    Except Failure (String × ℕ × Option Json) := do
  let claims ← present (cfg.decode req.enrollmentToken) .enrollmentTokenInvalid
  let jti ← present (claims.get? "jti") .enrollmentTokenInvalid
  require (truthy jti) .enrollmentTokenInvalid
  require (req.hostFingerprint ≠ "" && req.hostFingerprint.length ≤ 256) .hostFingerprintInvalid
  require (isBuildHash req.buildHash) .buildHashNotAllowed
  match jti with
  | .str text => do
    let tokenId ← present (cfg.parseUuid text) .internal
    pure (text, tokenId, claims.get? "sub")
  | _ => .error .internal

/-- `UPDATE enrollment_tokens … RETURNING`: the token and who used it. -/
def consumeToken (db : Database) (tokenId : ℕ) (sub : Option Json) (now : Int) :
    Except Failure (TokenRow × String) := do
  require (match sub with
    | none | some .null | some (.str _) => true
    | _ => false) .internal
  let token ← present ((db.tokens.find tokenId).filter fun t => t.usedBy.isNone && now < t.expiresAt)
    .enrollmentTokenInvalid
  match sub with
  | some (.str subject) => pure (token, subject)
  | _ => .error .internal

def markUsed (subject : String) (t : TokenRow) : TokenRow := { t with usedBy := some subject }

theorem markUsed_tokenId (subject : String) (t : TokenRow) :
    (markUsed subject t).tokenId = t.tokenId := rfl

def consumed (db : Database) (tokenId : ℕ) (subject : String) : Database :=
  { db with tokens := db.tokens.update tokenId (markUsed subject) (markUsed_tokenId subject) }

def serialFree (db : Database) (agentId serial : String) : Bool :=
  db.agents.rows.all fun r => !(r.certificateSerial = serial) || r.agentId = agentId

def newAgent (token : TokenRow) (serial notAfter : String) (req : EnrollRequest) : AgentRow :=
  ⟨token.subject, token.role, token.role.profile, serial, notAfter, req.buildHash,
    req.hostFingerprint, .active, none, 0⟩

def reEnrolled (new old : AgentRow) : AgentRow :=
  { old with
    certificateProfile := new.certificateProfile
    certificateSerial := new.certificateSerial
    certificateNotAfter := new.certificateNotAfter
    buildHash := new.buildHash
    hostFingerprint := new.hostFingerprint
    status := .active
    revokedReason := none }

theorem reEnrolled_agentId (new old : AgentRow) : (reEnrolled new old).agentId = old.agentId := rfl

def admitted (db : Database) (req : EnrollRequest) (jti : String) (tokenId : ℕ) (token : TokenRow)
    (subject serial notAfter : String) : Database :=
  let agent := newAgent token serial notAfter req
  { consumed db tokenId subject with
    agents := db.agents.upsert agent (reEnrolled agent) (reEnrolled_agentId agent)
    history := db.history ++
      [⟨token.subject, serial, .issued, "enrolled via token " ++ jti, token.role, some tokenId⟩] }

def admitAgent (cfg : Config) (db : Database) (req : EnrollRequest) (jti : String) (tokenId : ℕ)
    (token : TokenRow) (subject : String) (certificate : Issued) :
    Except Failure (Database × EnrollResult) := do
  let serial ← present (cfg.serialBase10 certificate.certificatePem) .internal
  require (serialFree db token.subject serial) .internal
  require req.stored .internal
  pure (admitted db req jti tokenId token subject serial certificate.notAfter,
    ⟨token.subject, token.role, token.role.profile, certificate.certificatePem,
      certificate.certificateChainPem, serial, certificate.notAfter⟩)

def commitAndRaise {α : Type} (stored : Bool) (db after : Database) (failure : Failure) :
    Database × Except Failure α :=
  if stored then (after, .error failure) else (db, .error .internal)

def settle {α : Type} (db : Database) : Except Failure (Database × α) → Database × Except Failure α
  | .ok (after, a) => (after, .ok a)
  | .error failure => (db, .error failure)

def enrollAgent (cfg : Config) (db : Database) (req : EnrollRequest) :
    Database × Except Failure EnrollResult :=
  match presentedToken cfg req with
  | .error failure => (db, .error failure)
  | .ok (jti, tokenId, sub) =>
    match consumeToken db tokenId sub req.now with
    | .error failure => (db, .error failure)
    | .ok (token, subject) =>
      if db.allowlist req.buildHash ≠ some token.role then
        commitAndRaise req.stored db (consumed db tokenId subject) .buildHashNotAllowed
      else
        match req.signing with
        | .refused error =>
          commitAndRaise req.stored db (consumed db tokenId subject) (.caSigning error)
        | .failed => (db, .error .internal)
        | .issued certificate =>
          settle db (admitAgent cfg db req jti tokenId token subject certificate)

def Signing.certificate : Signing → Except Failure Issued
  | .issued certificate => .ok certificate
  | .refused error => .error (.caSigning error)
  | .failed => .error .internal

def renewed (serial notAfter : String) (r : AgentRow) : AgentRow :=
  { r with certificateSerial := serial, certificateNotAfter := notAfter }

theorem renewed_agentId (serial notAfter : String) (r : AgentRow) :
    (renewed serial notAfter r).agentId = r.agentId := rfl

def renewAgent (cfg : Config) (db : Database) (req : RenewRequest) :
    Except Failure (Database × EnrollResult) := do
  let row ← present (db.agents.find req.agentId) (.agentNotFound req.agentId)
  require (row.status = .active) (.agentAlreadyRevoked req.agentId)
  let certificate ← req.signing.certificate
  let serial ← present (cfg.serialBase10 certificate.certificatePem) .internal
  require (serialFree db req.agentId serial) .internal
  require req.stored .internal
  pure ({ db with
      agents := db.agents.update req.agentId (renewed serial certificate.notAfter)
        (renewed_agentId serial certificate.notAfter)
      history := db.history ++ [⟨req.agentId, serial, .renewed, "renewed", row.role, none⟩] },
    ⟨req.agentId, row.role, row.role.profile, certificate.certificatePem,
      certificate.certificateChainPem, serial, certificate.notAfter⟩)

def revoked (reason : String) (r : AgentRow) : AgentRow :=
  { r with status := .revoked, revokedReason := some reason }

theorem revoked_agentId (reason : String) (r : AgentRow) :
    (revoked reason r).agentId = r.agentId := rfl

/-- Postgres is authoritative: the passive revocation at step-ca comes after
the commit, and its failure raises without undoing it. -/
def revokeAgent (db : Database) (req : RevokeRequest) : Database × Except Failure Unit :=
  match db.agents.find req.agentId with
  | none => (db, .error (.agentNotFound req.agentId))
  | some row =>
    if row.status = .revoked then (db, .ok ())
    else if req.stored then
      ({ db with
          agents := db.agents.update req.agentId (revoked req.reason) (revoked_agentId req.reason)
          history := db.history ++
            [⟨req.agentId, row.certificateSerial, .revoked, req.reason, row.role, none⟩] },
        if req.caRevoked then .ok () else .error .internal)
    else (db, .error .internal)

inductive Call where
  | createEnrollmentToken (req : TokenRequest)
  | enroll (req : EnrollRequest)
  | renew (req : RenewRequest)
  | revoke (req : RevokeRequest)

def step (cfg : Config) (db : Database) : Call → Database
  | .createEnrollmentToken req => (settle db (insertToken db req)).1
  | .enroll req => (enrollAgent cfg db req).1
  | .renew req => (settle db (renewAgent cfg db req)).1
  | .revoke req => (revokeAgent db req).1

def unenrolled (db : Database) : Database := { db with agents := .empty, history := [] }

theorem consumeToken_eq_ok {db : Database} {tokenId : ℕ} {sub : Option Json} {now : Int}
    {token : TokenRow} {subject : String}
    (h : consumeToken db tokenId sub now = .ok (token, subject)) :
    db.tokens.find tokenId = some token ∧ token.usedBy = none := by
  simp only [consumeToken, bind_eq_ok, present_eq_ok] at h
  obtain ⟨-, -, found, selected, h⟩ := h
  obtain ⟨mem, valid⟩ := Option.filter_eq_some_iff.mp selected
  simp only [Bool.and_eq_true, Option.isNone_iff_eq_none] at valid
  split at h
  · cases h
    exact ⟨mem, valid.1⟩
  · cases h

structure Passes (cfg : Config) (db : Database) (req : EnrollRequest) (jti subject : String)
    (tokenId : ℕ) (token : TokenRow) (certificate : Issued) (serial : String) : Prop where
  presented : ∃ sub, presentedToken cfg req = .ok (jti, tokenId, sub) ∧
    consumeToken db tokenId sub req.now = .ok (token, subject)
  allowed : db.allowlist req.buildHash = some token.role
  signed : req.signing = .issued certificate
  parsed : cfg.serialBase10 certificate.certificatePem = some serial
  free : serialFree db token.subject serial = true
  stored : req.stored = true

theorem enrollAgent_passes {cfg : Config} {db : Database} {req : EnrollRequest}
    {jti subject : String} {tokenId : ℕ} {token : TokenRow} {certificate : Issued} {serial : String}
    (passes : Passes cfg db req jti subject tokenId token certificate serial) :
    (enrollAgent cfg db req).1 =
      admitted db req jti tokenId token subject serial certificate.notAfter := by
  obtain ⟨sub, presented, taken⟩ := passes.presented
  simp [enrollAgent, presented, taken, passes.allowed, passes.signed, admitAgent, settle, present,
    passes.parsed, passes.free, passes.stored, bind, Except.bind, pure, Except.pure]

def Unadmitted (db db' : Database) : Prop :=
  db' = db ∨ ∃ tokenId subject, db' = consumed db tokenId subject

theorem commitAndRaise_unadmitted {α : Type} (stored : Bool) (db : Database) (tokenId : ℕ)
    (subject : String) (failure : Failure) :
    let outcome : Database × Except Failure α :=
      commitAndRaise stored db (consumed db tokenId subject) failure
    (∃ failure, outcome.2 = .error failure) ∧ Unadmitted db outcome.1 := by
  cases stored with
  | true => exact ⟨⟨_, rfl⟩, .inr ⟨_, _, rfl⟩⟩
  | false => exact ⟨⟨_, rfl⟩, .inl rfl⟩

theorem enrollAgent_cases (cfg : Config) (db : Database) (req : EnrollRequest) :
    ((∃ failure, (enrollAgent cfg db req).2 = .error failure) ∧
      Unadmitted db (enrollAgent cfg db req).1) ∨
    ∃ jti subject tokenId token certificate serial result,
      Passes cfg db req jti subject tokenId token certificate serial ∧
      (enrollAgent cfg db req).2 = .ok result := by
  unfold enrollAgent
  split
  · exact .inl ⟨⟨_, rfl⟩, .inl rfl⟩
  rename_i jti tokenId sub presented
  split
  · exact .inl ⟨⟨_, rfl⟩, .inl rfl⟩
  rename_i token subject taken
  split
  · exact .inl (commitAndRaise_unadmitted ..)
  rename_i allowed
  split
  · exact .inl (commitAndRaise_unadmitted ..)
  · exact .inl ⟨⟨_, rfl⟩, .inl rfl⟩
  · rename_i certificate signed
    cases wrote : admitAgent cfg db req jti tokenId token subject certificate with
    | error failure => exact .inl ⟨⟨failure, rfl⟩, .inl rfl⟩
    | ok r =>
      right
      simp only [admitAgent, bind_eq_ok, require_eq_ok, present_eq_ok] at wrote
      obtain ⟨serial, parsed, -, free, -, stored, -⟩ := wrote
      exact ⟨jti, subject, tokenId, token, certificate, serial, r.2,
        ⟨⟨sub, presented, taken⟩, by simpa using allowed, signed, parsed, free, stored⟩, rfl⟩

structure RenewedBy (db : Database) (agentId : String) (row : AgentRow) (serial notAfter : String)
    (db' : Database) : Prop where
  found : db.agents.find agentId = some row
  active : row.status = .active
  free : serialFree db agentId serial = true
  written : db' = { db with
    agents := db.agents.update agentId (renewed serial notAfter) (renewed_agentId serial notAfter)
    history := db.history ++ [⟨agentId, serial, .renewed, "renewed", row.role, none⟩] }

theorem renewAgent_eq_ok {cfg : Config} {db db' : Database} {req : RenewRequest}
    {result : EnrollResult} (h : renewAgent cfg db req = .ok (db', result)) :
    ∃ row serial notAfter, RenewedBy db req.agentId row serial notAfter db' := by
  simp only [renewAgent, bind_eq_ok, require_eq_ok, present_eq_ok] at h
  obtain ⟨row, found, -, active, certificate, -, serial, -, -, free, -, -, done⟩ := h
  simp only [pure, Except.pure, Except.ok.injEq, Prod.mk.injEq] at done
  exact ⟨row, serial, certificate.notAfter, found, by simpa using active, free, done.1.symm⟩

theorem revokeAgent_cases (db : Database) (req : RevokeRequest) :
    (revokeAgent db req).1 = db ∨ ∃ row, db.agents.find req.agentId = some row ∧
      row.status = .active ∧ (revokeAgent db req).1 = { db with
        agents := db.agents.update req.agentId (revoked req.reason) (revoked_agentId req.reason)
        history := db.history ++
          [⟨req.agentId, row.certificateSerial, .revoked, req.reason, row.role, none⟩] } := by
  unfold revokeAgent
  split
  · exact .inl rfl
  · rename_i row found
    split
    · exact .inl rfl
    · rename_i status
      split
      · refine .inr ⟨row, found, ?_, rfl⟩
        cases h : row.status with
        | active => rfl
        | revoked => exact absurd h status
      · exact .inl rfl

theorem insertToken_eq_ok {db db' : Database} {req : TokenRequest} {tokenId : ℕ}
    (h : insertToken db req = .ok (db', tokenId)) :
    ∃ tokens token, db.tokens.insert token = some tokens ∧ db' = { db with tokens } := by
  simp only [insertToken, bind_eq_ok, require_eq_ok, present_eq_ok] at h
  obtain ⟨role, -, ⟨id, expiresAt⟩, -, tokens, inserted, -, -, done⟩ := h
  simp only [pure, Except.pure, Except.ok.injEq, Prod.mk.injEq] at done
  exact ⟨tokens, _, inserted, done.1.symm⟩

/-! The certificate history and what it says about admission. -/

def historyOf (db : Database) (agentId : String) : List HistoryRow :=
  db.history.filter fun e => e.agentId = agentId

def isIssue (e : HistoryRow) : Bool := e.action = .issued || e.action = .renewed

/-- `serial` is the most recently issued one of some agent, which has no
`REVOKED` entry after it. -/
def HistoryAdmits (db : Database) (serial : String) : Prop :=
  ∃ agentId before entry after, historyOf db agentId = before ++ entry :: after ∧
    isIssue entry = true ∧ entry.certificateSerial = serial ∧
    (∀ e ∈ after, isIssue e = false) ∧ ∀ e ∈ after, e.action ≠ .revoked

def issuedUnder (tokenId : ℕ) (e : HistoryRow) : Bool :=
  e.action = .issued && e.token = some tokenId

def Agrees (row : AgentRow) (entry : HistoryRow) : Prop :=
  match row.status with
  | .active => isIssue entry = true ∧ entry.certificateSerial = row.certificateSerial
  | .revoked => entry.action = .revoked

structure CertificateLedger (db : Database) : Prop where
  serials : ∀ a b row row', db.agents.find a = some row → db.agents.find b = some row' →
    row.certificateSerial = row'.certificateSerial → a = b
  last : ∀ agentId row, db.agents.find agentId = some row →
    ∃ before entry, historyOf db agentId = before ++ [entry] ∧ Agrees row entry
  absent : ∀ agentId, db.agents.find agentId = none → historyOf db agentId = []
  used : ∀ e ∈ db.history, ∀ tokenId, issuedUnder tokenId e = true →
    ∃ token, db.tokens.find tokenId = some token ∧ token.usedBy.isSome = true
  once : ∀ tokenId, db.history.countP (issuedUnder tokenId) ≤ 1

theorem unenrolled_ledger (db : Database) : CertificateLedger (unenrolled db) := by
  refine ⟨fun a b row row' h => ?_, fun agentId row h => ?_, fun agentId _ => rfl, ?_, ?_⟩
  · cases h
  · cases h
  · simp [unenrolled]
  · simp [unenrolled]

theorem historyOf_append {db db' : Database} {entry : HistoryRow}
    (h : db'.history = db.history ++ [entry]) (agentId : String) :
    historyOf db' agentId =
      historyOf db agentId ++ if entry.agentId = agentId then [entry] else [] := by
  unfold historyOf
  rw [h, List.filter_append]
  by_cases same : entry.agentId = agentId <;> simp [same]

def TokensKept (db db' : Database) : Prop :=
  ∀ tokenId token, db.tokens.find tokenId = some token → token.usedBy.isSome = true →
    ∃ token', db'.tokens.find tokenId = some token' ∧ token'.usedBy.isSome = true

theorem ledger_tokens {db db' : Database} (ledger : CertificateLedger db)
    (agents : db'.agents = db.agents) (history : db'.history = db.history)
    (tokens : TokensKept db db') : CertificateLedger db' := by
  have same : ∀ agentId, historyOf db' agentId = historyOf db agentId := by
    intro agentId
    rw [historyOf, history, historyOf]
  refine ⟨?_, ?_, ?_, ?_, ?_⟩
  · rw [agents]
    exact ledger.serials
  · simp only [agents, same]
    exact ledger.last
  · simp only [agents, same]
    exact ledger.absent
  · intro e he tokenId issued
    rw [history] at he
    obtain ⟨token, found, used⟩ := ledger.used e he tokenId issued
    exact tokens tokenId token found used
  · rw [history]
    exact ledger.once

theorem ledger_write {db db' : Database} (ledger : CertificateLedger db) (row : AgentRow)
    {entry : HistoryRow}
    (find : ∀ k, db'.agents.find k = if k = entry.agentId then some row else db.agents.find k)
    (history : db'.history = db.history ++ [entry]) (agrees : Agrees row entry)
    (free : ∀ k other, db.agents.find k = some other →
      other.certificateSerial = row.certificateSerial → k = entry.agentId)
    (tokens : TokensKept db db')
    (used : ∀ tokenId, issuedUnder tokenId entry = true →
      (∀ e ∈ db.history, issuedUnder tokenId e = false) ∧
      ∃ token, db'.tokens.find tokenId = some token ∧ token.usedBy.isSome = true) :
    CertificateLedger db' := by
  have grown := historyOf_append history
  refine ⟨fun a b r r' ha hb same => ?_, fun agentId r h => ?_, fun agentId h => ?_,
    fun e he tokenId issued => ?_, fun tokenId => ?_⟩
  · rw [find] at ha hb
    split at ha <;> split at hb
    · rename_i here there
      rw [here, there]
    · rename_i here there
      cases ha
      rw [here, free b r' hb same.symm]
    · rename_i here there
      cases hb
      rw [there, free a r ha same]
    · exact ledger.serials a b r r' ha hb same
  · rw [find] at h
    split at h
    · rename_i here
      cases h
      exact ⟨historyOf db agentId, entry, by rw [grown, if_pos here.symm], agrees⟩
    · rename_i other
      obtain ⟨before, last, split, agrees'⟩ := ledger.last agentId r h
      exact ⟨before, last, by rw [grown, if_neg (Ne.symm other), List.append_nil, split], agrees'⟩
  · rw [find] at h
    split at h
    · cases h
    · rename_i other
      rw [grown, if_neg (Ne.symm other), List.append_nil]
      exact ledger.absent agentId h
  · rw [history] at he
    rcases List.mem_append.mp he with old | new
    · obtain ⟨token, found, marked⟩ := ledger.used e old tokenId issued
      exact tokens tokenId token found marked
    · rw [List.mem_singleton.mp new] at issued
      exact (used tokenId issued).2
  · rw [history, List.countP_append]
    by_cases issued : issuedUnder tokenId entry = true
    · have none := List.countP_eq_zero.mpr fun e he => by
        simpa using (used tokenId issued).1 e he
      simp [none, issued]
    · simpa [issued] using ledger.once tokenId

theorem free_of_serialFree {db : Database} {agentId serial : String}
    (free : serialFree db agentId serial = true) {k : String} {other : AgentRow}
    (found : db.agents.find k = some other) (same : other.certificateSerial = serial) :
    k = agentId := by
  obtain ⟨mem, key⟩ := db.agents.find_eq_some.mp found
  have := List.all_eq_true.mp free other mem
  rw [← key]
  simpa [same] using this

theorem consumed_kept (db : Database) (tokenId : ℕ) (subject : String) :
    TokensKept db (consumed db tokenId subject) := by
  intro id token found used
  simp only [consumed, KeyedTable.find_update]
  split
  · rename_i here
    rw [← here, found]
    exact ⟨_, rfl, rfl⟩
  · exact ⟨token, found, used⟩

theorem admitted_ledger {db : Database} {req : EnrollRequest} {tokenId : ℕ} {token : TokenRow}
    (ledger : CertificateLedger db) (found : db.tokens.find tokenId = some token)
    (unused : token.usedBy = none) (jti subject : String) {serial : String}
    (free : serialFree db token.subject serial = true) (notAfter : String) :
    CertificateLedger (admitted db req jti tokenId token subject serial notAfter) := by
  have marked : (consumed db tokenId subject).tokens.find tokenId = some (markUsed subject token) := by
    simp [consumed, KeyedTable.find_update, found]
  let agent := newAgent token serial notAfter req
  let row := ((db.agents.find token.subject).map (reEnrolled agent)).getD agent
  have written : row.certificateSerial = serial ∧ row.status = .active := by
    simp only [row]
    cases db.agents.find token.subject <;> exact ⟨rfl, rfl⟩
  refine ledger_write ledger row (fun k => ?_) rfl ?_ (fun k other h same => ?_)
    (consumed_kept db tokenId subject) (fun id issued => ?_)
  · exact KeyedTable.find_upsert db.agents agent (reEnrolled agent) (reEnrolled_agentId agent) k
  · rw [Agrees, written.2]
    exact ⟨rfl, written.1.symm⟩
  · exact free_of_serialFree free h (same.trans written.1)
  · simp only [issuedUnder, decide_true, Bool.true_and, decide_eq_true_eq, Option.some.injEq] at issued
    subst issued
    refine ⟨fun e he => ?_, _, marked, rfl⟩
    by_contra before
    obtain ⟨token', found', used⟩ := ledger.used e he tokenId (by simpa using before)
    rw [found] at found'
    cases found'
    rw [unused] at used
    cases used

theorem renewed_ledger {db db' : Database} {agentId : String} {row : AgentRow}
    {serial notAfter : String} (ledger : CertificateLedger db)
    (renewal : RenewedBy db agentId row serial notAfter db') : CertificateLedger db' := by
  rw [renewal.written]
  refine ledger_write ledger (renewed serial notAfter row) (fun k => ?_) rfl ?_
    (fun k other h same => free_of_serialFree renewal.free h same)
    (fun _ token h used => ⟨token, h, used⟩) (fun id issued => ?_)
  · rw [KeyedTable.find_update, renewal.found]
    rfl
  · have active : (renewed serial notAfter row).status = .active := renewal.active
    rw [Agrees, active]
    exact ⟨rfl, rfl⟩
  · cases issued

theorem revoked_ledger {db : Database} {agentId : String} {row : AgentRow} (reason : String)
    (ledger : CertificateLedger db) (found : db.agents.find agentId = some row) :
    CertificateLedger { db with
      agents := db.agents.update agentId (revoked reason) (revoked_agentId reason)
      history := db.history ++
        [⟨agentId, row.certificateSerial, .revoked, reason, row.role, none⟩] } := by
  refine ledger_write ledger (revoked reason row) (fun k => ?_) rfl rfl
    (fun k other h same => ledger.serials k agentId other row h found same)
    (fun _ token h used => ⟨token, h, used⟩) (fun id issued => ?_)
  · rw [KeyedTable.find_update, found]
    rfl
  · cases issued

theorem inserted_kept {db : Database} {tokens : KeyedTable TokenRow.tokenId} {token : TokenRow}
    (inserted : db.tokens.insert token = some tokens) : TokensKept db { db with tokens } := by
  intro id old found used
  have fresh := (KeyedTable.insert_eq_some inserted).1
  have other : token.tokenId ≠ id := by
    intro same
    rw [same] at fresh
    exact fresh (db.tokens.key_of_find found ▸ List.mem_map_of_mem (db.tokens.mem_of_find found))
  refine ⟨old, ?_, used⟩
  rw [KeyedTable.find_insert inserted, if_neg other]
  exact found

theorem settle_cases {α : Type} (db : Database) (outcome : Except Failure (Database × α)) :
    (∃ failure, settle db outcome = (db, .error failure)) ∨
      ∃ after a, outcome = .ok (after, a) ∧ settle db outcome = (after, .ok a) := by
  cases outcome with
  | error failure => exact .inl ⟨failure, rfl⟩
  | ok r => exact .inr ⟨r.1, r.2, rfl, rfl⟩

theorem unadmitted_ledger {db db' : Database} (ledger : CertificateLedger db)
    (unadmitted : Unadmitted db db') : CertificateLedger db' := by
  obtain rfl | ⟨tokenId, subject, rfl⟩ := unadmitted
  · exact ledger
  · exact ledger_tokens ledger rfl rfl (consumed_kept db tokenId subject)

theorem step_ledger (cfg : Config) (db : Database) (call : Call) (ledger : CertificateLedger db) :
    CertificateLedger (step cfg db call) := by
  cases call with
  | createEnrollmentToken req =>
    simp only [step]
    obtain ⟨failure, raised⟩ | ⟨after, a, done, returned⟩ := settle_cases db (insertToken db req)
    · rw [raised]
      exact ledger
    · obtain ⟨tokens, token, inserted, rfl⟩ := insertToken_eq_ok done
      rw [returned]
      exact ledger_tokens ledger rfl rfl (inserted_kept inserted)
  | enroll req =>
    obtain ⟨-, unadmitted⟩ | ⟨jti, subject, tokenId, token, certificate, serial, result, passes, -⟩ :=
      enrollAgent_cases cfg db req
    · exact unadmitted_ledger ledger unadmitted
    · obtain ⟨sub, -, taken⟩ := passes.presented
      obtain ⟨found, unused⟩ := consumeToken_eq_ok taken
      simp only [step, enrollAgent_passes passes]
      exact admitted_ledger ledger found unused jti subject passes.free _
  | renew req =>
    simp only [step]
    obtain ⟨failure, raised⟩ | ⟨after, a, done, returned⟩ := settle_cases db (renewAgent cfg db req)
    · rw [raised]
      exact ledger
    · obtain ⟨row, serial, notAfter, renewal⟩ := renewAgent_eq_ok done
      rw [returned]
      exact renewed_ledger ledger renewal
  | revoke req =>
    simp only [step]
    obtain same | ⟨row, found, -, written⟩ := revokeAgent_cases db req
    · rw [same]
      exact ledger
    · rw [written]
      exact revoked_ledger req.reason ledger found

theorem isAgentActive_iff {db : Database} (ledger : CertificateLedger db) (serial : String) :
    isAgentActive db serial = true ↔ ∃ agentId row, db.agents.find agentId = some row ∧
      row.certificateSerial = serial ∧ row.status = .active := by
  unfold isAgentActive
  constructor
  · intro h
    obtain ⟨row, found, active⟩ := (Option.any_eq_true _ _).mp h
    refine ⟨row.agentId, row, db.agents.find_of_mem (List.mem_of_find?_eq_some found), ?_, ?_⟩
    · simpa using List.find?_some found
    · simpa using active
  · rintro ⟨agentId, row, found, same, active⟩
    cases first : db.agents.rows.find? fun r => decide (r.certificateSerial = serial) with
    | none =>
      have := List.find?_eq_none.mp first row (db.agents.mem_of_find found)
      simp [same] at this
    | some row' =>
      have there := db.agents.find_of_mem (List.mem_of_find?_eq_some first)
      have serial' : row'.certificateSerial = serial := by simpa using List.find?_some first
      have here := ledger.serials _ _ _ _ there found (serial'.trans same.symm)
      rw [here, found] at there
      cases there
      simp [active]

theorem historyAdmits_iff {db : Database} (serial : String) :
    HistoryAdmits db serial ↔ ∃ agentId before entry,
      historyOf db agentId = before ++ [entry] ∧ isIssue entry = true ∧
        entry.certificateSerial = serial := by
  constructor
  · rintro ⟨agentId, before, entry, after, split, issue, same, noIssue, noRevoke⟩
    cases after with
    | nil => exact ⟨agentId, before, entry, split, issue, same⟩
    | cons e rest =>
      have first := noIssue e List.mem_cons_self
      have second := noRevoke e List.mem_cons_self
      cases action : e.action <;> simp_all [isIssue]
  · rintro ⟨agentId, before, entry, split, issue, same⟩
    exact ⟨agentId, before, entry, [], split, issue, same, by simp, by simp⟩

theorem ledger_admission {db : Database} (ledger : CertificateLedger db) (serial : String) :
    isAgentActive db serial = true ↔ HistoryAdmits db serial := by
  rw [isAgentActive_iff ledger, historyAdmits_iff]
  constructor
  · rintro ⟨agentId, row, found, same, active⟩
    obtain ⟨before, entry, split, agrees⟩ := ledger.last agentId row found
    rw [Agrees, active] at agrees
    exact ⟨agentId, before, entry, split, agrees.1, agrees.2.trans same⟩
  · rintro ⟨agentId, before, entry, split, issue, same⟩
    cases found : db.agents.find agentId with
    | none =>
      rw [ledger.absent agentId found] at split
      simp at split
    | some row =>
      obtain ⟨before', entry', split', agrees⟩ := ledger.last agentId row found
      rw [split] at split'
      obtain ⟨-, equal⟩ := List.append_inj' split' rfl
      cases equal
      cases status : row.status with
      | active =>
        rw [Agrees, status] at agrees
        exact ⟨agentId, row, found, agrees.2.symm.trans same, status⟩
      | revoked =>
        rw [Agrees, status] at agrees
        simp [isIssue, agrees] at issue

def raised (cfg : Config) (db : Database) : Call → Option Failure
  | .createEnrollmentToken req => failureOf (settle db (insertToken db req)).2
  | .enroll req => failureOf (enrollAgent cfg db req).2
  | .renew req => failureOf (settle db (renewAgent cfg db req)).2
  | .revoke req => failureOf (revokeAgent db req).2
where
  failureOf {α : Type} : Except Failure α → Option Failure
    | .ok _ => none
    | .error failure => some failure

theorem failed_admission {cfg : Config} {db : Database} {call : Call} {failure : Failure}
    (failed : raised cfg db call = some failure) (kind : ∀ req, call ≠ .revoke req)
    (serial : String) : isAgentActive (step cfg db call) serial = isAgentActive db serial := by
  cases call with
  | createEnrollmentToken req =>
    simp only [step, raised] at failed ⊢
    obtain ⟨f, raised⟩ | ⟨after, a, done, returned⟩ := settle_cases db (insertToken db req)
    · rw [raised]
    · rw [returned] at failed
      cases failed
  | enroll req =>
    simp only [step, raised] at failed ⊢
    obtain ⟨-, same | ⟨tokenId, subject, written⟩⟩ | ⟨-, -, -, -, -, -, result, -, ok⟩ :=
      enrollAgent_cases cfg db req
    · rw [same]
    · rw [written]
      rfl
    · rw [ok] at failed
      cases failed
  | renew req =>
    simp only [step, raised] at failed ⊢
    obtain ⟨f, raised⟩ | ⟨after, a, done, returned⟩ := settle_cases db (renewAgent cfg db req)
    · rw [raised]
    · rw [returned] at failed
      cases failed
  | revoke req => exact absurd rfl (kind req)

/-- Certificate admission over every sequence of calls, failing anywhere. -/
theorem certificate_admission (cfg : Config) (db₀ : Database) (calls : List Call) :
    let db := EventRun.run (step cfg) (unenrolled db₀) calls
    (∀ serial, isAgentActive db serial = true ↔ HistoryAdmits db serial) ∧
    (∀ tokenId, db.history.countP (issuedUnder tokenId) ≤ 1) ∧
    (∀ call failure, raised cfg db call = some failure → (∀ req, call ≠ .revoke req) →
      ∀ serial, isAgentActive (step cfg db call) serial = isAgentActive db serial) := by
  intro db
  have ledger : CertificateLedger db :=
    EventRun.run_invariant (step_ledger cfg) (unenrolled_ledger db₀) calls
  exact ⟨ledger_admission ledger, ledger.once,
    fun call failure failed kind serial => failed_admission failed kind serial⟩

end Mirage.AgentEnrollment
