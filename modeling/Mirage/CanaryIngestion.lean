import Mirage.Canary

/-! The endpoint `ingest_canary_callback` of prompt2.py. It selects the sources
that are valid at the time of the callback, so the classifier never sees a stale
record, and an address is compared in the IP family it is written in. -/

namespace Mirage.CanaryIngestion
open PythonText Raw IpAddress Canary

/-- What `datetime.fromisoformat` returns: a point of time, or one without an offset. -/
inductive CallbackTime (τ : Type) where
  | aware (at_ : τ)
  | naive

inductive Usage where
  | oneTime
  | reusable
  deriving DecidableEq

inductive TokenStatus where
  | active
  | used
  | expired
  | revoked
  deriving DecidableEq

structure CanaryToken (τ : Type) where
  tokenId : Text
  publicTokenHash : Text
  caseId : Text
  artifactId : Text
  expiresAt : τ
  revokedAt : Option τ
  expectedUsage : Usage
  status : TokenStatus
  classificationStatus : Option Classification

/-- The columns of canary_callbacks that the attribution decides, and those the
row is known by. -/
structure CanaryCallback (τ : Type) where
  tokenId : Text
  callbackTime : τ
  sourceIp : Text
  collectorRequestId : Option Raw
  attribution : CallbackClassification
  evidenceId : Text

structure CallbackEvent (τ : Type) where
  tokenId : Text
  callbackTime : τ
  sourceIp : Text
  classification : Classification
  confidence : ℚ
  ruleVersion : String

structure EvidenceMetadata where
  tokenId : Text
  artifactId : Text
  classification : Classification
  ruleVersion : String

structure Database (τ : Type) where
  canaryTokens : List (CanaryToken τ)
  infrastructureSources : List (InfrastructureSource τ)
  canaryCallbacks : List (CanaryCallback τ)
  outboxEvents : List (CallbackEvent τ)
  evidenceObjects : List EvidenceMetadata
  /-- The details of the entries `canary.callback.classified`. -/
  auditEvents : List (Classification × String)

structure SignedCallback where
  payload : List (Text × Raw)
  signature : Text
  sized : signature.length = 64

/-- What is outside of the endpoint: hashing, `datetime`, the evidence service
and the checks of the database on the row and what follows it. -/
structure Services (τ : Type) where
  /-- `hmac.new(canary_signing_key, bytes, sha256).hexdigest()`. -/
  hmacHex : ByteArray → Text
  sha256Hex : ByteArray → Text
  fromIsoformat : Text → Option (CallbackTime τ)
  printable : CodePoint → Bool
  acquire : SignedCallback → EvidenceMetadata → Except Raised Text
  writes : SignedCallback → CanaryCallback τ → Except Raised Unit

inductive Refusal where
  | http (status : ℕ) (detail : String)
  /-- 410, and the status EXPIRED of the token is committed. -/
  | expired (tokenId : Text)
  | raised (exc : Raised)

structure Response where
  classification : Classification
  evidenceId : Text

section
variable {τ : Type} [LinearOrder τ] (services : Services τ)

def ascii (t : Text) : Bool := t.all fun p => p.val < 128

def compareDigest (a b : Text) : Except Refusal Bool :=
  if ascii a && ascii b then .ok (a = b) else .error (.raised .typeError)

def textOf (payload : List (Text × Raw)) (name : String) : Text :=
  strOf services.printable ((member (text name) payload).getD (.str []))

def forwardedFor (payload : List (Text × Raw)) : Option Text :=
  match member (text "forwarded_for") payload with
  | none => none
  | some value =>
    if !value.isTrue then none
    else if strOf services.printable value = [] then none
    else some (strOf services.printable value)

/-- Whether this is the `collector_request_id` of a callback; only a text or NULL is
compared with the column. -/
def replayed (db : Database τ) : Option Raw → Except Refusal Bool
  | none => .ok false
  | some .null => .ok false
  | some (.str t) => .ok (db.canaryCallbacks.any fun row => isText t row.collectorRequestId)
  | some _ => .error (.raised .typeError)
where
  isText (t : Text) : Option Raw → Bool
    | some (.str s) => s = t
    | _ => false

def signed (body : SignedCallback) (signatureHeader : Text) : Except Refusal (CallbackTime τ) := do
  let bytes ← (canonicalJsonBytes (.obj body.payload)).elim (.error (.raised .unicodeEncodeError)) .ok
  let genuine ← compareDigest (services.hmacHex bytes) body.signature
  if !genuine then .error (.http 401 "callback signature invalid")
  else
    let same ← compareDigest body.signature signatureHeader
    if !same then .error (.http 401 "callback signature invalid")
    else
      match member (text "callback_time") body.payload with
      | none => .error (.http 400 "invalid callback time")
      | some value =>
        -- str.replace("Z", "+00:00")
        let written := (strOf services.printable value).flatMap fun p =>
          if p = ofChar 'Z' then text "+00:00" else [p]
        (services.fromIsoformat written).elim (.error (.http 400 "invalid callback time")) .ok

def usableToken (db : Database τ) (body : SignedCallback) (time : CallbackTime τ) :
    Except Refusal (CanaryToken τ × τ) := do
  let bytes ← (encodeUtf8 (textOf services body.payload "public_token")).elim
    (.error (.raised .unicodeEncodeError)) .ok
  match db.canaryTokens.find? fun token => token.publicTokenHash = services.sha256Hex bytes with
  | none => .error (.http 404 "unknown canary token")
  | some token =>
    if token.revokedAt.isSome || token.status = .revoked then .error (.http 410 "canary token revoked")
    else
      match time with
      | .naive => .error (.raised .typeError)
      | .aware at_ =>
        if token.expiresAt ≤ at_ || token.status = .expired then .error (.expired token.tokenId)
        else
          let again ← replayed db (member (text "collector_request_id") body.payload)
          if again then .error (.http 409 "callback replay detected")
          else if token.expectedUsage = .oneTime && token.status = .used then
            .error (.http 409 "one-time token replay detected")
          else .ok (token, at_)

def admitted (db : Database τ) (body : SignedCallback) (signatureHeader : Text) :
    Except Refusal (CanaryToken τ × τ) := do
  let time ← signed services body signatureHeader
  usableToken services db body time

/-- `WHERE valid_from <= %s AND (valid_until IS NULL OR valid_until > %s)`. -/
def selectedSources (db : Database τ) (at_ : τ) : List (InfrastructureSource τ) :=
  db.infrastructureSources.filter fun row =>
    row.validFrom ≤ at_ && row.validUntil.all fun until_ => until_ > at_

def resolved (db : Database τ) (body : SignedCallback) (at_ : τ) : Except Raised (Text × Bool) :=
  resolveCallbackSource (textOf services body.payload "source_ip") (forwardedFor services body.payload) at_
    (selectedSources db at_)

def metadataOf (token : CanaryToken τ) (c : CallbackClassification) : EvidenceMetadata :=
  ⟨token.tokenId, token.artifactId, c.classification, c.ruleVersion⟩

def rowOf (body : SignedCallback) (token : CanaryToken τ) (at_ : τ) (resolvedIp : Text)
    (c : CallbackClassification) (evidenceId : Text) : CanaryCallback τ :=
  ⟨token.tokenId, at_, resolvedIp, member (text "collector_request_id") body.payload, c, evidenceId⟩

def eventOf (row : CanaryCallback τ) : CallbackEvent τ :=
  ⟨row.tokenId, row.callbackTime, row.sourceIp, row.attribution.classification, row.attribution.confidence,
    row.attribution.ruleVersion⟩

def updateToken (tokens : List (CanaryToken τ)) (tokenId : Text) (f : CanaryToken τ → CanaryToken τ) :
    List (CanaryToken τ) := tokens.map fun token => if token.tokenId = tokenId then f token else token

def committed (db : Database τ) (token : CanaryToken τ) (metadata : EvidenceMetadata) (row : CanaryCallback τ) :
    Database τ :=
  { db with
    canaryTokens := updateToken db.canaryTokens token.tokenId fun t =>
      { t with
        status := if token.expectedUsage = .oneTime then .used else t.status
        classificationStatus := some row.attribution.classification }
    canaryCallbacks := row :: db.canaryCallbacks
    outboxEvents := eventOf row :: db.outboxEvents
    evidenceObjects := metadata :: db.evidenceObjects
    auditEvents := (row.attribution.classification, row.attribution.ruleVersion) :: db.auditEvents }

def ingest (db : Database τ) (body : SignedCallback) (token : CanaryToken τ) (at_ : τ) :
    Except Refusal (Database τ × Response) := do
  let (resolvedIp, conflict) ← (resolved services db body at_).mapError .raised
  let c := classifyCallback resolvedIp at_ (selectedSources db at_) conflict
  let metadata := metadataOf token c
  let evidenceId ← (services.acquire body metadata).mapError .raised
  let row := rowOf body token at_ resolvedIp c evidenceId
  (services.writes body row).mapError .raised
  return (committed db token metadata row, ⟨c.classification, evidenceId⟩)

/-- `ingest_canary_callback`: the database afterwards and the answer. -/
def ingestCanaryCallback (db : Database τ) (body : SignedCallback) (signatureHeader : Text) :
    Database τ × Except Refusal Response :=
  match (do
      let (token, at_) ← admitted services db body signatureHeader
      ingest services db body token at_) with
  | .ok (after, response) => (after, .ok response)
  | .error (.expired tokenId) =>
    ({ db with
        canaryTokens := updateToken db.canaryTokens tokenId fun t => { t with status := .expired } },
      .error (.expired tokenId))
  | .error refusal => (db, .error refusal)

def ipv4Mapped (ip : BitVec 32) : BitVec 128 := 0xFFFF#128 <<< 32 ||| ip.setWidth 128

def forms : Address → List Address
  | .v4 ip => [.v4 ip, .v6 (ipv4Mapped ip) none]
  | .v6 ip scope =>
    if ip >>> 32 = 0xFFFF#128 then [.v6 ip scope, .v4 (ip.setWidth 32)] else [.v6 ip scope]

def Covered (db : Database τ) (sourceIp : Text) : Prop :=
  ∃ address, ipAddress sourceIp = some address ∧
    ∃ row ∈ db.infrastructureSources, ∃ form ∈ forms address, row.contains form = true

structure NotExternal (db after : Database τ) (answer : Except Refusal Response) (row : CanaryCallback τ) : Prop where
  stored : row.attribution.classification ≠ .externalCallback
  unlocated : row.attribution.networkIndicator = none
  published : ∀ event, after.outboxEvents = event :: db.outboxEvents → event.classification ≠ .externalCallback
  evidence : ∀ metadata, after.evidenceObjects = metadata :: db.evidenceObjects →
    metadata.classification ≠ .externalCallback
  audited : ∀ entry, after.auditEvents = entry :: db.auditEvents → entry.1 ≠ .externalCallback
  answered : ∀ response, answer = .ok response → response.classification ≠ .externalCallback

def KeptInside (db : Database τ) (body : SignedCallback) (signatureHeader : Text) : Prop :=
  ∀ after answer row, ingestCanaryCallback services db body signatureHeader = (after, answer) →
    after.canaryCallbacks = row :: db.canaryCallbacks → Covered db row.sourceIp →
    NotExternal db after answer row

def Unmatched (db : Database τ) (at_ : τ) (sourceIp : Text) : Prop :=
  ∃ address, ipAddress sourceIp = some address ∧
    ∀ row ∈ db.infrastructureSources, row.validAt at_ = true → row.contains address = false

def external (address : Address) : CallbackClassification where
  classification := .externalCallback
  confidence := 3 / 4
  networkIndicator := some (str address)
  uncertainty := "network indicator only; VPN, proxy, NAT, and shared-network uncertainty applies"
  analystReviewRequired := false

/-- The callback passes the checks without a dispute, its address is in the range of a row,
but in none that is valid at the time and of the family in which it is written, and
nothing fails to be written. -/
def Overlooked (db : Database τ) (body : SignedCallback) (signatureHeader : Text) : Prop :=
  ∃ token at_ sourceIp address evidenceId, admitted services db body signatureHeader = .ok (token, at_) ∧
    resolved services db body at_ = .ok (sourceIp, false) ∧ ipAddress sourceIp = some address ∧
    Covered db sourceIp ∧ Unmatched db at_ sourceIp ∧
    services.acquire body (metadataOf token (external address)) = .ok evidenceId ∧
    services.writes body (rowOf body token at_ sourceIp (external address) evidenceId) = .ok ()

theorem ingest_eq_ok {db after : Database τ} {body : SignedCallback} {token : CanaryToken τ} {at_ : τ}
    {response : Response} :
    ingest services db body token at_ = .ok (after, response) ↔
      ∃ sourceIp conflict evidenceId c, resolved services db body at_ = .ok (sourceIp, conflict) ∧
        c = classifyCallback sourceIp at_ (selectedSources db at_) conflict ∧
        services.acquire body (metadataOf token c) = .ok evidenceId ∧
        services.writes body (rowOf body token at_ sourceIp c evidenceId) = .ok () ∧
        after = committed db token (metadataOf token c) (rowOf body token at_ sourceIp c evidenceId) ∧
        response = ⟨c.classification, evidenceId⟩ := by
  unfold ingest
  cases source : resolved services db body at_ with
  | error exc => exact ⟨fun done => (nomatch done), fun ⟨_, _, _, _, done, _⟩ => (nomatch done)⟩
  | ok pair =>
    obtain ⟨ip, disputed⟩ := pair
    simp only [Except.mapError, bind, Except.bind, pure, Except.pure]
    cases kept : services.acquire body
        (metadataOf token (classifyCallback ip at_ (selectedSources db at_) disputed)) with
    | error exc =>
      refine ⟨fun done => (nomatch done), ?_⟩
      rintro ⟨_, _, _, _, same, rfl, acquired, _⟩
      cases same
      rw [kept] at acquired
      cases acquired
    | ok evidenceId =>
      simp only
      cases written : services.writes body (rowOf body token at_ ip
          (classifyCallback ip at_ (selectedSources db at_) disputed) evidenceId) with
      | error exc =>
        refine ⟨fun done => (nomatch done), ?_⟩
        rintro ⟨_, _, _, _, same, rfl, acquired, accepted, _⟩
        cases same
        rw [kept] at acquired
        cases acquired
        rw [written] at accepted
        cases accepted
      | ok =>
        constructor
        · intro done
          cases done
          exact ⟨ip, disputed, evidenceId, _, rfl, rfl, kept, written, rfl, rfl⟩
        · rintro ⟨_, _, _, _, same, rfl, acquired, _, rfl, rfl⟩
          cases same
          rw [kept] at acquired
          cases acquired
          rfl

theorem ingestCanaryCallback_cases (db : Database τ) (body : SignedCallback) (signatureHeader : Text) :
    (ingestCanaryCallback services db body signatureHeader).1.canaryCallbacks = db.canaryCallbacks ∨
    ∃ token at_ after response, admitted services db body signatureHeader = .ok (token, at_) ∧
      ingest services db body token at_ = .ok (after, response) ∧
      ingestCanaryCallback services db body signatureHeader = (after, .ok response) := by
  unfold ingestCanaryCallback
  cases checked : admitted services db body signatureHeader with
  | error refusal => cases refusal <;> exact .inl rfl
  | ok pair =>
    obtain ⟨token, at_⟩ := pair
    simp only [bind, Except.bind]
    cases done : ingest services db body token at_ with
    | error refusal => cases refusal <;> exact .inl rfl
    | ok result => exact .inr ⟨token, at_, result.1, result.2, rfl, done, rfl⟩

theorem ingestCanaryCallback_ok {db after : Database τ} {body : SignedCallback} {signatureHeader : Text}
    {token : CanaryToken τ} {at_ : τ} {response : Response}
    (checked : admitted services db body signatureHeader = .ok (token, at_))
    (done : ingest services db body token at_ = .ok (after, response)) :
    ingestCanaryCallback services db body signatureHeader = (after, .ok response) := by
  unfold ingestCanaryCallback
  rw [checked]
  simp only [bind, Except.bind]
  rw [done]

theorem mem_selectedSources {db : Database τ} {at_ : τ} {row : InfrastructureSource τ} :
    row ∈ selectedSources db at_ ↔ row ∈ db.infrastructureSources ∧ row.validAt at_ = true := List.mem_filter

theorem classify_selected_iff (db : Database τ) (at_ : τ) (sourceIp : Text) (conflict : Bool) :
    (classifyCallback sourceIp at_ (selectedSources db at_) conflict).classification = .externalCallback ↔
      conflict = false ∧ Unmatched db at_ sourceIp := by
  rw [classify_external_iff]
  simp only [mem_selectedSources, and_imp, Unmatched]

theorem classify_eq_external {at_ : τ} {sourceIp : Text} {sources : List (InfrastructureSource τ)} {conflict : Bool}
    (outside : (classifyCallback sourceIp at_ sources conflict).classification = .externalCallback) :
    ∃ address, ipAddress sourceIp = some address ∧
      classifyCallback sourceIp at_ sources conflict = external address := by
  unfold classifyCallback at outside ⊢
  cases parsed : ipAddress sourceIp with
  | none =>
    rw [parsed] at outside
    cases outside
  | some address =>
    rw [parsed] at outside
    simp only at outside ⊢
    split_ifs at outside ⊢
    exact ⟨address, rfl, rfl⟩

theorem notExternal_iff (db : Database τ) (token : CanaryToken τ) (body : SignedCallback) (at_ : τ) (sourceIp : Text)
    (sources : List (InfrastructureSource τ)) (conflict : Bool) (c : CallbackClassification) (evidenceId : Text)
    (classified : c = classifyCallback sourceIp at_ sources conflict) :
    NotExternal db (committed db token (metadataOf token c) (rowOf body token at_ sourceIp c evidenceId))
        (.ok ⟨c.classification, evidenceId⟩) (rowOf body token at_ sourceIp c evidenceId) ↔
      c.classification ≠ .externalCallback := by
  constructor
  · exact fun inside => inside.stored
  · intro inside
    constructor
    · exact inside
    · rw [← Option.not_isSome_iff_eq_none, rowOf, classified, classify_indicator, ← classified]
      exact inside
    · intro event same
      rw [← (List.cons.inj same).1]
      exact inside
    · intro metadata same
      rw [← (List.cons.inj same).1]
      exact inside
    · intro entry same
      rw [← (List.cons.inj same).1]
      exact inside
    · intro response same
      cases same
      exact inside

theorem not_keptInside {db : Database τ} {body : SignedCallback} {signatureHeader : Text}
    (overlooked : Overlooked services db body signatureHeader) : ¬KeptInside services db body signatureHeader := by
  intro kept
  obtain ⟨token, at_, sourceIp, address, evidenceId, checked, source, parsed, covered, unmatched,
    acquired, accepted⟩ := overlooked
  have outside : (classifyCallback sourceIp at_ (selectedSources db at_) false).classification =
      .externalCallback := (classify_selected_iff db at_ sourceIp false).mpr ⟨rfl, unmatched⟩
  obtain ⟨other, parsed', classified⟩ := classify_eq_external outside
  rw [parsed] at parsed'
  cases parsed'
  have done := (ingest_eq_ok services).mpr
    ⟨sourceIp, false, evidenceId, external address, source, classified.symm, acquired, accepted, rfl, rfl⟩
  exact (kept _ _ _ (ingestCanaryCallback_ok services checked done) rfl covered).stored rfl

/-- Infrastructure is kept inside unless it is overlooked: its records are stale, or of
the other family. -/
theorem keptInside_iff (db : Database τ) (body : SignedCallback) (signatureHeader : Text) :
    KeptInside services db body signatureHeader ↔ ¬Overlooked services db body signatureHeader := by
  constructor
  · exact fun kept overlooked => not_keptInside services overlooked kept
  · intro noticed after answer row ended added covered
    rcases ingestCanaryCallback_cases services db body signatureHeader with unchanged |
      ⟨token, at_, after', response, checked, done, ended'⟩
    · rw [ended] at unchanged
      rw [unchanged] at added
      exact absurd (congrArg List.length added) (by rw [List.length_cons]; omega)
    · rw [ended] at ended'
      cases ended'
      obtain ⟨sourceIp, conflict, evidenceId, c, source, classified, acquired, accepted, rfl, rfl⟩ :=
        (ingest_eq_ok services).mp done
      cases added
      rw [notExternal_iff db token body at_ sourceIp _ conflict c evidenceId classified]
      intro outside
      rw [classified] at outside
      obtain ⟨calm, unmatched⟩ := (classify_selected_iff db at_ sourceIp conflict).mp outside
      obtain ⟨address, parsed, same⟩ := classify_eq_external outside
      rw [← classified] at same
      rw [same] at acquired accepted
      rw [calm] at source
      exact noticed ⟨token, at_, sourceIp, address, evidenceId, checked, source, parsed, covered, unmatched,
        acquired, accepted⟩

end

/-! A callback from an address of a sandbox that has been torn down. -/

def quietServices : Services ℕ where
  hmacHex _ := List.replicate 64 (ofChar '0')
  sha256Hex _ := List.replicate 64 (ofChar '0')
  fromIsoformat t := if t = text "2026-07-26T00:00:00+00:00" then some (.aware 10) else none
  printable _ := true
  acquire _ _ := .ok []
  writes _ _ := .ok ()

def sandboxToken : CanaryToken ℕ where
  tokenId := []
  publicTokenHash := List.replicate 64 (ofChar '0')
  caseId := []
  artifactId := []
  expiresAt := 20
  revokedAt := none
  expectedUsage := .oneTime
  status := .active
  classificationStatus := none

def sandboxRange : InfrastructureSource ℕ where
  sourceId := "sandbox"
  cidr := .v4 0x0A000000#32 8
  category := "SANDBOX_ENI"
  validFrom := 0
  validUntil := some 5
  confidence := 1
  trustedProxy := false

def tornDown : Database ℕ where
  canaryTokens := [sandboxToken]
  infrastructureSources := [sandboxRange]
  canaryCallbacks := []
  outboxEvents := []
  evidenceObjects := []
  auditEvents := []

def lateCallback : SignedCallback where
  payload :=
    [(text "callback_time", .str (text "2026-07-26T00:00:00Z")), (text "public_token", .str (text "token")),
      (text "collector_request_id", .str (text "request")), (text "source_ip", .str (text "10.1.2.3"))]
  signature := List.replicate 64 (ofChar '0')
  sized := rfl

theorem sandbox_overlooked :
    ¬KeptInside quietServices tornDown lateCallback (List.replicate 64 (ofChar '0')) := by
  apply not_keptInside
  have parsed : ipAddress (text "10.1.2.3") = some (.v4 0x0A010203#32) := by decide
  refine ⟨sandboxToken, 10, text "10.1.2.3", .v4 0x0A010203#32, [], ?_, ?_, parsed, ?_, ?_, rfl, rfl⟩
  · rfl
  · rfl
  · exact ⟨_, parsed, sandboxRange, List.mem_cons_self, .v4 0x0A010203#32, by decide, by decide⟩
  · refine ⟨_, parsed, fun row mem valid => ?_⟩
    rw [List.mem_singleton.mp mem] at valid
    cases valid

end Mirage.CanaryIngestion
