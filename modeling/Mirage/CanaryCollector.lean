import Mirage.AsciiJson
import Mirage.OrderedJson
import Mirage.CanaryIngestion

/-! The collector of canary callbacks, and what the endpoint makes of its signatures. -/

namespace Mirage.CanaryCollector
open PythonText Raw JsonLoads AsciiJson CanaryIngestion
open CanonicalInjective (same wellFormed)

/-! The event, as far as the handler reads it. -/

structure Http where
  sourceIp : Option String
  path : Option String
  method : Option String

structure RequestContext where
  http : Option Http
  domainPrefix : Option String
  requestId : Option String

structure Event where
  requestContext : Option RequestContext
  headers : Option (List (String × String))
  /-- The entry `token` of `pathParameters`. -/
  token : Option String
  rawPath : Option String

structure Moment where
  year : ℕ
  month : ℕ
  day : ℕ
  hour : ℕ
  minute : ℕ
  second : ℕ
  microsecond : ℕ

def pad (width n : ℕ) : Text := List.replicate (width - (text n.repr).length) (ofChar '0') ++ text n.repr

def isoformat (m : Moment) : Text :=
  pad 4 m.year ++ text "-" ++ pad 2 m.month ++ text "-" ++ pad 2 m.day ++ text "T" ++ pad 2 m.hour ++ text ":" ++
    pad 2 m.minute ++ text ":" ++ pad 2 m.second ++
    (if m.microsecond = 0 then [] else text "." ++ pad 6 m.microsecond) ++ text "Z"

/-- What the handler has from its surroundings: `str.lower`, the request id of the context and the clock. -/
structure Surroundings where
  lower : String → String
  awsRequestId : String
  now : Moment

section
variable (around : Surroundings) (event : Event)

def requestContext : RequestContext := event.requestContext.getD ⟨none, none, none⟩

def http : Http := (requestContext event).http.getD ⟨none, none, none⟩

def header (name : String) : Text :=
  (((event.headers.getD []).reverse.find? fun h => around.lower h.1 = name).elim [] fun h => text h.2).take 2048

def token : Text := text (event.token.getD "")

def sourceIp : Text := (text ((http event).sourceIp.getD "")).take 64

def forwardedFor : Text := (header around event "x-forwarded-for").take 2048

def userAgent : Text := (header around event "user-agent").take 1024

def requestPath : Text := (text ((http event).path.getD (event.rawPath.getD ""))).take 2048

def referrer : Text := (header around event "referer").take 2048

def httpMethod : Text := (text ((http event).method.getD "GET")).take 16

def collectorRequestId : Text := text ((requestContext event).requestId.getD around.awsRequestId)

def protocol : Text := text ((requestContext event).domainPrefix.getD "")

def payload : List (Text × Raw) :=
  [(text "public_token", .str (token event)),
    (text "callback_time", .str (isoformat around.now)),
    (text "source_ip", .str (sourceIp event)),
    (text "forwarded_for", .str (forwardedFor around event)),
    (text "user_agent", .str (userAgent around event)),
    (text "request_path", .str (requestPath event)),
    (text "referrer", .str (referrer around event)),
    (text "http_method", .str (httpMethod event)),
    (text "tls_metadata", .obj
      [(text "protocol", ((requestContext event).domainPrefix.elim .null fun name => .str (text name))),
        (text "source", .str (text "API_GATEWAY_V2"))]),
    (text "collector_request_id", .str (collectorRequestId around event))]

structure Posted where
  body : ByteArray
  signatureHeader : Text

def signedBytes : ByteArray := asciiBytes (.obj (payload around event))

def signedBody (signature : Text) : Raw :=
  .obj [(text "payload", .obj (payload around event)), (text "signature", .str signature)]

def signedRequest (hmacHex : ByteArray → Text) : Posted where
  body := asciiBytes (signedBody around event (hmacHex (signedBytes around event)))
  signatureHeader := hmacHex (signedBytes around event)

def handler (hmacHex : ByteArray → Text) : Option Posted :=
  if 20 ≤ (token event).length ∧ (token event).length ≤ 256 then some (signedRequest around event hmacHex) else none

def eventTexts : List Text :=
  [token event, sourceIp event, forwardedFor around event, userAgent around event, requestPath event,
    referrer around event, httpMethod event, protocol event, collectorRequestId around event]

end

def parseRequest (py : Interpreter) (body : ByteArray) : Option SignedCallback :=
  match loads py body with
  | .ok (.obj members) =>
    match member (text "payload") members, member (text "signature") members with
    | some (.obj payload), some (.str signature) =>
      if sized : signature.length = 64 then
        if members.length = 2 then some ⟨payload, signature, sized⟩ else none
      else none
    | _, _ => none
  | _ => none

section
variable {τ : Type} (services : Services τ)

def Accepts (body : SignedCallback) (signatureHeader : Text) : Prop :=
  signed services body signatureHeader ≠ .error (.http 401 "callback signature invalid") ∧
    ∀ exc, signed services body signatureHeader ≠ .error (.raised exc)

def Hexdigest : Prop := ∀ bytes, (services.hmacHex bytes).length = 64 ∧ ascii (services.hmacHex bytes) = true

theorem accepts_iff {body : SignedCallback} {signatureHeader : Text} : Accepts services body signatureHeader ↔
    ∃ bytes, canonicalJsonBytes (.obj body.payload) = some bytes ∧
      compareDigest (services.hmacHex bytes) body.signature = .ok true ∧
      compareDigest body.signature signatureHeader = .ok true := by
  unfold Accepts signed
  cases written : canonicalJsonBytes (.obj body.payload) with
  | none =>
    constructor
    · rintro ⟨-, raised⟩
      exact absurd rfl (raised _)
    · rintro ⟨bytes, same, -⟩
      cases same
  | some bytes =>
    simp only [Option.elim, bind, Except.bind, Option.some.injEq, exists_eq_left']
    have compared (a b : Text) : (∃ exc, compareDigest a b = .error (.raised exc)) ∨ ∃ same, compareDigest a b = .ok same := by
      unfold compareDigest
      split
      · exact .inr ⟨_, rfl⟩
      · exact .inl ⟨_, rfl⟩
    obtain ⟨exc, genuine⟩ | ⟨genuine', genuine⟩ := compared (services.hmacHex bytes) body.signature
    · rw [genuine]
      constructor
      · rintro ⟨-, raised⟩
        exact absurd rfl (raised exc)
      · rintro ⟨same, -⟩
        cases same
    obtain ⟨exc, header⟩ | ⟨header', header⟩ := compared body.signature signatureHeader
    · rw [genuine, header]
      cases genuine' with
      | false =>
        constructor
        · rintro ⟨refused, -⟩
          exact absurd rfl refused
        · rintro ⟨same, -⟩
          cases same
      | true =>
        constructor
        · rintro ⟨-, raised⟩
          exact absurd rfl (raised exc)
        · rintro ⟨-, same⟩
          cases same
    · rw [genuine, header]
      cases genuine' with
      | false =>
        constructor
        · rintro ⟨refused, -⟩
          exact absurd rfl refused
        · rintro ⟨same, -⟩
          cases same
      | true =>
        cases header' with
        | false =>
          constructor
          · rintro ⟨refused, -⟩
            exact absurd rfl refused
          · rintro ⟨-, same⟩
            cases same
        | true =>
          refine ⟨fun _ => ⟨rfl, rfl⟩, fun _ => ?_⟩
          simp only [Bool.not_true, Bool.false_eq_true, if_false]
          cases member (text "callback_time") body.payload with
          | none => exact ⟨fun same => (by cases same), fun exc same => (by cases same)⟩
          | some value =>
            simp only
            cases services.fromIsoformat _ with
            | none => exact ⟨fun same => (by cases same), fun exc same => (by cases same)⟩
            | some time => exact ⟨fun same => (by cases same), fun exc same => (by cases same)⟩

end

section
variable (around : Surroundings) (event : Event)

theorem payload_formed : wellFormed (.obj (payload around event)) = true := by
  have unique : ((payload around event).map Prod.fst).Nodup := by
    simp only [payload, List.map_cons, List.map_nil]
    decide
  rw [wellFormed, Bool.and_eq_true, decide_eq_true_eq]
  refine ⟨unique, ?_⟩
  unfold payload
  cases (requestContext event).domainPrefix <;> rfl

theorem payload_readable (py : Interpreter) : readable py (.obj (payload around event)) = true := by
  have unique : ((payload around event).map Prod.fst).Nodup := by
    simp only [payload, List.map_cons, List.map_nil]
    decide
  rw [readable, Bool.and_eq_true, decide_eq_true_eq]
  refine ⟨unique, ?_⟩
  unfold payload
  cases (requestContext event).domainPrefix <;> rfl

theorem scalar_take {t : Text} (proper : scalar t = true) (n : ℕ) : scalar (t.take n) = true :=
  List.all_eq_true.mpr fun p mem => List.all_eq_true.mp proper p (List.mem_of_mem_take mem)

theorem low_text {s : String} (known : (s.toList.all fun c => c.toNat < 0x7F) = true) : (text s).all low = true := by
  rw [text, List.all_map]
  exact known

theorem low_pad (width n : ℕ) : (pad width n).all low = true := by
  rw [pad, List.all_append, Bool.and_eq_true]
  constructor
  · refine List.all_eq_true.mpr fun p mem => ?_
    rw [List.eq_of_mem_replicate mem]
    decide
  · refine List.all_eq_true.mpr fun p mem => ?_
    have digit := digits_text n p mem
    rw [isDigit, between, Bool.and_eq_true, decide_eq_true_eq, decide_eq_true_eq] at digit
    have nine : '9'.toNat < 0x7F := by decide
    exact decide_eq_true (lt_of_le_of_lt digit.2 nine)

theorem low_isoformat (m : Moment) : (isoformat m).all low = true := by
  unfold isoformat
  split <;> simp (disch := decide) [List.all_append, low_pad, low_text]

theorem scalar_header (name : String) : scalar (header around event name) = true := by
  refine scalar_take ?_ _
  cases (event.headers.getD []).reverse.find? fun h => around.lower h.1 = name with
  | none => rfl
  | some h => exact scalar_text h.2

theorem payload_scalar : isScalar (.obj (payload around event)) = true := by
  have time : scalar (isoformat around.now) = true :=
    scalar_of_low fun p mem => List.all_eq_true.mp (low_isoformat around.now) p mem
  have protocolOf : isScalar ((requestContext event).domainPrefix.elim .null fun name => .str (text name)) = true := by
    cases (requestContext event).domainPrefix with
    | none => rfl
    | some name => exact scalar_text name
  simp only [payload, isScalar, scalarMembers, scalar_text, time, protocolOf, token, sourceIp, forwardedFor, userAgent,
    requestPath, referrer, httpMethod, collectorRequestId, scalar_take, scalar_header, Bool.and_self]

theorem payload_low_iff : pointsIn low (.obj (payload around event)) = true ↔
    ∀ t ∈ eventTexts around event, t.all low = true := by
  have protocolOf : pointsIn low ((requestContext event).domainPrefix.elim .null fun name => .str (text name)) =
      (protocol event).all low := by
    unfold protocol
    cases (requestContext event).domainPrefix <;> rfl
  simp (disch := decide) only [payload, pointsIn, pointsInMembers, low_text, low_isoformat, protocolOf, eventTexts,
    Bool.true_and, Bool.and_true, Bool.and_eq_true, List.forall_mem_cons, List.not_mem_nil, IsEmpty.forall_iff,
    implies_true, and_true]

variable {signature : Text} (sized : signature.length = 64) (plain : ascii signature = true)

include sized plain

theorem parse_posted (py : Interpreter) : parseRequest py (asciiBytes (signedBody around event signature)) =
    some ⟨sortKeys (orderedMembers (payload around event)), signature, sized⟩ := by
  have proper : scalar signature = true := by
    refine List.all_eq_true.mpr fun p mem => ?_
    have below := of_decide_eq_true (List.all_eq_true.mp plain p mem)
    rw [Bool.not_eq_true', isSurrogate, Bool.and_eq_false_iff, decide_eq_false_iff_not]
    omega
  have unique : ([text "payload", text "signature"] : List Text).Nodup := by decide
  have formed : wellFormed (signedBody around event signature) = true := by
    rw [signedBody, wellFormed, CanonicalInjective.wellFormedMembers, payload_formed, Bool.true_and, Bool.and_eq_true]
    exact ⟨decide_eq_true unique, rfl⟩
  have known : readable py (signedBody around event signature) = true := by
    rw [signedBody, readable, readableMembers, payload_readable, Bool.true_and, Bool.and_eq_true]
    exact ⟨decide_eq_true unique, rfl⟩
  have scalars : isScalar (signedBody around event signature) = true := by
    rw [signedBody, isScalar, scalarMembers, payload_scalar, scalar_text, scalarMembers, scalar_text, isScalar, proper]
    rfl
  have sorted (a b : Raw) : sortKeys [(text "payload", a), (text "signature", b)] =
      [(text "payload", a), (text "signature", b)] := by
    have le : text "payload" ≤ text "signature" := by decide
    simp [sortKeys, List.insertionSort, le]
  have read : loads py (asciiBytes (signedBody around event signature)) =
      .ok (.obj [(text "payload", .obj (sortKeys (orderedMembers (payload around event)))),
        (text "signature", .str signature)]) := by
    rw [signedBody] at formed known scalars ⊢
    rw [loads_ascii formed known scalars, ordered_obj, sorted]
    rfl
  have names : text "payload" ≠ text "signature" := by decide
  rw [parseRequest, read]
  simp [member, names, sized]

end

section
variable {τ : Type} (services : Services τ) (py : Interpreter) (around : Surroundings) (event : Event)

/-- The endpoint accepts what the collector has signed, and among these texts nothing else under
that signature. -/
structure Agreement (posted : Posted) (texts : Set ByteArray) : Prop where
  accepted : ∃ body, parseRequest py posted.body = some body ∧
    canonicalJsonBytes (.obj body.payload) = some (signedBytes around event) ∧
    Accepts services body posted.signatureHeader
  bound : ∀ (body : SignedCallback) (signatureHeader : Text) (bytes : ByteArray), wellFormed (.obj body.payload) = true →
    body.signature = posted.signatureHeader → canonicalJsonBytes (.obj body.payload) = some bytes → bytes ∈ texts →
    Accepts services body signatureHeader → same (.obj body.payload) (.obj (payload around event)) = true

variable {services} {around} {event} {posted : Posted}

theorem handler_eq_some {hmacHex : ByteArray → Text} (made : handler around event hmacHex = some posted) :
    posted.signatureHeader = hmacHex (signedBytes around event) ∧
      posted.body = asciiBytes (signedBody around event (hmacHex (signedBytes around event))) := by
  unfold handler at made
  split at made
  · rw [← Option.some.inj made]
    exact ⟨by rw [signedRequest], by rw [signedRequest]⟩
  · cases made

theorem compareDigest_self {t : Text} (plain : ascii t = true) : compareDigest t t = .ok true := by
  simp [compareDigest, plain]

theorem eq_of_compareDigest {a b : Text} (compared : compareDigest a b = .ok true) : a = b := by
  unfold compareDigest at compared
  split at compared
  · cases same : decide (a = b) with
    | true => exact of_decide_eq_true same
    | false =>
      rw [same] at compared
      cases compared
  · cases compared

theorem payload_bound {texts : Set ByteArray} (distinct : Set.InjOn services.hmacHex texts)
    (signedIn : signedBytes around event ∈ texts) (made : handler around event services.hmacHex = some posted)
    {body : SignedCallback} {signatureHeader : Text} {bytes : ByteArray} (formed : wellFormed (.obj body.payload) = true)
    (under : body.signature = posted.signatureHeader) (written : canonicalJsonBytes (.obj body.payload) = some bytes)
    (bytesIn : bytes ∈ texts) (accepts : Accepts services body signatureHeader) :
    same (.obj body.payload) (.obj (payload around event)) = true := by
  obtain ⟨bytes', written', genuine, -⟩ := (accepts_iff services).mp accepts
  rw [written] at written'
  cases written'
  have digests : services.hmacHex bytes = services.hmacHex (signedBytes around event) := by
    rw [eq_of_compareDigest genuine, under, (handler_eq_some made).1]
  have one := distinct bytesIn signedIn digests
  rw [one, signedBytes, canonical_eq_ascii_iff (payload_formed around event)] at written
  exact same_of_ascii (payload_formed around event) formed written

variable (around event) in
theorem canonical_parsed : canonicalJsonBytes (.obj (sortKeys (orderedMembers (payload around event)))) =
    canonicalJsonBytes (.obj (payload around event)) := OrderedJson.canonical_ordered (.obj (payload around event))

theorem canonical_eq_signed_iff : canonicalJsonBytes (.obj (sortKeys (orderedMembers (payload around event)))) =
    some (signedBytes around event) ↔ ∀ t ∈ eventTexts around event, t.all low = true := by
  rw [canonical_parsed, signedBytes, canonical_eq_ascii_iff (payload_formed around event), eq_comm,
    dumpsAscii_eq_iff (payload_formed around event), payload_low_iff]

theorem low_of_accepted (hexdigest : Hexdigest services) (made : handler around event services.hmacHex = some posted)
    {texts : Set ByteArray} (agreement : Agreement services py around event posted texts) :
    ∀ t ∈ eventTexts around event, t.all low = true := by
  obtain ⟨sized, plain⟩ := hexdigest (signedBytes around event)
  have parsed := parse_posted around event sized plain py
  rw [← (handler_eq_some made).2] at parsed
  obtain ⟨body, read, written, -⟩ := agreement.accepted
  rw [parsed] at read
  cases read
  exact canonical_eq_signed_iff.mp written

/-- Collector and endpoint agree on a callback exactly if its strings have no character beyond U+007E. -/
theorem agreement_iff (hexdigest : Hexdigest services) {texts : Set ByteArray}
    (distinct : Set.InjOn services.hmacHex texts) (signedIn : signedBytes around event ∈ texts)
    (made : handler around event services.hmacHex = some posted) :
    Agreement services py around event posted texts ↔ ∀ t ∈ eventTexts around event, t.all low = true := by
  refine ⟨low_of_accepted py hexdigest made, fun lows => ?_⟩
  obtain ⟨sized, plain⟩ := hexdigest (signedBytes around event)
  obtain ⟨header, sent⟩ := handler_eq_some made
  have parsed := parse_posted around event sized plain py
  rw [← sent] at parsed
  have written := canonical_eq_signed_iff.mpr lows
  refine ⟨⟨_, parsed, written, ?_⟩, fun body signatureHeader bytes formed under written bytesIn accepts =>
    payload_bound distinct signedIn made formed under written bytesIn accepts⟩
  refine (accepts_iff services).mpr ⟨_, written, compareDigest_self plain, ?_⟩
  rw [header]
  exact compareDigest_self plain

theorem refused_of_escaped (hexdigest : Hexdigest services) (made : handler around event services.hmacHex = some posted)
    {bytes : ByteArray} (written : canonicalJsonBytes (.obj (payload around event)) = some bytes)
    (other : services.hmacHex bytes ≠ services.hmacHex (signedBytes around event)) :
    ∃ body, parseRequest py posted.body = some body ∧
      signed services body posted.signatureHeader = .error (.http 401 "callback signature invalid") := by
  obtain ⟨sized, plain⟩ := hexdigest (signedBytes around event)
  obtain ⟨header, sent⟩ := handler_eq_some made
  have parsed := parse_posted around event sized plain py
  rw [← sent] at parsed
  refine ⟨_, parsed, ?_⟩
  have parsedBytes := (canonical_parsed around event).trans written
  have compared : compareDigest (services.hmacHex bytes) (services.hmacHex (signedBytes around event)) = .ok false := by
    simp [compareDigest, plain, (hexdigest bytes).2, other]
  simp only [signed, parsedBytes, Option.elim, bind, Except.bind, compared, Bool.not_false, if_true]

end

/-! Two callbacks, one of them from a browser with an umlaut in its name. -/

def sampleEvent (agent : String) : Event where
  requestContext := some ⟨some ⟨some "203.0.113.9", some "/c/canary-token-one-0001", some "GET"⟩, some "canary", some "request-1"⟩
  headers := some [("User-Agent", agent)]
  token := some "canary-token-one-0001"
  rawPath := none

def sampleSurroundings : Surroundings where
  lower s := String.ofList (s.toList.map Char.toLower)
  awsRequestId := "c6af9ac6-7b61-11e6-9a41-93e8deadbeef"
  now := ⟨2024, 5, 1, 10, 0, 0, 0⟩

def samplePython : Interpreter where
  float _ := ("NaN", none)
  decodeOther _ := .error .valueError

def plainEvent : Event := sampleEvent "curl/8.5.0"

def accentedEvent : Event := sampleEvent "Mozilla/5.0 (Müller)"

def plainDigest : Text := text "ba353e538f9fff9fe6f4d6e2261c4de878b46c732f76e3f5037fb2a8e64a800a"

def accentedDigest : Text := text "84595fdf445c2e3e818dd29c6137e5fa177963022f4f6c4fa05a248304357cbb"

def unescapedDigest : Text := text "c92196d1406b605efa72fe63f38f6d43fb228c11556c57238e249908a1234012"

def sampleServices (event : Event) (digest : Text) : Services ℕ :=
  { quietServices with
    hmacHex := fun bytes => if bytes = signedBytes sampleSurroundings event then digest else unescapedDigest }

theorem sample_hexdigest {event : Event} {digest : Text} (sized : digest.length = 64) (plain : ascii digest = true) :
    Hexdigest (sampleServices event digest) := by
  intro bytes
  simp only [sampleServices]
  split
  · exact ⟨sized, plain⟩
  · exact ⟨by decide, by decide⟩

theorem plain_agreement : ∃ posted,
    handler sampleSurroundings plainEvent (sampleServices plainEvent plainDigest).hmacHex = some posted ∧
      Agreement (sampleServices plainEvent plainDigest) samplePython sampleSurroundings plainEvent posted
        {signedBytes sampleSurroundings plainEvent} := by
  have made : handler sampleSurroundings plainEvent (sampleServices plainEvent plainDigest).hmacHex = some ⟨_, _⟩ :=
    if_pos (by decide)
  refine ⟨_, made, (agreement_iff samplePython (sample_hexdigest (by decide) (by decide)) (Set.injOn_singleton _ _) rfl
    made).mpr ?_⟩
  have lows : (eventTexts sampleSurroundings plainEvent).all (fun t => t.all low) = true := by decide +kernel
  exact List.all_eq_true.mp lows

/-- The endpoint answers 401 to the other callback. -/
theorem accented_refused : ∃ posted,
    handler sampleSurroundings accentedEvent (sampleServices accentedEvent accentedDigest).hmacHex = some posted ∧
      (∃ body, parseRequest samplePython posted.body = some body ∧
        signed (sampleServices accentedEvent accentedDigest) body posted.signatureHeader =
          .error (.http 401 "callback signature invalid")) ∧
      ∀ texts, ¬ Agreement (sampleServices accentedEvent accentedDigest) samplePython sampleSurroundings accentedEvent
        posted texts := by
  have made : handler sampleSurroundings accentedEvent (sampleServices accentedEvent accentedDigest).hmacHex =
      some ⟨_, _⟩ := if_pos (by decide)
  have hexdigest : Hexdigest (sampleServices accentedEvent accentedDigest) := sample_hexdigest (by decide) (by decide)
  have accent : ¬ ∀ t ∈ eventTexts sampleSurroundings accentedEvent, t.all low = true := by
    have some' : (eventTexts sampleSurroundings accentedEvent).all (fun t => t.all low) = false := by decide +kernel
    intro lows
    rw [List.all_eq_true.mpr lows] at some'
    cases some'
  refine ⟨_, made, ?_, fun texts agreement => accent (low_of_accepted samplePython hexdigest made agreement)⟩
  have written := canonicalJsonBytes_getD (payload_scalar sampleSurroundings accentedEvent)
  refine refused_of_escaped samplePython hexdigest made written fun same => ?_
  have apart : (canonicalJsonBytes (.obj (payload sampleSurroundings accentedEvent))).getD .empty ≠
      signedBytes sampleSurroundings accentedEvent := by
    intro equal
    rw [equal] at written
    exact accent (canonical_eq_signed_iff.mp ((canonical_parsed _ _).trans written))
  simp only [sampleServices, if_neg apart, if_true] at same
  exact absurd same (by decide +kernel)

end Mirage.CanaryCollector
