import Mirage.RawJson
import Mirage.RowLocks

/-! `validate_event`, `validate_command` and `build_event` of envelope.py on any value
that `json.loads` returns, with the schema registry and the errors of the package. -/

namespace Mirage.ContractEnvelope
open PythonText Raw RowLocks

def maxPayloadBytes : ℕ := 256 * 1024

/-! The patterns of the schemas. -/

def isCrockford (p : CodePoint) : Bool :=
  isDigit p || between 'A' 'H' p || between 'J' 'K' p || between 'M' 'N' p || between 'P' 'T' p ||
    between 'V' 'Z' p

def ulidBody : Text → Bool
  | first :: rest => between '0' '7' first && rest.length = 25 && rest.all isCrockford
  | [] => false

def typeToken : Text → Bool
  | first :: rest =>
    between 'a' 'z' first && rest.all fun p => between 'a' 'z' p || isDigit p || p = ofChar '_'
  | [] => false

def typeBody (t : Text) : Bool :=
  let tokens := t.splitOn (ofChar '.')
  2 ≤ tokens.length && tokens.all typeToken

def versionBody (t : Text) : Option (Text × Text) :=
  match t.splitOn (ofChar '.') with
  | [major, minor] =>
    if !major.isEmpty && !minor.isEmpty && major.all isDigit && minor.all isDigit
    then some (major, minor) else none
  | _ => none

def versionGroups (t : Text) : Option (Text × Text) :=
  versionBody t <|> if t.getLast? = some (ofChar '\n') then versionBody t.dropLast else none

def digitsThen (n : ℕ) (next : Char) (t : Text) : Option Text :=
  if (t.take n).length = n && (t.take n).all isDigit && (t.drop n).head? = some (ofChar next)
  then some (t.drop (n + 1)) else none

/-- `[0-9]{4}-[0-9]{2}-[0-9]{2}T[0-9]{2}:[0-9]{2}:[0-9]{2}\.[0-9]{3}Z`. -/
def rfc3339MsBody (t : Text) : Bool :=
  (do
    let a ← digitsThen 4 '-' t
    let b ← digitsThen 2 '-' a
    let c ← digitsThen 2 'T' b
    let d ← digitsThen 2 ':' c
    let e ← digitsThen 2 ':' d
    let f ← digitsThen 2 '.' e
    digitsThen 3 'Z' f) = some []

def sha256Body (t : Text) : Bool := t.length = 64 && t.all fun p => between 'a' 'f' p || isDigit p

/-! The envelope schemas, as the values they admit. -/

def patterned (pattern : Text → Bool) : Raw → Bool
  | .str t => pattern t
  | _ => false

def sized (low high : ℕ) : Raw → Bool := patterned fun t => low ≤ t.length && t.length ≤ high

def oneOf (values : List String) : Raw → Bool := patterned fun t => values.any fun s => text s = t

def nullable (inner : Raw → Bool) : Raw → Bool
  | .null => true
  | v => inner v

def natural : Raw → Bool
  | .int n | .float _ (some n) => 0 ≤ n
  | _ => false

def anyObject : Raw → Bool
  | .obj _ => true
  | _ => false

def closedObject (properties : List (String × (Raw → Bool))) : Raw → Bool
  | .obj members =>
    (properties.all fun p => (member (text p.1) members).any p.2) &&
      members.all fun m => properties.any fun p => text p.1 = m.1
  | _ => false

def ulid : Raw → Bool := patterned (anchored ulidBody)

def typeName : Raw → Bool := patterned (anchored typeBody)

def schemaVersion : Raw → Bool := patterned fun t => (versionGroups t).isSome

def timestamp : Raw → Bool := patterned (anchored rfc3339MsBody)

def integrity : Raw → Bool := closedObject [("sha256", patterned (anchored sha256Body))]

def eventProperties : List (String × (Raw → Bool)) :=
  [ ("event_id", ulid), ("event_type", typeName), ("schema_version", schemaVersion),
    ("event_time", timestamp), ("ingest_time", timestamp), ("case_id", nullable ulid),
    ("session_id", nullable ulid), ("source_id", sized 1 256), ("sequence", natural),
    ("actor_type", oneOf ["ENDPOINT_AGENT", "SPIDER_AGENT", "ENV_CONTROLLER_AGENT", "BROKER",
      "CONTROL_SERVICE", "AI", "ANALYST", "SYSTEM"]),
    ("integrity", integrity),
    ("classification", oneOf ["INTERNAL", "EVIDENCE", "UNTRUSTED_INTRUDER_OUTPUT", "SYSTEM"]),
    ("payload", anyObject) ]

def commandProperties : List (String × (Raw → Bool)) :=
  [ ("command_id", ulid), ("command_type", typeName), ("schema_version", schemaVersion),
    ("case_id", ulid), ("sandbox_id", sized 1 256), ("expected_state_version", natural),
    ("issued_by", oneOf ["AI", "ANALYST", "SYSTEM"]), ("policy_decision_id", ulid),
    ("params", anyObject), ("expires_at", timestamp) ]

inductive ContractError where
  | envelopeValidation (errors : List Text)
  | payloadTooLarge (actualBytes : ℕ)
  | integrityMismatch (expected actual : Text)
  | unknownEventType (eventType : Text)
  | unknownCommandType (commandType : Text)
  | malformedSchemaVersion (version : Text)
  | unsupportedSchemaVersion (typeName version : Text) (supportedMajors : List Int)
  | payloadValidation (typeName : Text) (errors : List Text)
  deriving DecidableEq

inductive Failure where
  | contract (error : ContractError)
  | unicodeEncodeError
  | valueError
  | assertionError
  /-- `KeyError` or `TypeError` from reading a field that is not there. -/
  | lookupError
  deriving DecidableEq

def ContractError.message (printable : CodePoint → Bool) : ContractError → Text
  | envelopeValidation errors => text "envelope failed validation: " ++ reprList printable errors
  | payloadTooLarge n =>
    text ("payload is " ++ toString n ++ " bytes, exceeds the " ++ toString maxPayloadBytes ++ "-byte cap")
  | integrityMismatch expected actual =>
    text "integrity.sha256 " ++ reprText printable expected ++
      text " does not match computed payload hash " ++ reprText printable actual
  | unknownEventType t => text "no schema registered for event_type=" ++ reprText printable t
  | unknownCommandType t => text "no schema registered for command_type=" ++ reprText printable t
  | malformedSchemaVersion v =>
    text "schema_version is not '<major>.<minor>': " ++ reprText printable v
  | unsupportedSchemaVersion t v majors =>
    reprText printable t ++ text " schema_version " ++ reprText printable v ++
      text " has unsupported major version (supported: [" ++
      (text ", ").intercalate (majors.map fun n => text (toString n)) ++ text "])"
  | payloadValidation t errors =>
    text "payload for " ++ reprText printable t ++ text " failed validation: " ++
      reprList printable errors

/-- A step of the path to a rejected value: a key or an index. -/
abbrev PathItem := Text ⊕ ℕ

def PathItem.str : PathItem → Text
  | .inl key => key
  | .inr index => text (toString index)

def PathItem.before : PathItem → PathItem → Bool
  | .inl a, .inl b => a < b
  | .inr a, .inr b => a < b
  | _, _ => false

/-- `iter_errors`: the path and the message of each error. -/
abbrev Validator := Raw → List (List PathItem × Text)

def pathLe (a b : List PathItem) : Bool := !b.lex a PathItem.before

def errorText (e : List PathItem × Text) : Text :=
  let path := (text "/").intercalate (e.1.map PathItem.str)
  (if path = [] then text "<root>" else path) ++ text ": " ++ e.2

def envelopeErrors (validator : Validator) (v : Raw) : List Text :=
  ((validator v).insertionSort fun a b => pathLe a.1 b.1 = true).map errorText

/-- A registry whose envelope schema closes over these properties. -/
structure Registry (properties : List (String × (Raw → Bool))) where
  envelopeValidator : Validator
  envelopeValidator_eq_nil_iff : ∀ v, envelopeValidator v = [] ↔ closedObject properties v = true
  validators : List ((Text × ℕ) × Validator)
  majors_printable : ∀ entry ∈ validators, entry.1.2 < 10 ^ maxStrDigits

abbrev EventRegistry := Registry eventProperties

abbrev CommandRegistry := Registry commandProperties

section
variable {properties : List (String × (Raw → Bool))} (registry : Registry properties)

def Registry.supportedMajors (typeName : Text) : List ℕ :=
  ((registry.validators.map Prod.fst).filter fun key => key.1 = typeName).map Prod.snd

def Registry.getValidator (typeName : Text) (major : ℕ) : Option Validator :=
  (registry.validators.find? fun entry => entry.1 = (typeName, major)).map Prod.snd

def item (v : Raw) (name : String) : Except Failure Raw := present (v.get? name) .lookupError

def textItem (v : Raw) (name : String) : Except Failure Text :=
  match v.get? name with
  | some (.str t) => .ok t
  | _ => .error .lookupError

def parseSchemaVersion (version : Text) : Except Failure (ℕ × ℕ) := do
  let (major, minor) ← present (versionGroups version) (.contract (.malformedSchemaVersion version))
  let major ← present (parseInt major) .valueError
  let minor ← present (parseInt minor) .valueError
  pure (major, minor)

/-- `raise UnsupportedSchemaVersionError`, whose message writes the majors out. -/
def unsupported (typeName version : Text) (allowed : List Int) : Failure :=
  if allowed.all fun n => n.natAbs < 10 ^ maxStrDigits
  then .contract (.unsupportedSchemaVersion typeName version (allowed.insertionSort (· ≤ ·)))
  else .valueError

/-- The part that events and commands share: the registered validator of a type
and version, and what it says about a payload. -/
def resolveAndValidate (majors : Option (List Int)) (unknown : Text → ContractError)
    (typeName version : Text) (payload : Raw) : Except Failure ℕ := do
  let (major, _) ← parseSchemaVersion version
  let registered := registry.supportedMajors typeName
  require (registered ≠ []) (.contract (unknown typeName))
  let allowed := majors.getD (registered.map Int.ofNat)
  require ((major : Int) ∈ allowed) (unsupported typeName version allowed)
  let validator ← present (registry.getValidator typeName major) .assertionError
  let errors := envelopeErrors validator payload
  require (errors = []) (.contract (.payloadValidation typeName errors))
  pure major

def checkEnvelope (v : Raw) : Except Failure Unit :=
  let errors := envelopeErrors registry.envelopeValidator v
  require (errors = []) (.contract (.envelopeValidation errors))

end

def checkIntegrity (digest : ByteArray → Text) (event : Raw) : Except Failure Raw := do
  let payload ← item event "payload"
  let bytes ← present (canonicalJsonBytes payload) .unicodeEncodeError
  require (bytes.size ≤ maxPayloadBytes) (.contract (.payloadTooLarge bytes.size))
  let declared ← textItem (← item event "integrity") "sha256"
  require (digest bytes = declared) (.contract (.integrityMismatch declared (digest bytes)))
  pure payload

structure ValidatedEvent where
  envelope : Raw
  payload : Raw
  eventType : Text
  majorVersion : ℕ

structure ValidatedCommand where
  envelope : Raw
  params : Raw
  commandType : Text
  majorVersion : ℕ

def validateEvent (registry : EventRegistry) (digest : ByteArray → Text) (majors : Option (List Int))
    (event : Raw) : Except Failure ValidatedEvent := do
  checkEnvelope registry event
  let payload ← checkIntegrity digest event
  let eventType ← textItem event "event_type"
  let version ← textItem event "schema_version"
  let major ← resolveAndValidate registry majors .unknownEventType eventType version payload
  pure ⟨event, payload, eventType, major⟩

def validateCommand (registry : CommandRegistry) (majors : Option (List Int)) (command : Raw) :
    Except Failure ValidatedCommand := do
  checkEnvelope registry command
  let commandType ← textItem command "command_type"
  let version ← textItem command "schema_version"
  let params ← item command "params"
  let major ← resolveAndValidate registry majors .unknownCommandType commandType version params
  pure ⟨command, params, commandType, major⟩

theorem textItem_eq_ok {v : Raw} {name : String} {t : Text} :
    textItem v name = .ok t ↔ v.get? name = some (.str t) := by
  unfold textItem
  split
  next found => simp [found]
  next other =>
    refine iff_of_false (by simp) fun found => ?_
    exact other t found

theorem parseSchemaVersion_of_none {version : Text} (groups : versionGroups version = none) :
    parseSchemaVersion version = .error (.contract (.malformedSchemaVersion version)) := by
  rw [parseSchemaVersion, groups]
  rfl

theorem parseSchemaVersion_of_some {version major minor : Text}
    (groups : versionGroups version = some (major, minor)) :
    parseSchemaVersion version =
      if major.length ≤ maxStrDigits ∧ minor.length ≤ maxStrDigits
      then .ok (digitsValue major, digitsValue minor) else .error .valueError := by
  have opened : parseSchemaVersion version = (do
      let a ← present (parseInt major) .valueError
      let b ← present (parseInt minor) .valueError
      pure (a, b)) := by
    rw [parseSchemaVersion, groups]
    rfl
  rw [opened, parseInt, parseInt]
  by_cases first : major.length ≤ maxStrDigits
  · by_cases second : minor.length ≤ maxStrDigits
    · rw [if_pos first, if_pos second, if_pos ⟨first, second⟩]
      rfl
    · rw [if_pos first, if_neg second, if_neg fun both => second both.2]
      rfl
  · have not : ¬ (major.length ≤ maxStrDigits ∧ minor.length ≤ maxStrDigits) := fun both => first both.1
    rw [if_neg first, if_neg not]
    rfl

theorem envelopeErrors_eq_nil_iff (validator : Validator) (v : Raw) :
    envelopeErrors validator v = [] ↔ validator v = [] := by
  rw [envelopeErrors, List.map_eq_nil_iff]
  constructor
  · intro empty
    have length := congrArg List.length empty
    rw [List.length_insertionSort] at length
    exact List.eq_nil_of_length_eq_zero length
  · intro empty
    rw [empty, List.insertionSort_nil]

theorem checkEnvelope_eq_ok {properties : List (String × (Raw → Bool))}
    {registry : Registry properties} {v : Raw} {u : Unit} :
    checkEnvelope registry v = .ok u ↔ closedObject properties v = true := by
  rw [checkEnvelope, require_eq_ok, decide_eq_true_eq, envelopeErrors_eq_nil_iff,
    registry.envelopeValidator_eq_nil_iff]

structure Intact (digest : ByteArray → Text) (event payload : Raw) (bytes : ByteArray) : Prop where
  found : event.get? "payload" = some payload
  encoded : canonicalJsonBytes payload = some bytes
  size : bytes.size ≤ maxPayloadBytes
  declared : ∃ integrity, event.get? "integrity" = some integrity ∧
    integrity.get? "sha256" = some (.str (digest bytes))

theorem checkIntegrity_eq_ok {digest : ByteArray → Text} {event payload : Raw} :
    checkIntegrity digest event = .ok payload ↔ ∃ bytes, Intact digest event payload bytes := by
  simp only [checkIntegrity, item, bind_eq_ok, present_eq_ok, require_eq_ok, textItem_eq_ok,
    decide_eq_true_eq]
  constructor
  · rintro ⟨found, atPayload, bytes, encoded, -, size, integrity, atIntegrity, declared, atHash, -,
      equal, returned⟩
    cases returned
    rw [← equal] at atHash
    exact ⟨bytes, atPayload, encoded, size, integrity, atIntegrity, atHash⟩
  · rintro ⟨bytes, atPayload, encoded, size, integrity, atIntegrity, atHash⟩
    exact ⟨payload, atPayload, bytes, encoded, (), size, integrity, atIntegrity, _, atHash, (), rfl, rfl⟩

theorem checkIntegrity_eq {digest : ByteArray → Text} {event payload integrity : Raw} {hash : Text}
    (found : event.get? "payload" = some payload) (atIntegrity : event.get? "integrity" = some integrity)
    (declared : integrity.get? "sha256" = some (.str hash)) :
    checkIntegrity digest event = match canonicalJsonBytes payload with
      | none => .error .unicodeEncodeError
      | some bytes =>
        if bytes.size ≤ maxPayloadBytes then
          if digest bytes = hash then .ok payload
          else .error (.contract (.integrityMismatch hash (digest bytes)))
        else .error (.contract (.payloadTooLarge bytes.size)) := by
  have read : textItem integrity "sha256" = .ok hash := textItem_eq_ok.mpr declared
  simp only [checkIntegrity, item, found, atIntegrity, present, bind, Except.bind, read]
  cases canonicalJsonBytes payload with
  | none => rfl
  | some bytes =>
    dsimp only
    by_cases size : bytes.size ≤ maxPayloadBytes
    · by_cases equal : digest bytes = hash
      · simp [size, equal]
        rfl
      · simp [size, equal]
    · simp [size]

structure Validated (registry : EventRegistry) (digest : ByteArray → Text)
    (majors : Option (List Int)) (event : Raw) (v : ValidatedEvent) : Prop where
  admitted : closedObject eventProperties event = true
  intact : ∃ bytes, Intact digest event v.payload bytes
  eventType : event.get? "event_type" = some (.str v.eventType)
  resolved : ∃ version, event.get? "schema_version" = some (.str version) ∧
    resolveAndValidate registry majors .unknownEventType v.eventType version v.payload =
      .ok v.majorVersion
  envelope : v.envelope = event

theorem validateEvent_spec {registry : EventRegistry} {digest : ByteArray → Text}
    {majors : Option (List Int)} {event : Raw} {v : ValidatedEvent}
    (valid : validateEvent registry digest majors event = .ok v) :
    Validated registry digest majors event v := by
  simp only [validateEvent, bind_eq_ok, checkEnvelope_eq_ok, checkIntegrity_eq_ok,
    textItem_eq_ok] at valid
  obtain ⟨-, admitted, payload, intact, eventType, atType, version, atVersion, major, resolved,
    returned⟩ := valid
  cases returned
  exact ⟨admitted, intact, atType, ⟨version, atVersion, resolved⟩, rfl⟩

/-- The arguments of `build_event`; an identifier or a time that is absent or
empty is drawn by the call. -/
structure EventFields where
  eventType : Text
  schemaVersion : Text
  payload : Raw
  sourceId : Text
  sequence : Int
  actorType : Text
  classification : Text
  caseId : Option Text
  sessionId : Option Text
  eventId : Option Text
  eventTime : Option Text

def optional : Option Text → Raw
  | none => .null
  | some t => .str t

def orDrawn (given : Option Text) (drawn : Text) : Text :=
  match given with
  | none | some [] => drawn
  | some t => t

/-- The dictionary that `build_event` returns for a payload with this hash. -/
def eventOf (sha256 drawnId now : Text) (f : EventFields) : Raw :=
  .obj
    [ (text "event_id", .str (orDrawn f.eventId drawnId)), (text "event_type", .str f.eventType),
      (text "schema_version", .str f.schemaVersion),
      (text "event_time", .str (orDrawn f.eventTime now)), (text "ingest_time", .str now),
      (text "case_id", optional f.caseId), (text "session_id", optional f.sessionId),
      (text "source_id", .str f.sourceId), (text "sequence", .int f.sequence),
      (text "actor_type", .str f.actorType), (text "integrity", .obj [(text "sha256", .str sha256)]),
      (text "classification", .str f.classification), (text "payload", f.payload) ]

/-- `build_event` with the identifier and the time it draws. -/
def buildEvent (digest : ByteArray → Text) (drawnId now : Text) (f : EventFields) :
    Except Failure Raw := do
  let bytes ← present (canonicalJsonBytes f.payload) .unicodeEncodeError
  pure (eventOf (digest bytes) drawnId now f)

theorem eventOf_payload (sha256 drawnId now : Text) (f : EventFields) :
    (eventOf sha256 drawnId now f).get? "payload" = some f.payload := rfl

theorem eventOf_integrity (sha256 drawnId now : Text) (f : EventFields) :
    (eventOf sha256 drawnId now f).get? "integrity" = some (.obj [(text "sha256", .str sha256)]) := rfl

theorem buildEvent_intact {digest : ByteArray → Text} {drawnId now : Text} {f : EventFields}
    {bytes : ByteArray} (encoded : canonicalJsonBytes f.payload = some bytes)
    (size : bytes.size ≤ maxPayloadBytes) :
    ∃ event, buildEvent digest drawnId now f = .ok event ∧ Intact digest event f.payload bytes := by
  refine ⟨eventOf (digest bytes) drawnId now f, ?_, ?_⟩
  · rw [buildEvent, encoded]
    rfl
  · exact ⟨eventOf_payload _ _ _ f, encoded, size, _, eventOf_integrity _ _ _ f, rfl⟩

end Mirage.ContractEnvelope
