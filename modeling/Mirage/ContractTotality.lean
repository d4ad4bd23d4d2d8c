import Mirage.CanonicalInjective

/-! Which inputs make `validate_event`, `validate_command` and the telemetry endpoint
raise something else than a `ContractError`: a lone surrogate in a payload, a version
number with more digits than `int` reads, a caller's major version that is not registered.
-/

namespace Mirage.ContractTotality
open PythonText Raw RowLocks ContractEnvelope

def Typed {α : Type} (outcome : Except Failure α) : Prop :=
  ∀ failure, outcome = .error failure → ∃ e, failure = .contract e

section
variable {α β : Type}

theorem typed_ok (a : α) : Typed (.ok a : Except Failure α) := by
  intro failure raised
  cases raised

theorem typed_contract (e : ContractError) : Typed (.error (.contract e) : Except Failure α) := by
  intro failure raised
  cases raised
  exact ⟨e, rfl⟩

theorem typed_error_iff {failure : Failure} :
    Typed (.error failure : Except Failure α) ↔ ∃ e, failure = .contract e := by
  constructor
  · intro typed
    exact typed failure rfl
  · rintro ⟨e, rfl⟩
    exact typed_contract e

theorem typed_bind_iff {x : Except Failure α} {f : α → Except Failure β} :
    Typed (x >>= f) ↔ Typed x ∧ ∀ a, x = .ok a → Typed (f a) := by
  cases x with
  | ok a =>
    constructor
    · intro typed
      refine ⟨typed_ok a, fun a' equal => ?_⟩
      cases equal
      exact typed
    · rintro ⟨-, next⟩
      exact next a rfl
  | error failure =>
    constructor
    · intro typed
      refine ⟨typed_error_iff.mpr (typed failure rfl), fun a equal => ?_⟩
      cases equal
    · rintro ⟨typed, -⟩
      exact typed_error_iff.mpr (typed failure rfl)

theorem typed_require_iff {b : Bool} {failure : Failure} :
    Typed (require b failure) ↔ (b = false → ∃ e, failure = .contract e) := by
  cases b with
  | true => simp [typed_ok]
  | false => simp [typed_error_iff]

theorem typed_present_iff {x : Option α} {failure : Failure} :
    Typed (present x failure) ↔ (x = none → ∃ e, failure = .contract e) := by
  cases x with
  | some a => simp [present, typed_ok]
  | none => simp [present, typed_error_iff]

end

/-! The version and the registry. -/

section
variable {properties : List (String × (Raw → Bool))} (registry : Registry properties)

theorem getValidator_eq_none_iff (typeName : Text) (major : ℕ) :
    registry.getValidator typeName major = none ↔ major ∉ registry.supportedMajors typeName := by
  simp only [Registry.getValidator, Registry.supportedMajors, Option.map_eq_none_iff,
    List.find?_eq_none, List.mem_map, List.mem_filter, decide_eq_true_eq]
  constructor
  · rintro absent ⟨key, ⟨⟨entry, mem, rfl⟩, named⟩, number⟩
    exact absent entry mem (Prod.ext named number)
  · intro absent entry mem named
    exact absent ⟨entry.1, ⟨⟨entry, mem, rfl⟩, by rw [named]⟩, by rw [named]⟩

theorem supportedMajors_printable {typeName : Text} {major : ℕ}
    (listed : major ∈ registry.supportedMajors typeName) : major < 10 ^ maxStrDigits := by
  simp only [Registry.supportedMajors, List.mem_map, List.mem_filter] at listed
  obtain ⟨key, ⟨⟨entry, mem, rfl⟩, -⟩, rfl⟩ := listed
  exact registry.majors_printable entry mem

/-- A major version that the caller allows for a known type is registered, and
the majors of a rejected version can be written out. -/
structure Allowed (typeName : Text) (major : ℕ) (allowed : List Int) : Prop where
  registered : (major : Int) ∈ allowed → major ∈ registry.supportedMajors typeName
  printable : (major : Int) ∉ allowed → ∀ n ∈ allowed, n.natAbs < 10 ^ maxStrDigits

/-- Both numbers of the version are short enough for `int`, and the majors of
the caller, where a type is known and they are given, fit the registry. -/
structure Resolvable (majors : Option (List Int)) (typeName version : Text) : Prop where
  digits : ∀ major minor, versionGroups version = some (major, minor) →
    major.length ≤ maxStrDigits ∧ minor.length ≤ maxStrDigits
  allowed : ∀ major minor, versionGroups version = some (major, minor) → ∀ allowed,
    majors = some allowed → registry.supportedMajors typeName ≠ [] →
    Allowed registry typeName (digitsValue major) allowed

theorem unsupported_of_printable {typeName version : Text} {allowed : List Int}
    (printable : ∀ n ∈ allowed, n.natAbs < 10 ^ maxStrDigits) :
    unsupported typeName version allowed =
      .contract (.unsupportedSchemaVersion typeName version (allowed.insertionSort (· ≤ ·))) := by
  rw [unsupported, if_pos]
  rw [List.all_eq_true]
  intro n mem
  rw [decide_eq_true_eq]
  exact printable n mem

theorem unsupported_eq_contract_iff {typeName version : Text} {allowed : List Int} :
    (∃ e, unsupported typeName version allowed = .contract e) ↔
      ∀ n ∈ allowed, n.natAbs < 10 ^ maxStrDigits := by
  constructor
  · rintro ⟨e, equal⟩ n mem
    unfold unsupported at equal
    split at equal
    next all =>
      have each := List.all_eq_true.mp all n mem
      rwa [decide_eq_true_eq] at each
    next => cases equal
  · intro printable
    exact ⟨_, unsupported_of_printable printable⟩

def validateMajor (majors : Option (List Int)) (unknown : Text → ContractError)
    (typeName version : Text) (payload : Raw) (major : ℕ) : Except Failure ℕ := do
  require (registry.supportedMajors typeName ≠ []) (.contract (unknown typeName))
  let allowed := majors.getD ((registry.supportedMajors typeName).map Int.ofNat)
  require ((major : Int) ∈ allowed) (unsupported typeName version allowed)
  let validator ← present (registry.getValidator typeName major) .assertionError
  let errors := envelopeErrors validator payload
  require (errors = []) (.contract (.payloadValidation typeName errors))
  pure major

theorem resolveAndValidate_eq (majors : Option (List Int)) (unknown : Text → ContractError)
    (typeName version : Text) (payload : Raw) :
    resolveAndValidate registry majors unknown typeName version payload =
      (parseSchemaVersion version >>= fun parsed =>
        validateMajor registry majors unknown typeName version payload parsed.1) := rfl

theorem typed_validateMajor_iff (majors : Option (List Int)) (unknown : Text → ContractError)
    (typeName version : Text) (payload : Raw) (major : ℕ) :
    Typed (validateMajor registry majors unknown typeName version payload major) ↔
      ∀ allowed, majors = some allowed → registry.supportedMajors typeName ≠ [] →
        Allowed registry typeName major allowed := by
  simp only [validateMajor, typed_bind_iff, typed_require_iff, typed_present_iff, require_eq_ok,
    present_eq_ok, decide_eq_true_eq, decide_eq_false_iff_not, reduceCtorEq, exists_false,
    getValidator_eq_none_iff, unsupported_eq_contract_iff]
  constructor
  · rintro ⟨-, known⟩ allowed rfl some'
    obtain ⟨written, found⟩ := known () some'
    exact ⟨fun listed => by_contra fun absent => (found () listed).1 absent, written⟩
  · intro each
    refine ⟨fun _ => ⟨_, rfl⟩, fun _ some' => ⟨fun absent n mem => ?_, fun _ listed => ⟨?_, ?_⟩⟩⟩
    · cases majors with
      | some allowed => exact (each allowed rfl some').printable absent n mem
      | none =>
        rw [Option.getD_none, List.mem_map] at mem
        obtain ⟨k, registered, rfl⟩ := mem
        exact supportedMajors_printable registry registered
    · cases majors with
      | some allowed =>
        intro absent
        exact absent ((each allowed rfl some').registered listed)
      | none =>
        rw [Option.getD_none, List.mem_map] at listed
        obtain ⟨k, registered, equal⟩ := listed
        rw [Int.ofNat_inj.mp equal] at registered
        exact fun absent => absent registered
    · intro validator _
      exact ⟨fun _ => ⟨_, rfl⟩, fun _ _ => typed_ok major⟩

theorem typed_resolveAndValidate_iff (majors : Option (List Int)) (unknown : Text → ContractError)
    (typeName version : Text) (payload : Raw) :
    Typed (resolveAndValidate registry majors unknown typeName version payload) ↔
      Resolvable registry majors typeName version := by
  rw [resolveAndValidate_eq, typed_bind_iff]
  constructor
  · rintro ⟨parsed, next⟩
    constructor
    · intro major minor groups
      rw [parseSchemaVersion_of_some groups] at parsed
      by_contra long
      rw [if_neg long, typed_error_iff] at parsed
      obtain ⟨e, equal⟩ := parsed
      cases equal
    · intro major minor groups
      rw [parseSchemaVersion_of_some groups] at parsed next
      have short : major.length ≤ maxStrDigits ∧ minor.length ≤ maxStrDigits := by
        by_contra long
        rw [if_neg long, typed_error_iff] at parsed
        obtain ⟨e, equal⟩ := parsed
        cases equal
      rw [if_pos short] at next
      exact (typed_validateMajor_iff registry majors unknown typeName version payload _).mp
        (next _ rfl)
  · rintro ⟨digits, allowed⟩
    cases groups : versionGroups version with
    | none =>
      rw [parseSchemaVersion_of_none groups]
      exact ⟨typed_contract _, fun a equal => by cases equal⟩
    | some pair =>
      obtain ⟨major, minor⟩ := pair
      rw [parseSchemaVersion_of_some groups, if_pos (digits major minor groups)]
      refine ⟨typed_ok _, fun a equal => ?_⟩
      cases equal
      exact (typed_validateMajor_iff registry majors unknown typeName version payload _).mpr
        (allowed major minor groups)

end

theorem property_of_closedObject {properties : List (String × (Raw → Bool))} {v : Raw}
    (admitted : closedObject properties v = true) {name : String} {check : Raw → Bool}
    (listed : (name, check) ∈ properties) : ∃ inner, v.get? name = some inner ∧ check inner = true := by
  cases v with
  | obj members =>
    rw [closedObject, Bool.and_eq_true, List.all_eq_true] at admitted
    have found := admitted.1 (name, check) listed
    rw [Option.any_eq_true] at found
    exact found
  | _ => cases admitted

theorem text_of_patterned {pattern : Text → Bool} {v : Raw} (admitted : patterned pattern v = true) :
    ∃ t, v = .str t ∧ pattern t = true := by
  cases v with
  | str t => exact ⟨t, rfl, admitted⟩
  | _ => cases admitted

structure Readable (event : Raw) : Prop where
  payload : ∃ payload, event.get? "payload" = some payload
  integrity : ∃ integrity hash, event.get? "integrity" = some integrity ∧
    integrity.get? "sha256" = some (.str hash)
  eventType : ∃ t, event.get? "event_type" = some (.str t)
  version : ∃ t, event.get? "schema_version" = some (.str t)

theorem readable_of_admitted {event : Raw} (admitted : closedObject eventProperties event = true) :
    Readable event := by
  have listed : ∀ {i : ℕ} {p : String × (Raw → Bool)}, eventProperties[i]? = some p →
      p ∈ eventProperties := List.mem_of_getElem?
  obtain ⟨payload, atPayload, -⟩ := property_of_closedObject admitted (listed (i := 12) rfl)
  obtain ⟨integrity, atIntegrity, inner⟩ := property_of_closedObject admitted (listed (i := 10) rfl)
  obtain ⟨eventType, atType, named⟩ := property_of_closedObject admitted (listed (i := 1) rfl)
  obtain ⟨version, atVersion, numbered⟩ := property_of_closedObject admitted (listed (i := 2) rfl)
  obtain ⟨hash, atHash, hashed⟩ := property_of_closedObject inner List.mem_cons_self
  obtain ⟨hash, rfl, -⟩ := text_of_patterned hashed
  obtain ⟨eventType, rfl, -⟩ := text_of_patterned named
  obtain ⟨version, rfl, -⟩ := text_of_patterned numbered
  exact ⟨⟨payload, atPayload⟩, ⟨integrity, hash, atIntegrity, atHash⟩, ⟨eventType, atType⟩,
    ⟨version, atVersion⟩⟩

theorem typed_checkIntegrity_iff {digest : ByteArray → Text} {event : Raw} (readable : Readable event) :
    Typed (checkIntegrity digest event) ↔
      ∀ payload, event.get? "payload" = some payload → isScalar payload = true := by
  obtain ⟨payload, atPayload⟩ := readable.payload
  obtain ⟨integrity, hash, atIntegrity, atHash⟩ := readable.integrity
  rw [checkIntegrity_eq atPayload atIntegrity atHash]
  simp only [atPayload, Option.some.injEq, forall_eq']
  cases encoded : canonicalJsonBytes payload with
  | none =>
    rw [(canonicalJsonBytes_eq_none_iff payload).mp encoded, typed_error_iff]
    simp
  | some bytes =>
    have scalar : isScalar payload = true := by
      rw [← Bool.not_eq_false, ← canonicalJsonBytes_eq_none_iff, encoded]
      exact Option.some_ne_none bytes
    refine iff_of_true ?_ scalar
    dsimp only
    split
    · split
      · exact typed_ok payload
      · exact typed_contract _
    · exact typed_contract _

/-- An admitted event whose payload has no surrogate and, where its hash is
right, whose version and type the registry can resolve. -/
structure EventAnswerable (registry : EventRegistry) (digest : ByteArray → Text)
    (majors : Option (List Int)) (event : Raw) : Prop where
  scalar : closedObject eventProperties event = true →
    ∀ payload, event.get? "payload" = some payload → isScalar payload = true
  resolvable : closedObject eventProperties event = true →
    ∀ payload bytes, Intact digest event payload bytes →
    ∀ eventType version, event.get? "event_type" = some (.str eventType) →
      event.get? "schema_version" = some (.str version) → Resolvable registry majors eventType version

theorem typed_checkEnvelope {properties : List (String × (Raw → Bool))} (registry : Registry properties)
    (v : Raw) : Typed (checkEnvelope registry v) :=
  typed_require_iff.mpr fun _ => ⟨_, rfl⟩

theorem typed_textItem {v : Raw} {name : String} {t : Text} (found : v.get? name = some (.str t)) :
    Typed (textItem v name) := by
  rw [textItem_eq_ok.mpr found]
  exact typed_ok t

theorem typed_validateEvent_iff (registry : EventRegistry) (digest : ByteArray → Text)
    (majors : Option (List Int)) (event : Raw) :
    Typed (validateEvent registry digest majors event) ↔ EventAnswerable registry digest majors event := by
  simp only [validateEvent, typed_bind_iff, typed_checkEnvelope, checkEnvelope_eq_ok,
    checkIntegrity_eq_ok, textItem_eq_ok, typed_resolveAndValidate_iff, true_and]
  constructor
  · intro typed
    constructor
    · intro admitted
      exact (typed_checkIntegrity_iff (readable_of_admitted admitted)).mp (typed () admitted).1
    · intro admitted payload bytes intact eventType version atType atVersion
      have resolved := (typed () admitted).2 payload ⟨bytes, intact⟩
      exact ((resolved.2 eventType atType).2 version atVersion).1
  · rintro ⟨scalar, resolvable⟩ - admitted
    have readable := readable_of_admitted admitted
    obtain ⟨eventType, atType⟩ := readable.eventType
    obtain ⟨version, atVersion⟩ := readable.version
    refine ⟨(typed_checkIntegrity_iff readable).mpr (scalar admitted), ?_⟩
    rintro payload ⟨bytes, intact⟩
    refine ⟨typed_textItem atType, fun t found => ⟨typed_textItem atVersion, fun v found' => ?_⟩⟩
    exact ⟨resolvable admitted payload bytes intact t v found found', fun major _ => typed_ok _⟩

structure CommandAnswerable (registry : CommandRegistry) (majors : Option (List Int))
    (command : Raw) : Prop where
  resolvable : closedObject commandProperties command = true →
    ∀ commandType version, command.get? "command_type" = some (.str commandType) →
      command.get? "schema_version" = some (.str version) →
      Resolvable registry majors commandType version

theorem typed_validateCommand_iff (registry : CommandRegistry) (majors : Option (List Int))
    (command : Raw) :
    Typed (validateCommand registry majors command) ↔ CommandAnswerable registry majors command := by
  have fields : closedObject commandProperties command = true →
      (∃ t, command.get? "command_type" = some (.str t)) ∧
      (∃ t, command.get? "schema_version" = some (.str t)) ∧
      ∃ params, command.get? "params" = some params := by
    intro admitted
    have listed : ∀ {i : ℕ} {p : String × (Raw → Bool)}, commandProperties[i]? = some p →
        p ∈ commandProperties := List.mem_of_getElem?
    obtain ⟨commandType, atType, named⟩ := property_of_closedObject admitted (listed (i := 1) rfl)
    obtain ⟨version, atVersion, numbered⟩ := property_of_closedObject admitted (listed (i := 2) rfl)
    obtain ⟨params, atParams, -⟩ := property_of_closedObject admitted (listed (i := 8) rfl)
    obtain ⟨commandType, rfl, -⟩ := text_of_patterned named
    obtain ⟨version, rfl, -⟩ := text_of_patterned numbered
    exact ⟨⟨commandType, atType⟩, ⟨version, atVersion⟩, params, atParams⟩
  simp only [validateCommand, item, typed_bind_iff, typed_checkEnvelope, checkEnvelope_eq_ok,
    textItem_eq_ok, present_eq_ok, typed_resolveAndValidate_iff, true_and]
  constructor
  · intro typed
    refine ⟨fun admitted commandType version atType atVersion => ?_⟩
    obtain ⟨-, -, params, atParams⟩ := fields admitted
    have read := ((typed () admitted).2 commandType atType).2 version atVersion
    exact (read.2 params atParams).1
  · rintro ⟨resolvable⟩ - admitted
    obtain ⟨⟨commandType, atType⟩, ⟨version, atVersion⟩, params, atParams⟩ := fields admitted
    refine ⟨typed_textItem atType, fun t found => ⟨typed_textItem atVersion, fun v found' => ?_⟩⟩
    refine ⟨typed_present_iff.mpr fun absent => ?_, fun _ _ => ?_⟩
    · rw [atParams] at absent
      cases absent
    · exact ⟨resolvable admitted t v found found', fun major _ => typed_ok _⟩

/-! Which contract error an event meets. -/

inductive Unresolved {properties : List (String × (Raw → Bool))} (registry : Registry properties)
    (majors : Option (List Int)) (unknown : Text → ContractError) (typeName version : Text)
    (payload : Raw) : ContractError → Prop
  | malformed : versionGroups version = none →
      Unresolved registry majors unknown typeName version payload (.malformedSchemaVersion version)
  | unknown {major minor : Text} : versionGroups version = some (major, minor) →
      major.length ≤ maxStrDigits ∧ minor.length ≤ maxStrDigits →
      registry.supportedMajors typeName = [] →
      Unresolved registry majors unknown typeName version payload (unknown typeName)
  | unsupported {major minor : Text} {allowed : List Int} :
      versionGroups version = some (major, minor) →
      major.length ≤ maxStrDigits ∧ minor.length ≤ maxStrDigits →
      registry.supportedMajors typeName ≠ [] →
      allowed = majors.getD ((registry.supportedMajors typeName).map Int.ofNat) →
      (digitsValue major : Int) ∉ allowed → (∀ n ∈ allowed, n.natAbs < 10 ^ maxStrDigits) →
      Unresolved registry majors unknown typeName version payload
        (.unsupportedSchemaVersion typeName version (allowed.insertionSort (· ≤ ·)))
  | payload {major minor : Text} {validator : Validator} :
      versionGroups version = some (major, minor) →
      major.length ≤ maxStrDigits ∧ minor.length ≤ maxStrDigits →
      registry.supportedMajors typeName ≠ [] →
      (digitsValue major : Int) ∈
        majors.getD ((registry.supportedMajors typeName).map Int.ofNat) →
      registry.getValidator typeName (digitsValue major) = some validator →
      envelopeErrors validator payload ≠ [] →
      Unresolved registry majors unknown typeName version payload
        (.payloadValidation typeName (envelopeErrors validator payload))

theorem unsupported_eq_contract {typeName version : Text} {allowed : List Int} {e : ContractError} :
    unsupported typeName version allowed = .contract e ↔
      (∀ n ∈ allowed, n.natAbs < 10 ^ maxStrDigits) ∧
        e = .unsupportedSchemaVersion typeName version (allowed.insertionSort (· ≤ ·)) := by
  constructor
  · intro equal
    have printable := unsupported_eq_contract_iff.mp ⟨e, equal⟩
    rw [unsupported_of_printable printable, Failure.contract.injEq] at equal
    exact ⟨printable, equal.symm⟩
  · rintro ⟨printable, rfl⟩
    exact unsupported_of_printable printable

theorem validateMajor_eq_contract_iff {properties : List (String × (Raw → Bool))}
    {registry : Registry properties} {majors : Option (List Int)} {unknown : Text → ContractError}
    {typeName version : Text} {payload : Raw} {major : ℕ} {e : ContractError} :
    validateMajor registry majors unknown typeName version payload major = .error (.contract e) ↔
      (registry.supportedMajors typeName = [] ∧ e = unknown typeName) ∨
      (registry.supportedMajors typeName ≠ [] ∧
        (major : Int) ∉ majors.getD ((registry.supportedMajors typeName).map Int.ofNat) ∧
        (∀ n ∈ majors.getD ((registry.supportedMajors typeName).map Int.ofNat),
          n.natAbs < 10 ^ maxStrDigits) ∧
        e = .unsupportedSchemaVersion typeName version
          ((majors.getD ((registry.supportedMajors typeName).map Int.ofNat)).insertionSort (· ≤ ·))) ∨
      (registry.supportedMajors typeName ≠ [] ∧
        (major : Int) ∈ majors.getD ((registry.supportedMajors typeName).map Int.ofNat) ∧
        ∃ validator, registry.getValidator typeName major = some validator ∧
          envelopeErrors validator payload ≠ [] ∧
          e = .payloadValidation typeName (envelopeErrors validator payload)) := by
  simp only [validateMajor, bind_eq_error, require_eq_error, require_eq_ok, present_eq_ok,
    present_eq_error, decide_eq_true_eq, decide_eq_false_iff_not, Failure.contract.injEq,
    unsupported_eq_contract, reduceCtorEq, and_false, false_or, ne_eq, not_not, exists_const,
    pure, Except.pure, or_false]
  simp only [eq_comm (a := e)]
  constructor
  · rintro (⟨none', equal⟩ | ⟨some', ⟨absent, printable, equal⟩ | ⟨listed, validator, found, errors, equal⟩⟩)
    · exact .inl ⟨none', equal⟩
    · exact .inr (.inl ⟨some', absent, printable, equal⟩)
    · exact .inr (.inr ⟨some', listed, validator, found, errors, equal⟩)
  · rintro (⟨none', equal⟩ | ⟨some', absent, printable, equal⟩ |
      ⟨some', listed, validator, found, errors, equal⟩)
    · exact .inl ⟨none', equal⟩
    · exact .inr ⟨some', .inl ⟨absent, printable, equal⟩⟩
    · exact .inr ⟨some', .inr ⟨listed, validator, found, errors, equal⟩⟩

theorem resolveAndValidate_eq_contract_iff {properties : List (String × (Raw → Bool))}
    {registry : Registry properties} {majors : Option (List Int)} {unknown : Text → ContractError}
    {typeName version : Text} {payload : Raw} {e : ContractError} :
    resolveAndValidate registry majors unknown typeName version payload = .error (.contract e) ↔
      Unresolved registry majors unknown typeName version payload e := by
  rw [resolveAndValidate_eq]
  cases groups : versionGroups version with
  | none =>
    rw [parseSchemaVersion_of_none groups]
    constructor
    · intro raised
      cases raised
      exact .malformed groups
    · intro met
      cases met with
      | malformed => rfl
      | unknown other => rw [groups] at other; cases other
      | unsupported other => rw [groups] at other; cases other
      | payload other => rw [groups] at other; cases other
  | some pair =>
    obtain ⟨major, minor⟩ := pair
    have unique : ∀ {a b : Text}, versionGroups version = some (a, b) → a = major ∧ b = minor := by
      intro a b other
      rw [groups] at other
      cases other
      exact ⟨rfl, rfl⟩
    rw [parseSchemaVersion_of_some groups]
    by_cases short : major.length ≤ maxStrDigits ∧ minor.length ≤ maxStrDigits
    · rw [if_pos short]
      change validateMajor registry majors unknown typeName version payload (digitsValue major) =
        .error (.contract e) ↔ _
      rw [validateMajor_eq_contract_iff]
      constructor
      · rintro (⟨none', rfl⟩ | ⟨some', absent, printable, rfl⟩ |
          ⟨some', listed, validator, found, errors, rfl⟩)
        · exact .unknown groups short none'
        · exact .unsupported groups short some' rfl absent printable
        · exact .payload groups short some' listed found errors
      · intro met
        cases met with
        | malformed other => rw [groups] at other; cases other
        | unknown _ _ none' => exact .inl ⟨none', rfl⟩
        | unsupported other _ some' same absent printable =>
          obtain ⟨rfl, rfl⟩ := unique other
          subst same
          exact .inr (.inl ⟨some', absent, printable, rfl⟩)
        | payload other _ some' listed found errors =>
          obtain ⟨rfl, rfl⟩ := unique other
          exact .inr (.inr ⟨some', listed, _, found, errors, rfl⟩)
    · rw [if_neg short]
      refine iff_of_false (fun raised => by cases raised) fun met => ?_
      cases met with
      | malformed other => rw [groups] at other; cases other
      | unknown other fits =>
        obtain ⟨rfl, rfl⟩ := unique other
        exact short fits
      | unsupported other fits =>
        obtain ⟨rfl, rfl⟩ := unique other
        exact short fits
      | payload other fits =>
        obtain ⟨rfl, rfl⟩ := unique other
        exact short fits

inductive Rejected (registry : EventRegistry) (digest : ByteArray → Text) (majors : Option (List Int))
    (event : Raw) : ContractError → Prop
  | envelope : closedObject eventProperties event = false →
      Rejected registry digest majors event
        (.envelopeValidation (envelopeErrors registry.envelopeValidator event))
  | tooLarge {payload : Raw} {bytes : ByteArray} : closedObject eventProperties event = true →
      event.get? "payload" = some payload → canonicalJsonBytes payload = some bytes →
      maxPayloadBytes < bytes.size →
      Rejected registry digest majors event (.payloadTooLarge bytes.size)
  | mismatch {payload integrity : Raw} {bytes : ByteArray} {hash : Text} :
      closedObject eventProperties event = true →
      event.get? "payload" = some payload → canonicalJsonBytes payload = some bytes →
      bytes.size ≤ maxPayloadBytes → event.get? "integrity" = some integrity →
      integrity.get? "sha256" = some (.str hash) → digest bytes ≠ hash →
      Rejected registry digest majors event (.integrityMismatch hash (digest bytes))
  | unresolved {payload : Raw} {bytes : ByteArray} {eventType version : Text} {e : ContractError} :
      closedObject eventProperties event = true → Intact digest event payload bytes →
      event.get? "event_type" = some (.str eventType) →
      event.get? "schema_version" = some (.str version) →
      Unresolved registry majors .unknownEventType eventType version payload e →
      Rejected registry digest majors event e

theorem checkIntegrity_eq_contract {digest : ByteArray → Text} {event : Raw}
    (readable : Readable event) {e : ContractError}
    (raised : checkIntegrity digest event = .error (.contract e)) :
    (∃ payload bytes, event.get? "payload" = some payload ∧ canonicalJsonBytes payload = some bytes ∧
      maxPayloadBytes < bytes.size ∧ e = .payloadTooLarge bytes.size) ∨
    ∃ payload bytes integrity hash, event.get? "payload" = some payload ∧
      canonicalJsonBytes payload = some bytes ∧ bytes.size ≤ maxPayloadBytes ∧
      event.get? "integrity" = some integrity ∧ integrity.get? "sha256" = some (.str hash) ∧
      digest bytes ≠ hash ∧ e = .integrityMismatch hash (digest bytes) := by
  obtain ⟨payload, atPayload⟩ := readable.payload
  obtain ⟨integrity, hash, atIntegrity, atHash⟩ := readable.integrity
  rw [checkIntegrity_eq atPayload atIntegrity atHash] at raised
  split at raised
  next => cases raised
  next bytes encoded =>
    split at raised
    next size =>
      split at raised
      next => cases raised
      next apart =>
        cases raised
        exact .inr ⟨payload, bytes, integrity, hash, atPayload, encoded, size, atIntegrity, atHash,
          apart, rfl⟩
    next size =>
      cases raised
      exact .inl ⟨payload, bytes, atPayload, encoded, Nat.lt_of_not_le size, rfl⟩

theorem validateEvent_eq_contract_iff {registry : EventRegistry} {digest : ByteArray → Text}
    {majors : Option (List Int)} {event : Raw} {e : ContractError} :
    validateEvent registry digest majors event = .error (.contract e) ↔
      Rejected registry digest majors event e := by
  simp only [validateEvent, bind_eq_error, checkEnvelope_eq_ok, checkIntegrity_eq_ok, textItem_eq_ok,
    resolveAndValidate_eq_contract_iff]
  constructor
  · rintro (early | ⟨-, admitted, late⟩)
    · obtain ⟨some', equal⟩ := require_eq_error.mp early
      cases equal
      refine .envelope ?_
      rw [decide_eq_false_iff_not, envelopeErrors_eq_nil_iff,
        registry.envelopeValidator_eq_nil_iff] at some'
      exact Bool.eq_false_iff.mpr some'
    · have readable := readable_of_admitted admitted
      rcases late with raised | ⟨payload, ⟨bytes, intact⟩, late⟩
      · rcases checkIntegrity_eq_contract readable raised with
          ⟨payload, bytes, found, encoded, size, rfl⟩ |
          ⟨payload, bytes, integrity, hash, found, encoded, size, atIntegrity, atHash, apart, rfl⟩
        · exact .tooLarge admitted found encoded size
        · exact .mismatch admitted found encoded size atIntegrity atHash apart
      · rcases late with raised | ⟨eventType, atType, late⟩
        · obtain ⟨t, found⟩ := readable.eventType
          rw [textItem_eq_ok.mpr found] at raised
          cases raised
        rcases late with raised | ⟨version, atVersion, late⟩
        · obtain ⟨t, found⟩ := readable.version
          rw [textItem_eq_ok.mpr found] at raised
          cases raised
        rcases late with met | ⟨major, -, returned⟩
        · exact .unresolved admitted intact atType atVersion met
        · cases returned
  · intro met
    cases met with
    | envelope refused =>
      refine .inl (require_eq_error.mpr ⟨?_, rfl⟩)
      rw [decide_eq_false_iff_not, envelopeErrors_eq_nil_iff, registry.envelopeValidator_eq_nil_iff,
        refused]
      decide
    | tooLarge admitted found encoded size =>
      obtain ⟨integrity, hash, atIntegrity, atHash⟩ := (readable_of_admitted admitted).integrity
      refine .inr ⟨(), admitted, .inl ?_⟩
      rw [checkIntegrity_eq found atIntegrity atHash, encoded]
      simp only [if_neg (Nat.not_le_of_lt size)]
    | mismatch admitted found encoded size atIntegrity atHash apart =>
      refine .inr ⟨(), admitted, .inl ?_⟩
      rw [checkIntegrity_eq found atIntegrity atHash, encoded]
      simp only [if_pos size, if_neg apart]
    | unresolved admitted intact atType atVersion met =>
      exact .inr ⟨(), admitted, .inr ⟨_, ⟨_, intact⟩, .inr ⟨_, atType, .inr ⟨_, atVersion, .inl met⟩⟩⟩⟩

inductive Refusal where
  | unauthenticated
  | forbidden
  | unknownAgent

def Refusal.status : Refusal → ℕ
  | unauthenticated => 401
  | forbidden => 403
  | unknownAgent => 404

/-- One call of the endpoint: whether it was refused before its body was read,
the body, the time of receipt, what the database holds for the agent, and
whether an accepted event was published and stored. -/
structure Submission where
  refused : Option Refusal
  agentId : Text
  body : List (Text × Raw)
  now : Text
  lastSequence : Int
  receipt : Int → Option Text
  stored : Bool

namespace Submission
variable (sub : Submission)

def field (name : String) : Option Raw := (Raw.obj sub.body).get? name

def event : Raw := (Raw.obj sub.body).set "ingest_time" (.str sub.now)

end Submission

def hashable : Option Raw → Bool
  | some (.arr _) | some (.obj _) => false
  | _ => true

def isText : Option Raw → Text → Bool
  | some (.str s), t => s = t
  | _, _ => false

def allowedTelemetryEventTypes : List String :=
  ["spider.observation", "spider.tamper", "spider.fingerprint_snapshot"]

def submittable (eventType : Option Raw) : Bool :=
  allowedTelemetryEventTypes.any fun s => isText eventType (text s)

/-- A boolean is an `int`, but Postgres does not compare it with a BIGINT. -/
def sequenceOf : Option Raw → Except ℕ Int
  | some (.int n) => .ok n
  | some (.bool _) => .error 500
  | _ => .error 400

def maxMessage : ℕ := 1024

/-- `contract_error_handler`, whose `ApiError` takes a message of 1 to 1024
characters; any other exception is answered with 500. -/
def failureStatus (printable : CodePoint → Bool) : Failure → ℕ
  | .contract e =>
    let length := (e.message printable).length
    if 1 ≤ length ∧ length ≤ maxMessage then 400 else 500
  | _ => 500

section
variable (registry : EventRegistry) (digest : ByteArray → Text) (printable : CodePoint → Bool)
  (sub : Submission)

def submitTelemetry : Except ℕ Unit :=
  match sub.refused with
  | some refusal => .error refusal.status
  | none => do
    require (hashable (sub.field "event_type")) 500
    require (submittable (sub.field "event_type")) 400
    require (isText (sub.field "source_id") sub.agentId) 403
    let sequence ← sequenceOf (sub.field "sequence")
    match sub.receipt sequence with
    | some eventId => require (isText (sub.field "event_id") eventId) 409
    | none => do
      require (sub.lastSequence < sequence) 409
      match validateEvent registry digest none sub.event with
      | .ok _ => require sub.stored 500
      | .error failure => .error (failureStatus printable failure)

def status : Except ℕ Unit → ℕ
  | .ok _ => 202
  | .error n => n

/-- An event that `validate_event` does not accept is not answered with 500. -/
def Answered : Prop :=
  (validateEvent registry digest none sub.event).isOk = false →
    status (submitTelemetry registry digest printable sub) ≠ 500

structure Reaches : Prop where
  authorised : sub.refused = none
  submittable : submittable (sub.field "event_type") = true
  source : isText (sub.field "source_id") sub.agentId = true
  sequence : ∃ n, sub.field "sequence" = some (.int n) ∧ sub.receipt n = none ∧ sub.lastSequence < n

structure TelemetryAnswerable : Prop where
  hashable : sub.refused = none → hashable (sub.field "event_type") = true
  sequence : sub.refused = none → submittable (sub.field "event_type") = true →
    isText (sub.field "source_id") sub.agentId = true → ∀ b, sub.field "sequence" ≠ some (.bool b)
  content : Reaches sub → EventAnswerable registry digest none sub.event
  message : Reaches sub → ∀ e, Rejected registry digest none sub.event e →
    (e.message printable).length ≤ maxMessage

theorem message_pos (e : ContractError) : 1 ≤ (e.message printable).length := by
  cases e <;> simp [ContractError.message, reprText, text]

theorem failureStatus_ne_iff (failure : Failure) :
    failureStatus printable failure ≠ 500 ↔
      ∃ e, failure = .contract e ∧ (e.message printable).length ≤ maxMessage := by
  cases failure with
  | contract e =>
    simp only [failureStatus, message_pos printable e, true_and, Failure.contract.injEq, exists_eq_left']
    split
    next short => simp [short]
    next long => simp [long]
  | _ => simp [failureStatus]

theorem submitTelemetry_of_reaches {sub : Submission} (reaches : Reaches sub) :
    submitTelemetry registry digest printable sub =
      match validateEvent registry digest none sub.event with
      | .ok _ => require sub.stored 500
      | .error failure => .error (failureStatus printable failure) := by
  obtain ⟨n, numbered, free, above⟩ := reaches.sequence
  have hashed : hashable (sub.field "event_type") = true := by
    have named := reaches.submittable
    unfold hashable
    split
    · rename_i field
      rw [field] at named
      revert named
      simp [submittable, isText]
    · rename_i field
      rw [field] at named
      revert named
      simp [submittable, isText]
    · rfl
  rw [submitTelemetry, reaches.authorised]
  simp only [hashed, reaches.submittable, reaches.source, numbered, sequenceOf, require_true, bind,
    Except.bind, free, above, decide_true]

theorem field_event {name : String} (other : text name ≠ text "ingest_time") :
    sub.event.get? name = sub.field name := get?_set _ _ other

theorem fields_of_valid {sub : Submission}
    (valid : (validateEvent registry digest none sub.event).isOk = true) :
    (∃ t, sub.field "event_type" = some (.str t)) ∧ ∀ b, sub.field "sequence" ≠ some (.bool b) := by
  cases outcome : validateEvent registry digest none sub.event with
  | error failure =>
    rw [outcome] at valid
    cases valid
  | ok verdict =>
    have admitted := (validateEvent_spec outcome).admitted
    have listed : ∀ {i : ℕ} {p : String × (Raw → Bool)}, eventProperties[i]? = some p →
        p ∈ eventProperties := List.mem_of_getElem?
    obtain ⟨number, atNumber, numeric⟩ := property_of_closedObject admitted (listed (i := 8) rfl)
    have named := (readable_of_admitted admitted).eventType
    rw [field_event sub (by decide)] at named atNumber
    refine ⟨named, fun b found => ?_⟩
    rw [atNumber, Option.some.injEq] at found
    rw [found] at numeric
    cases numeric

theorem sequenceOf_ok {v : Option Raw} {n : Int} (numbered : sequenceOf v = .ok n) :
    v = some (.int n) := by
  unfold sequenceOf at numbered
  split at numbered <;> cases numbered
  rfl

theorem sequenceOf_error {v : Option Raw} {n : ℕ} (raised : sequenceOf v = .error n)
    (other : ∀ b, v ≠ some (.bool b)) : n ≠ 500 := by
  unfold sequenceOf at raised
  split at raised
  · cases raised
  · exact absurd rfl (other _)
  · cases raised
    decide

theorem answered_iff : Answered registry digest printable sub ↔
    TelemetryAnswerable registry digest printable sub := by
  constructor
  · intro answered
    refine ⟨fun authorised => ?_, fun authorised named source b numbered => ?_, fun reaches => ?_,
      fun reaches e met => ?_⟩
    · by_contra unhashed
      have invalid : (validateEvent registry digest none sub.event).isOk = false := by
        by_contra valid
        obtain ⟨⟨t, named⟩, -⟩ := fields_of_valid registry digest (Bool.not_eq_false _ ▸ valid)
        rw [named] at unhashed
        exact unhashed rfl
      apply answered invalid
      rw [submitTelemetry, authorised, Bool.eq_false_iff.mpr unhashed]
      rfl
    · have invalid : (validateEvent registry digest none sub.event).isOk = false := by
        by_contra valid
        exact (fields_of_valid registry digest (Bool.not_eq_false _ ▸ valid)).2 b numbered
      have hashed : hashable (sub.field "event_type") = true := by
        by_contra unhashed
        apply answered invalid
        rw [submitTelemetry, authorised, Bool.eq_false_iff.mpr unhashed]
        rfl
      apply answered invalid
      rw [submitTelemetry, authorised]
      simp only [hashed, named, source, numbered, sequenceOf, require_true, bind, Except.bind, status]
    · rw [← typed_validateEvent_iff]
      intro failure raised
      rw [Answered, submitTelemetry_of_reaches registry digest printable reaches, raised] at answered
      obtain ⟨e, equal, -⟩ := (failureStatus_ne_iff printable failure).mp (answered rfl)
      exact ⟨e, equal⟩
    · have raised := validateEvent_eq_contract_iff.mpr met
      rw [Answered, submitTelemetry_of_reaches registry digest printable reaches, raised] at answered
      obtain ⟨e', equal, short⟩ := (failureStatus_ne_iff printable (.contract e)).mp (answered rfl)
      rw [Failure.contract.injEq] at equal
      rw [equal]
      exact short
  · rintro ⟨hashed, unnumbered, content, message⟩ invalid
    cases authorised : sub.refused with
    | some refusal =>
      rw [submitTelemetry, authorised]
      change refusal.status ≠ 500
      cases refusal <;> decide
    | none =>
      by_cases named : submittable (sub.field "event_type") = true
      · by_cases source : isText (sub.field "source_id") sub.agentId = true
        · cases numbered : sequenceOf (sub.field "sequence") with
          | error n =>
            rw [submitTelemetry, authorised]
            simp only [hashed authorised, named, source, numbered, require_true, bind, Except.bind,
              status]
            exact sequenceOf_error numbered (unnumbered authorised named source)
          | ok n =>
            cases known : sub.receipt n with
            | some eventId =>
              rw [submitTelemetry, authorised]
              simp only [hashed authorised, named, source, numbered, known, require_true, bind,
                Except.bind]
              cases isText (sub.field "event_id") eventId <;> decide
            | none =>
              by_cases above : sub.lastSequence < n
              · have reaches : Reaches sub :=
                  ⟨authorised, named, source, n, sequenceOf_ok numbered, known, above⟩
                rw [submitTelemetry_of_reaches registry digest printable reaches]
                have typed := (typed_validateEvent_iff registry digest none sub.event).mpr
                  (content reaches)
                cases outcome : validateEvent registry digest none sub.event with
                | ok verdict =>
                  rw [outcome] at invalid
                  cases invalid
                | error failure =>
                  obtain ⟨e, rfl⟩ := typed failure outcome
                  exact (failureStatus_ne_iff printable (.contract e)).mpr
                    ⟨e, rfl, message reaches e (validateEvent_eq_contract_iff.mp outcome)⟩
              · rw [submitTelemetry, authorised]
                simp only [hashed authorised, named, source, numbered, known, require_true, bind,
                  Except.bind, above, decide_false, require_false, status]
                decide
        · rw [submitTelemetry, authorised]
          rw [hashed authorised, named, Bool.eq_false_iff.mpr source]
          change (403 : ℕ) ≠ 500
          decide
      · rw [submitTelemetry, authorised]
        rw [hashed authorised, Bool.eq_false_iff.mpr named]
        change (400 : ℕ) ≠ 500
        decide

/-- `validate_event` and `validate_command` stay within contract errors exactly
on the answerable inputs, and the endpoint answers no invalid event with 500
exactly on the answerable submissions. -/
theorem rejection_typed_iff (commands : CommandRegistry) :
    (∀ majors event, Typed (validateEvent registry digest majors event) ↔
      EventAnswerable registry digest majors event) ∧
    (∀ majors command, Typed (validateCommand commands majors command) ↔
      CommandAnswerable commands majors command) ∧
    ∀ sub, Answered registry digest printable sub ↔
      TelemetryAnswerable registry digest printable sub :=
  ⟨typed_validateEvent_iff registry digest, typed_validateCommand_iff commands,
    answered_iff registry digest printable⟩

end

/-- An event of the contract's form whose payload holds the text "\ud800". -/
def surrogateEvent : Raw :=
  CanonicalInjective.sampleEvent.set "payload"
    (.obj [(text "detail", .str [⟨0xD800, by decide⟩])])

/-- The UTF-8 encoder raises before the hash is compared. -/
theorem surrogate_untyped :
    closedObject eventProperties surrogateEvent = true ∧
    ¬ Typed (validateEvent CanonicalInjective.sampleRegistry CanonicalInjective.sampleDigest none
      surrogateEvent) := by
  have admitted : closedObject eventProperties surrogateEvent = true := by decide +kernel
  refine ⟨admitted, fun typed => ?_⟩
  have answerable := (typed_validateEvent_iff _ _ _ _).mp typed
  have scalar := answerable.scalar admitted _ (get?_set_self (eventOf_payload _ _ _ _) _)
  cases scalar

end Mirage.ContractTotality
