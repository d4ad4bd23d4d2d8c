import Mirage.CaseStateMachine
import Mirage.EventRun
import Mirage.UniqueIndex

/-! detection_correlation and mirage-worker's detection adapter. -/

namespace Mirage.DetectionCorrelation
open EventEnvelope AuditOutbox UniqueIndex

def consumerName : String := "mirage-detection-adapter"

structure Externals where
  digest : String → String
  /-- What psycopg sends for a value where the statement needs a text: `none`
  where the statement raises, `some none` for NULL. -/
  param : Json → Option (Option String)
  /-- A text is sent as it is, unless it cannot be sent. -/
  param_str : ∀ value sent, param (.str value) = some sent → sent = some value
  format : Json → String

structure Detection where
  detectionEventId : Json
  detector : Json
  signatureId : Json
  severity : Json
  confidence : Json
  correlationKey : Json
  sourceRef : Json

def firstSourceRef : Json → Option Json
  | .arr (ref :: _) => some ref
  | .str value =>
    match value.toList with
    | [] => some (.str "")
    | c :: _ => some (.str (String.ofList [c]))
  | .arr [] | .obj [] | .null | .bool false | .int 0 | .float _ (some 0) => some (.str "")
  | _ => none

def readDetection (envelope : Json) : Option Detection := do
  let payload ← envelope.get? "payload"
  let detectionEventId ← envelope.get? "event_id"
  let detector ← payload.get? "detector"
  let signatureId ← payload.get? "signature_id"
  let severity ← payload.get? "severity"
  let confidence ← payload.get? "confidence"
  let correlationKey ← payload.get? "correlation_key"
  let sourceRefs ← payload.get? "source_refs"
  let sourceRef ← firstSourceRef sourceRefs
  return { detectionEventId, detector, signatureId, severity, confidence, correlationKey, sourceRef }

structure CaseRow extends CaseStateMachine.CaseRow where
  severity : String
  correlationKey : Option String

structure ProcessedRow where
  consumerName : String
  eventId : String
  resultHash : String

structure CorrelationResult where
  caseId : String
  created : Bool
  alreadyProcessed : Bool
  deriving DecidableEq

/-- The next statement of a call of `correlate_detection`. -/
inductive Stage where
  | selectProcessed
  /-- The detection was processed before, and its case is looked up. -/
  | selectKnown
  | selectCase
  | auditCorrelated (caseId : String)
  | insertCase
  | insertEvent (caseId : String)
  | auditCreated (caseId : String)
  | insertProcessed (caseId : String) (created : Bool)
  | commit (result : CorrelationResult)

structure Correlation where
  detection : Detection
  stage : Stage
  newCase : Option CaseRow
  event : Option OutboxRow
  audit : Option AuditRow
  processed : Option ProcessedRow

def caseIdOf (t : Correlation) : Option String := t.newCase.map fun row => row.caseId

def correlationKeyOf (t : Correlation) : Option String := t.newCase.bind fun row => row.correlationKey

def eventIdOf (t : Correlation) : Option String := t.event.map fun row => row.eventId

def processedOf (t : Correlation) : Option (String × String) :=
  t.processed.map fun row => (row.consumerName, row.eventId)

variable {n : ℕ}

abbrev System (n : ℕ) := Store n Correlation

def cases (s : System n) : List CaseRow := s.committed.filterMap Correlation.newCase

def outboxEvents (s : System n) : List OutboxRow := s.committed.filterMap Correlation.event

def auditEvents (s : System n) : List AuditRow := s.committed.filterMap Correlation.audit

def processedEvents (s : System n) : List ProcessedRow := s.committed.filterMap Correlation.processed

structure Draw where
  caseId : String
  eventId : String
  now : String

inductive Outcome where
  | goes (t : Correlation)
  | waits
  | raises

def settle (t : Correlation) : Verdict → Outcome
  | .free => .goes t
  | .waits => .waits
  | .taken => .raises

def both : Verdict → Verdict → Verdict
  | .taken, _ | _, .taken => .taken
  | .waits, _ | _, .waits => .waits
  | .free, .free => .free

/-- `SELECT case_id FROM cases WHERE correlation_key = …`; NULL equals nothing. -/
def caseFor (s : System n) (key : Option String) : Option String :=
  key.bind fun key =>
    ((cases s).find? fun row => row.correlationKey = some key).map fun row => row.caseId

def isProcessed (s : System n) (eventId : Option String) : Bool :=
  eventId.any fun eventId =>
    (processedEvents s).any fun row => row.consumerName = consumerName && row.eventId = eventId

def isUlid (caseId : String) : Bool := ulidPattern caseId && !caseId.toList.contains '\n'

def auditRow (x : Externals) (d : Detection) (action target detail : String) : Option AuditRow :=
  match x.param d.detectionEventId, x.param (.str detail) with
  | some (some correlationId), some detail =>
    some ⟨consumerName, "SYSTEM", action, target, "SUCCESS", correlationId, detail⟩
  | _, _ => none

def correlatedDetail (x : Externals) (d : Detection) : String :=
  x.format d.detector ++ ":" ++ x.format d.signatureId ++ " (" ++ x.format d.sourceRef ++ ")"

def createdDetail (x : Externals) (d : Detection) : String :=
  x.format d.detector ++ ":" ++ x.format d.signatureId ++ " confidence=" ++ x.format d.confidence ++
    " (" ++ x.format d.sourceRef ++ ")"

def createdPayload (d : Detection) (caseId : String) : Json :=
  .obj
    [ ("case_id", .str caseId), ("severity", d.severity), ("correlation_key", d.correlationKey),
      ("source_detection_ids", .arr [d.detectionEventId]), ("initial_state", .str "CREATED") ]

def caseCreatedEvent (x : Externals) (d : Detection) (caseId : String) (draw : Draw) : Json :=
  buildEvent x.digest draw.eventId draw.now
    { eventType := "case.created", payload := createdPayload d caseId, sourceId := consumerName,
      sequence := 1, actorType := "SYSTEM", classification := "INTERNAL", caseId := some caseId,
      sessionId := none }

/-- The next statement of adapter `i`, and the code up to the one after it. -/
def statement (x : Externals) (s : System n) (i : Fin n) (t : Correlation) (draw : Draw) : Outcome :=
  let d := t.detection
  match t.stage with
  | .selectProcessed =>
    match x.param d.detectionEventId with
    | none => .raises
    | some eventId =>
      .goes { t with stage := if isProcessed s eventId then .selectKnown else .selectCase }
  | .selectKnown =>
    match x.param d.correlationKey with
    | none => .raises
    | some key => .goes { t with stage := .commit ⟨(caseFor s key).getD "", false, true⟩ }
  | .selectCase =>
    match x.param d.correlationKey with
    | none => .raises
    | some key =>
      match caseFor s key with
      | some caseId => .goes { t with stage := .auditCorrelated caseId }
      | none => .goes { t with stage := .insertCase }
  | .auditCorrelated caseId =>
    match auditRow x d "detection.correlated_to_existing_case" caseId (correlatedDetail x d) with
    | some row => .goes { t with audit := some row, stage := .insertProcessed caseId false }
    | none => .raises
  | .insertCase =>
    match x.param d.severity, x.param d.correlationKey with
    | some (some severity), some key =>
      if severity ∈ severities && isUlid draw.caseId then
        settle
          { t with
            newCase := some ⟨⟨draw.caseId, .created, 1⟩, severity, key⟩
            stage := .insertEvent draw.caseId }
          (both (check caseIdOf s i (some draw.caseId)) (check correlationKeyOf s i key))
      else .raises
    | _, _ => .raises
  | .insertEvent caseId =>
    match validateEvent x.digest (caseCreatedEvent x d caseId draw), subjectForEventType "case.created" with
    | .ok validated, some topic =>
      let row := outboxRow topic validated.envelope
      settle { t with event := some row, stage := .auditCreated caseId }
        (check eventIdOf s i (some row.eventId))
    | _, _ => .raises
  | .auditCreated caseId =>
    match auditRow x d "case.created" caseId (createdDetail x d) with
    | some row => .goes { t with audit := some row, stage := .insertProcessed caseId true }
    | none => .raises
  | .insertProcessed caseId created =>
    match x.param d.detectionEventId with
    | some (some eventId) =>
      settle
        { t with
          processed := some ⟨consumerName, eventId, caseId⟩
          stage := .commit ⟨caseId, created, false⟩ }
        (check processedOf s i (some (consumerName, eventId)))
    | _ => .raises
  | .commit _ => .waits

inductive Event (n : ℕ) where
  /-- A message reaches the handler of adapter `i`. -/
  | deliver (i : Fin n) (message : Json)
  | next (i : Fin n) (draw : Draw)
  | commit (i : Fin n)
  | fail (i : Fin n)

def Event.adapter : Event n → Fin n
  | deliver i _ | next i _ | commit i | fail i => i

def begun (d : Detection) : Correlation := ⟨d, .selectProcessed, none, none, none, none⟩

def step (x : Externals) (s : System n) : Event n → System n
  | .deliver i message =>
    match s.opened i, readDetection message with
    | none, some d => s.set i (begun d)
    | _, _ => s
  | .next i draw =>
    match s.opened i with
    | none => s
    | some t =>
      match statement x s i t draw with
      | .goes t' => s.set i t'
      | .waits => s
      | .raises => s.rollBack i
  | .commit i =>
    match s.opened i with
    | some ⟨d, .commit r, newCase, event, audit, processed⟩ =>
      s.commit i ⟨d, .commit r, newCase, event, audit, processed⟩
    | _ => s
  | .fail i => s.rollBack i

def start (n : ℕ) : System n := ⟨[], fun _ => none⟩

/-! What a transaction has written, by its stage. -/

def Blank (t : Correlation) : Prop :=
  t.newCase = none ∧ t.event = none ∧ t.audit = none ∧ t.processed = none

def CaseWritten (x : Externals) (t : Correlation) (caseId : String) : Prop :=
  ∃ row, t.newCase = some row ∧ row.caseId = caseId ∧
    x.param t.detection.correlationKey = some row.correlationKey

def EventWritten (t : Correlation) (caseId : String) : Prop :=
  ∃ row, t.event = some row ∧ row.topic = "investigation.case.created" ∧
    row.payload.get? "payload" = some (createdPayload t.detection caseId) ∧
    ∃ key, t.detection.correlationKey = .str key

def NewCase (x : Externals) (t : Correlation) (caseId : String) : Bool → Prop
  | true => CaseWritten x t caseId ∧ EventWritten t caseId
  | false => t.newCase = none ∧ t.event = none

def AuditWritten (x : Externals) (t : Correlation) (caseId : String) : Prop :=
  ∃ row, t.audit = some row ∧ row.actor = consumerName ∧ row.target = caseId ∧
    x.param t.detection.detectionEventId = some (some row.correlationId)

def ProcessedWritten (x : Externals) (t : Correlation) (caseId : String) : Prop :=
  ∃ eventId, x.param t.detection.detectionEventId = some (some eventId) ∧
    t.processed = some ⟨consumerName, eventId, caseId⟩

def Written (x : Externals) (t : Correlation) : Prop :=
  match t.stage with
  | .insertEvent caseId =>
    CaseWritten x t caseId ∧ t.event = none ∧ t.audit = none ∧ t.processed = none
  | .auditCreated caseId => NewCase x t caseId true ∧ t.audit = none ∧ t.processed = none
  | .insertProcessed caseId created =>
    NewCase x t caseId created ∧ AuditWritten x t caseId ∧ t.processed = none
  | .commit ⟨_, created, true⟩ => Blank t ∧ created = false
  | .commit ⟨caseId, created, false⟩ =>
    NewCase x t caseId created ∧ AuditWritten x t caseId ∧ ProcessedWritten x t caseId
  | _ => Blank t

def InCase (x : Externals) (s : System n) (d : Detection) (caseId : String) : Prop :=
  ∃ key, x.param d.correlationKey = some (some key) ∧
    ∃ row ∈ cases s, row.correlationKey = some key ∧ row.caseId = caseId

def Processed (x : Externals) (s : System n) (d : Detection) (h : Correlation) : Prop :=
  h ∈ s.committed ∧ ∃ row, h.processed = some row ∧ x.param d.detectionEventId = some (some row.eventId)

def Grounded (x : Externals) (s : System n) (t : Correlation) : Prop :=
  match t.stage with
  | .selectKnown => ∃ h, Processed x s t.detection h
  | .auditCorrelated caseId => InCase x s t.detection caseId
  | .insertProcessed caseId false => InCase x s t.detection caseId
  | .commit ⟨caseId, _, true⟩ => ∃ h, Processed x s t.detection h ∧
      (h.detection = t.detection → InCase x s t.detection caseId)
  | .commit ⟨caseId, false, false⟩ => InCase x s t.detection caseId
  | _ => True

def correlatedTo (t : Correlation) : Option String :=
  match t.stage with
  | .commit ⟨caseId, _, false⟩ => some caseId
  | _ => none

structure Sound (x : Externals) (s : System n) : Prop where
  caseIds : Unique caseIdOf s
  correlationKeys : Unique correlationKeyOf s
  eventIds : Unique eventIdOf s
  processed : Unique processedOf s
  opened : ∀ i t, s.opened i = some t → Written x t ∧ Grounded x s t
  committed : ∀ t ∈ s.committed, Written x t ∧ Grounded x s t ∧ ∃ r, t.stage = .commit r
  /-- A detection joins a case that was there before it. -/
  led : ∀ front t back caseId, s.committed = front ++ t :: back → correlatedTo t = some caseId →
    t.newCase = none → ∃ h ∈ front, caseIdOf h = some caseId

theorem caseFor_some {s : System n} {key : Option String} {caseId : String}
    (h : caseFor s key = some caseId) :
    ∃ key', key = some key' ∧ ∃ row ∈ cases s, row.correlationKey = some key' ∧ row.caseId = caseId := by
  simp only [caseFor, Option.bind_eq_some_iff, Option.map_eq_some_iff] at h
  obtain ⟨key', rfl, row, found, rfl⟩ := h
  refine ⟨key', rfl, row, List.mem_of_find?_eq_some found, ?_, rfl⟩
  simpa using List.find?_some found

theorem caseFor_none {s : System n} {key : String} (h : caseFor s (some key) = none)
    {row : CaseRow} (mem : row ∈ cases s) : row.correlationKey ≠ some key := by
  simp only [caseFor, Option.bind_some, Option.map_eq_none_iff, List.find?_eq_none,
    decide_eq_true_eq] at h
  exact h row mem

theorem mem_cases {s : System n} {row : CaseRow} :
    row ∈ cases s ↔ ∃ t ∈ s.committed, t.newCase = some row := List.mem_filterMap

theorem isProcessed_iff {s : System n} {eventId : Option String} :
    isProcessed s eventId = true ↔ ∃ h ∈ s.committed, ∃ row, h.processed = some row ∧
      row.consumerName = consumerName ∧ eventId = some row.eventId := by
  cases eventId with
  | none => simp [isProcessed]
  | some eventId =>
    simp only [isProcessed, processedEvents, Option.any_some, List.any_eq_true, List.mem_filterMap,
      Bool.and_eq_true, decide_eq_true_eq, Option.some.injEq]
    constructor
    · rintro ⟨row, ⟨h, mem, wrote⟩, name, same⟩
      exact ⟨h, mem, row, wrote, name, same.symm⟩
    · rintro ⟨h, mem, row, wrote, name, same⟩
      exact ⟨row, ⟨h, mem, wrote⟩, name, same.symm⟩

/-! What was read stays true while others commit. -/

theorem InCase.mono {x : Externals} {s s' : System n} (grows : s.committed ⊆ s'.committed)
    {d : Detection} {caseId : String} (h : InCase x s d caseId) : InCase x s' d caseId := by
  obtain ⟨key, sent, row, mem, rest⟩ := h
  obtain ⟨t, inside, wrote⟩ := mem_cases.mp mem
  exact ⟨key, sent, row, mem_cases.mpr ⟨t, grows inside, wrote⟩, rest⟩

theorem Processed.mono {x : Externals} {s s' : System n} (grows : s.committed ⊆ s'.committed)
    {d : Detection} {h : Correlation} (processed : Processed x s d h) : Processed x s' d h :=
  ⟨grows processed.1, processed.2⟩

theorem Grounded.mono {x : Externals} {s s' : System n} (grows : s.committed ⊆ s'.committed)
    {t : Correlation} (grounded : Grounded x s t) : Grounded x s' t := by
  obtain ⟨d, stage, newCase, event, audit, processed⟩ := t
  cases stage with
  | selectKnown =>
    obtain ⟨h, known⟩ := grounded
    exact ⟨h, known.mono grows⟩
  | auditCorrelated caseId => exact InCase.mono grows grounded
  | insertProcessed caseId created =>
    cases created with
    | false => exact InCase.mono grows grounded
    | true => trivial
  | commit r =>
    obtain ⟨caseId, created, already⟩ := r
    cases already with
    | true =>
      obtain ⟨h, known, same⟩ := grounded
      exact ⟨h, known.mono grows, fun equal => (same equal).mono grows⟩
    | false =>
      cases created with
      | false => exact InCase.mono grows grounded
      | true => trivial
  | _ => trivial

theorem inCase_of_processed {x : Externals} {s : System n} (sound : Sound x s) {h : Correlation}
    (mem : h ∈ s.committed) {row : ProcessedRow} (wrote : h.processed = some row) :
    ∃ caseId, InCase x s h.detection caseId := by
  obtain ⟨written, grounded, r, at'⟩ := sound.committed h mem
  obtain ⟨d, stage, newCase, event, audit, processed⟩ := h
  cases at'
  obtain ⟨caseId, created, already⟩ := r
  cases already with
  | true =>
    have blank : processed = none := written.1.2.2.2
    rw [blank] at wrote
    cases wrote
  | false =>
    cases created with
    | false => exact ⟨caseId, grounded⟩
    | true =>
      obtain ⟨⟨case', new, same, sent⟩, _, _, _, _, key, text⟩ := written.1
      have sent' := sent
      rw [text] at sent'
      have keyed := x.param_str key _ sent'
      refine ⟨caseId, key, ?_, case', mem_cases.mpr ⟨_, mem, new⟩, keyed, same⟩
      rw [sent, keyed]

structure Indexed (s : System n) (i : Fin n) (t t' : Correlation) : Prop where
  caseId : caseIdOf t' = caseIdOf t ∨ check caseIdOf s i (caseIdOf t') = .free
  correlationKey : correlationKeyOf t' = correlationKeyOf t ∨
    check correlationKeyOf s i (correlationKeyOf t') = .free
  eventId : eventIdOf t' = eventIdOf t ∨ check eventIdOf s i (eventIdOf t') = .free
  processed : processedOf t' = processedOf t ∨ check processedOf s i (processedOf t') = .free

structure Goes (x : Externals) (s : System n) (i : Fin n) (t t' : Correlation) : Prop where
  written : Written x t'
  grounded : Grounded x s t'
  indexed : Indexed s i t t'

theorem settle_goes {t t' : Correlation} {v : Verdict} (h : settle t v = .goes t') :
    t' = t ∧ v = .free := by
  cases v with
  | free =>
    cases h
    exact ⟨rfl, rfl⟩
  | waits => cases h
  | taken => cases h

theorem both_free {v w : Verdict} (h : both v w = .free) : v = .free ∧ w = .free := by
  cases v <;> cases w <;> simp_all [both]

theorem auditRow_some {x : Externals} {d : Detection} {action target detail : String} {row : AuditRow}
    (h : auditRow x d action target detail = some row) :
    row.actor = consumerName ∧ row.target = target ∧
      x.param d.detectionEventId = some (some row.correlationId) := by
  unfold auditRow at h
  split at h
  next sent _ =>
    cases h
    exact ⟨rfl, rfl, sent⟩
  next => cases h

theorem caseCreatedEvent_valid {x : Externals} {d : Detection} {caseId : String} {draw : Draw}
    {v : ValidatedEvent} (valid : validateEvent x.digest (caseCreatedEvent x d caseId draw) = .ok v) :
    v.envelope.get? "payload" = some (createdPayload d caseId) ∧ ∃ key, d.correlationKey = .str key := by
  refine ⟨?_, ?_⟩
  · rw [(validateEvent_envelope valid).2]
    rfl
  · obtain ⟨schema, registered, accepted⟩ := validateEvent_payload valid
    have known : payloadSchema "case.created" = some schema := registered
    cases known
    obtain ⟨inner, found, admitted⟩ := Schema.required_of_rejected accepted
      (show "correlation_key" ∈ _ by decide) (show ("correlation_key", sized 1 256) ∈ _ by simp)
    obtain ⟨key, same, -⟩ := Schema.string_of_rejected admitted
    have here : (createdPayload d caseId).get? "correlation_key" = some inner := found
    cases here
    exact ⟨key, same⟩

theorem statement_goes {x : Externals} {s : System n} (sound : Sound x s) {i : Fin n}
    {t t' : Correlation} (found : s.opened i = some t) {draw : Draw}
    (h : statement x s i t draw = .goes t') : Goes x s i t t' := by
  obtain ⟨written, grounded⟩ := sound.opened i t found
  obtain ⟨d, stage, newCase, event, audit, processed⟩ := t
  cases stage with
  | selectProcessed =>
    simp only [statement] at h
    split at h
    · cases h
    next eventId sent =>
      cases h
      split
      next known =>
        obtain ⟨h, mem, row, wrote, -, same⟩ := isProcessed_iff.mp known
        refine ⟨written, ⟨h, mem, row, wrote, ?_⟩, ⟨.inl rfl, .inl rfl, .inl rfl, .inl rfl⟩⟩
        exact sent.trans (congrArg some same)
      next => exact ⟨written, trivial, ⟨.inl rfl, .inl rfl, .inl rfl, .inl rfl⟩⟩
  | selectKnown =>
    simp only [statement] at h
    split at h
    · cases h
    next key sent =>
      cases h
      obtain ⟨h, known⟩ := grounded
      refine ⟨⟨written, rfl⟩, ⟨h, known, fun same => ?_⟩, ⟨.inl rfl, .inl rfl, .inl rfl, .inl rfl⟩⟩
      obtain ⟨mem, row, wrote, -⟩ := known
      obtain ⟨caseId, key', sent', row', inside, keyed, -⟩ := inCase_of_processed sound mem wrote
      rw [same] at sent'
      have equal : key = some key' := Option.some.inj (sent.symm.trans sent')
      cases looked : caseFor s key with
      | none =>
        rw [equal] at looked
        exact absurd keyed (caseFor_none looked inside)
      | some caseId' =>
        obtain ⟨key'', rfl, found'⟩ := caseFor_some looked
        exact ⟨key'', sent, found'⟩
  | selectCase =>
    simp only [statement] at h
    split at h
    · cases h
    next key sent =>
      split at h
      next caseId looked =>
        cases h
        obtain ⟨key', rfl, found'⟩ := caseFor_some looked
        exact ⟨written, ⟨key', sent, found'⟩, ⟨.inl rfl, .inl rfl, .inl rfl, .inl rfl⟩⟩
      next =>
        cases h
        exact ⟨written, trivial, ⟨.inl rfl, .inl rfl, .inl rfl, .inl rfl⟩⟩
  | auditCorrelated caseId =>
    simp only [statement] at h
    split at h
    next row recorded =>
      cases h
      obtain ⟨actor, target, sent⟩ := auditRow_some recorded
      obtain ⟨noCase, noEvent, -, noProcessed⟩ := written
      refine ⟨⟨⟨noCase, noEvent⟩, ⟨row, rfl, actor, target, sent⟩, noProcessed⟩, grounded, ?_⟩
      exact ⟨.inl rfl, .inl rfl, .inl rfl, .inl rfl⟩
    next => cases h
  | insertCase =>
    simp only [statement] at h
    split at h
    next severity key _ sent =>
      split at h
      · obtain ⟨rfl, free⟩ := settle_goes h
        obtain ⟨freeId, freeKey⟩ := both_free free
        obtain ⟨-, noEvent, noAudit, noProcessed⟩ := written
        refine ⟨⟨⟨_, rfl, rfl, sent⟩, noEvent, noAudit, noProcessed⟩, trivial, ?_⟩
        exact ⟨.inr freeId, .inr freeKey, .inl rfl, .inl rfl⟩
      · cases h
    next => cases h
  | insertEvent caseId =>
    simp only [statement] at h
    split at h
    next validated topic valid mapped =>
      obtain ⟨rfl, free⟩ := settle_goes h
      obtain ⟨payload, key, text⟩ := caseCreatedEvent_valid valid
      obtain ⟨newCase, -, noAudit, noProcessed⟩ := written
      cases mapped
      refine ⟨⟨⟨newCase, _, rfl, rfl, payload, key, text⟩, noAudit, noProcessed⟩, trivial, ?_⟩
      exact ⟨.inl rfl, .inl rfl, .inr free, .inl rfl⟩
    next => cases h
  | auditCreated caseId =>
    simp only [statement] at h
    split at h
    next row recorded =>
      cases h
      obtain ⟨actor, target, sent⟩ := auditRow_some recorded
      obtain ⟨new, -, noProcessed⟩ := written
      refine ⟨⟨new, ⟨row, rfl, actor, target, sent⟩, noProcessed⟩, trivial, ?_⟩
      exact ⟨.inl rfl, .inl rfl, .inl rfl, .inl rfl⟩
    next => cases h
  | insertProcessed caseId created =>
    simp only [statement] at h
    split at h
    next eventId sent =>
      obtain ⟨rfl, free⟩ := settle_goes h
      obtain ⟨new, recorded, -⟩ := written
      refine ⟨⟨?_, recorded, ⟨eventId, sent, rfl⟩⟩, ?_, ⟨.inl rfl, .inl rfl, .inl rfl, .inr free⟩⟩
      · cases created with
        | true => exact new
        | false => exact new
      · cases created with
        | true => trivial
        | false => exact grounded
    next => cases h
  | commit r => cases h

theorem Sound.set {x : Externals} {s : System n} (sound : Sound x s) {i : Fin n} {t : Correlation}
    (caseIds : Unique caseIdOf (s.set i t)) (correlationKeys : Unique correlationKeyOf (s.set i t))
    (eventIds : Unique eventIdOf (s.set i t)) (processed : Unique processedOf (s.set i t))
    (new : Written x t ∧ Grounded x s t) : Sound x (s.set i t) := by
  refine ⟨caseIds, correlationKeys, eventIds, processed, fun j t' found => ?_, fun t' mem => ?_,
    sound.led⟩
  · rcases Store.opened_set found with ⟨rfl, rfl⟩ | ⟨-, before⟩
    · exact ⟨new.1, new.2.mono (List.Subset.refl _)⟩
    · obtain ⟨written, grounded⟩ := sound.opened j t' before
      exact ⟨written, grounded.mono (List.Subset.refl _)⟩
  · obtain ⟨written, grounded, done⟩ := sound.committed t' mem
    exact ⟨written, grounded.mono (List.Subset.refl _), done⟩

theorem unique_goes {κ : Type} [DecidableEq κ] {column : Correlation → Option κ} {s : System n}
    (unique : Unique column s) {i : Fin n} {t t' : Correlation} (found : s.opened i = some t)
    (key : column t' = column t ∨ check column s i (column t') = .free) :
    Unique column (s.set i t') := by
  rcases key with same | free
  · exact unique.set_same found same
  · exact unique.set_free free

theorem Sound.goes {x : Externals} {s : System n} (sound : Sound x s) {i : Fin n}
    {t t' : Correlation} (found : s.opened i = some t) (goes : Goes x s i t t') :
    Sound x (s.set i t') := by
  have indexed := goes.indexed
  apply sound.set
  · exact unique_goes sound.caseIds found indexed.caseId
  · exact unique_goes sound.correlationKeys found indexed.correlationKey
  · exact unique_goes sound.eventIds found indexed.eventId
  · exact unique_goes sound.processed found indexed.processed
  · exact ⟨goes.written, goes.grounded⟩

theorem Sound.begun {x : Externals} {s : System n} (sound : Sound x s) (i : Fin n)
    (d : Detection) : Sound x (s.set i (begun d)) := by
  apply sound.set
  · exact sound.caseIds.set_none rfl
  · exact sound.correlationKeys.set_none rfl
  · exact sound.eventIds.set_none rfl
  · exact sound.processed.set_none rfl
  · exact ⟨⟨rfl, rfl, rfl, rfl⟩, trivial⟩

theorem Sound.rollBack {x : Externals} {s : System n} (sound : Sound x s) (i : Fin n) :
    Sound x (s.rollBack i) := by
  refine ⟨sound.caseIds.rollBack i, sound.correlationKeys.rollBack i, sound.eventIds.rollBack i,
    sound.processed.rollBack i, fun j t found => ?_, fun t mem => ?_, sound.led⟩
  · obtain ⟨written, grounded⟩ := sound.opened j t (Store.opened_rollBack found).2
    exact ⟨written, grounded.mono (List.Subset.refl _)⟩
  · obtain ⟨written, grounded, done⟩ := sound.committed t mem
    exact ⟨written, grounded.mono (List.Subset.refl _), done⟩

/-- A transaction that is about to commit without a case of its own joins a
committed one. -/
theorem committed_of_correlatedTo {x : Externals} {s : System n} {t : Correlation}
    (written : Written x t) (grounded : Grounded x s t) {caseId : String}
    (joins : correlatedTo t = some caseId) (noCase : t.newCase = none) :
    ∃ h ∈ s.committed, caseIdOf h = some caseId := by
  obtain ⟨d, stage, newCase, event, audit, processed⟩ := t
  cases stage with
  | commit r =>
    obtain ⟨caseId', created, already⟩ := r
    cases already with
    | true => cases joins
    | false =>
      cases joins
      cases created with
      | true =>
        obtain ⟨⟨⟨row, new, -⟩, -⟩, -⟩ := written
        rw [noCase] at new
        cases new
      | false =>
        obtain ⟨key, -, row, mem, -, same⟩ := grounded
        obtain ⟨h, inside, wrote⟩ := mem_cases.mp mem
        refine ⟨h, inside, ?_⟩
        rw [caseIdOf, wrote, Option.map_some, same]
  | _ => cases joins

theorem Sound.commit {x : Externals} {s : System n} (sound : Sound x s) {i : Fin n}
    {t : Correlation} (found : s.opened i = some t) {r : CorrelationResult}
    (done : t.stage = .commit r) : Sound x (s.commit i t) := by
  have grows : s.committed ⊆ (s.commit i t).committed := List.subset_append_left _ _
  obtain ⟨written, grounded⟩ := sound.opened i t found
  refine ⟨sound.caseIds.commit found, sound.correlationKeys.commit found,
    sound.eventIds.commit found, sound.processed.commit found, fun j t' found' => ?_,
    fun t' mem => ?_, fun front t' back caseId split joins noCase => ?_⟩
  · obtain ⟨written', grounded'⟩ := sound.opened j t' (Store.opened_commit found').2
    exact ⟨written', grounded'.mono grows⟩
  · rw [Store.commit_committed, List.mem_append, List.mem_singleton] at mem
    rcases mem with before | rfl
    · obtain ⟨written', grounded', done'⟩ := sound.committed t' before
      exact ⟨written', grounded'.mono grows, done'⟩
    · exact ⟨written, grounded.mono grows, r, done⟩
  · rw [Store.commit_committed] at split
    rcases List.eq_nil_or_concat back with rfl | ⟨back', last, rfl⟩
    · obtain ⟨rfl, same⟩ := List.append_inj' split rfl
      obtain ⟨rfl, -⟩ := List.cons.inj same
      exact committed_of_correlatedTo written grounded joins noCase
    · rw [List.concat_eq_append, ← List.cons_append, ← List.append_assoc] at split
      obtain ⟨before, -⟩ := List.append_inj' split rfl
      exact sound.led front t' back' caseId before joins noCase

theorem sound_step (x : Externals) (s : System n) (e : Event n) (sound : Sound x s) :
    Sound x (step x s e) := by
  cases e with
  | deliver i message =>
    simp only [step]
    split
    next => exact sound.begun i _
    next => exact sound
  | next i draw =>
    simp only [step]
    split
    next => exact sound
    next t found =>
      split
      next t' went => exact sound.goes found (statement_goes sound found went)
      next => exact sound
      next => exact sound.rollBack i
  | commit i =>
    simp only [step]
    split
    next found => exact sound.commit found rfl
    next => exact sound
  | fail i => exact sound.rollBack i

theorem sound_start (x : Externals) : Sound x (start n) where
  caseIds := unique_empty _
  correlationKeys := unique_empty _
  eventIds := unique_empty _
  processed := unique_empty _
  opened := fun _ _ found => absurd found.symm (Option.some_ne_none _)
  committed := fun _ mem => absurd mem List.not_mem_nil
  led := by
    intro front t back caseId split
    exact absurd (congrArg List.length split) (by simp [start])

theorem sound_run (x : Externals) (es : List (Event n)) :
    Sound x (EventRun.run (step x) (start n) es) :=
  EventRun.run_invariant (sound_step x) (sound_start x) es

def firstCorrelated (s : System n) (caseId : String) : Option Detection :=
  (s.committed.find? fun t => correlatedTo t = some caseId).map fun t => t.detection

def announces (caseId : String) (row : OutboxRow) : Bool :=
  row.topic = "investigation.case.created" &&
    stringAt ((row.payload.get? "payload").getD .null) "case_id" = caseId

def sourceDetectionIds (row : OutboxRow) : Option Json :=
  (row.payload.get? "payload").bind fun payload => payload.get? "source_detection_ids"

def tables (s : System n) : List CaseRow × List OutboxRow × List AuditRow × List ProcessedRow :=
  (cases s, outboxEvents s, auditEvents s, processedEvents s)

structure OnceEffective (x : Externals) (s : System n) : Prop where
  oneCase : ∀ key, (cases s).countP (fun row => row.correlationKey = some key) ≤ 1
  oneProcessed : ∀ t ∈ s.committed, ∃ eventId,
    x.param t.detection.detectionEventId = some (some eventId) ∧
      (processedEvents s).countP
        (fun row => row.consumerName = consumerName && row.eventId = eventId) = 1
  oneEvent : ∀ row ∈ cases s, (outboxEvents s).countP (announces row.caseId) = 1
  firstNamed : ∀ row ∈ cases s, ∀ e ∈ outboxEvents s, announces row.caseId e = true →
    ∃ d, firstCorrelated s row.caseId = some d ∧
      sourceDetectionIds e = some (.arr [d.detectionEventId])
  oneAudit : ∀ row ∈ processedEvents s,
    (auditEvents s).countP (fun audit => audit.correlationId = row.eventId) = 1
  redelivered : ∀ i t h, s.opened i = some t → h ∈ s.committed → h.processed.isSome →
    h.detection = t.detection →
      (∀ e : Event n, e.adapter = i → tables (step x s e) = tables s) ∧
      ∀ r, t.stage = .commit r → ∃ row ∈ cases s,
        x.param t.detection.correlationKey = some row.correlationKey ∧ r = ⟨row.caseId, false, true⟩

/-- What a committed transaction wrote: nothing for a redelivery, and else the
rows of its case. -/
theorem committed_cases {x : Externals} {s : System n} (sound : Sound x s) {t : Correlation}
    (mem : t ∈ s.committed) :
    (∃ caseId, t.stage = .commit ⟨caseId, false, true⟩ ∧ Blank t) ∨
      ∃ caseId created, t.stage = .commit ⟨caseId, created, false⟩ ∧ NewCase x t caseId created ∧
        AuditWritten x t caseId ∧ ProcessedWritten x t caseId := by
  obtain ⟨written, -, r, done⟩ := sound.committed t mem
  obtain ⟨caseId, created, already⟩ := r
  simp only [Written, done] at written
  cases already with
  | true =>
    obtain ⟨blank, rfl⟩ := written
    exact .inl ⟨caseId, done, blank⟩
  | false => exact .inr ⟨caseId, created, done, written⟩

theorem announces_iff {d : Detection} {caseId : String} {event : OutboxRow}
    (topic : event.topic = "investigation.case.created")
    (payload : event.payload.get? "payload" = some (createdPayload d caseId)) (other : String) :
    announces other event = true ↔ other = caseId := by
  have read : stringAt (createdPayload d caseId) "case_id" = caseId := rfl
  rw [announces, topic, payload, Option.getD_some, read]
  simp [eq_comm]

theorem committed_event {x : Externals} {s : System n} (sound : Sound x s) {t : Correlation}
    (mem : t ∈ s.committed) :
    (∃ row, t.newCase = some row) ∨ (∃ row, t.event = some row) →
      ∃ caseId row event, t.stage = .commit ⟨caseId, true, false⟩ ∧ t.newCase = some row ∧
        row.caseId = caseId ∧ t.event = some event ∧
        (∀ other, announces other event = true ↔ other = caseId) ∧
        sourceDetectionIds event = some (.arr [t.detection.detectionEventId]) := by
  intro wrote
  rcases committed_cases sound mem with ⟨caseId, -, noCase, noEvent, -⟩ | ⟨caseId, created, done, new, -⟩
  · rcases wrote with ⟨row, some⟩ | ⟨row, some⟩
    · rw [noCase] at some
      cases some
    · rw [noEvent] at some
      cases some
  · cases created with
    | false =>
      rcases wrote with ⟨row, some⟩ | ⟨row, some⟩
      · rw [new.1] at some
        cases some
      · rw [new.2] at some
        cases some
    | true =>
      obtain ⟨⟨row, written, same, -⟩, event, told, topic, payload, -⟩ := new
      refine ⟨caseId, row, event, done, written, same, told, announces_iff topic payload, ?_⟩
      rw [sourceDetectionIds, payload]
      rfl

theorem committed_processed {x : Externals} {s : System n} (sound : Sound x s) {t : Correlation}
    (mem : t ∈ s.committed) {row : ProcessedRow} (wrote : t.processed = some row) :
    x.param t.detection.detectionEventId = some (some row.eventId) ∧
      processedOf t = some (consumerName, row.eventId) := by
  rcases committed_cases sound mem with ⟨_, -, -, -, -, none⟩ | ⟨_, _, -, -, -, eventId, sent, written⟩
  · rw [none] at wrote
    cases wrote
  · rw [written] at wrote
    cases wrote
    exact ⟨sent, by rw [processedOf, written]; rfl⟩

theorem oneProcessed_of {x : Externals} {s : System n} (sound : Sound x s) {h : Correlation}
    (mem : h ∈ s.committed) {row : ProcessedRow} (wrote : h.processed = some row) :
    (processedEvents s).countP
      (fun r => r.consumerName = consumerName && r.eventId = row.eventId) = 1 := by
  obtain ⟨-, key⟩ := committed_processed sound mem wrote
  refine sound.processed.countP_rows mem key wrote fun t' _ r' wrote' => ?_
  simp [processedOf, wrote']

theorem oneAudit_of {x : Externals} {s : System n} (sound : Sound x s) {row : ProcessedRow}
    (mem : row ∈ processedEvents s) :
    (auditEvents s).countP (fun audit => audit.correlationId = row.eventId) = 1 := by
  obtain ⟨t, inside, wrote⟩ := List.mem_filterMap.mp mem
  have ids : ∀ t' ∈ s.committed, ∀ audit, t'.audit = some audit →
      processedOf t' = some (consumerName, audit.correlationId) := by
    intro t' inside' audit recorded
    rcases committed_cases sound inside' with ⟨_, -, -, -, noAudit, -⟩ | ⟨_, _, -, -, audited, marked⟩
    · rw [noAudit] at recorded
      cases recorded
    · obtain ⟨audit', recorded', -, -, sent⟩ := audited
      obtain ⟨eventId, sent', written⟩ := marked
      rw [recorded] at recorded'
      cases recorded'
      rw [sent] at sent'
      cases sent'
      rw [processedOf, written]
      rfl
  obtain ⟨-, marked⟩ := committed_processed sound inside wrote
  rcases committed_cases sound inside with ⟨_, -, -, -, -, none⟩ | ⟨_, _, -, -, audited, _⟩
  · rw [none] at wrote
    cases wrote
  · obtain ⟨audit, recorded, -⟩ := audited
    have key := ids t inside audit recorded
    have same : row.eventId = audit.correlationId := by
      rw [marked] at key
      exact congrArg Prod.snd (Option.some.inj key)
    refine sound.processed.countP_rows inside key recorded fun t' inside' audit' recorded' => ?_
    rw [ids t' inside' audit' recorded', same]
    simp

theorem firstCorrelated_eq {x : Externals} {s : System n} (sound : Sound x s) {t : Correlation}
    (mem : t ∈ s.committed) {row : CaseRow} (wrote : t.newCase = some row) :
    firstCorrelated s row.caseId = some t.detection := by
  obtain ⟨caseId, row', -, done, wrote', same, -⟩ := committed_event sound mem (.inl ⟨row, wrote⟩)
  rw [wrote] at wrote'
  cases wrote'
  subst same
  have joined : correlatedTo t = some row.caseId := by rw [correlatedTo, done]
  cases found : s.committed.find? fun t => correlatedTo t = some row.caseId with
  | none =>
    rw [List.find?_eq_none] at found
    exact absurd (decide_eq_true joined) (found t mem)
  | some h =>
    obtain ⟨joins, front, back, split, before⟩ := List.find?_eq_some_iff_append.mp found
    have inside : h ∈ s.committed := by
      rw [split]
      simp
    -- had it not created the case, someone before it would have
    have created : caseIdOf h = some row.caseId := by
      cases new : h.newCase with
      | none =>
        obtain ⟨h', earlier, same⟩ :=
          sound.led front h back row.caseId split (of_decide_eq_true joins) new
        have inside' : h' ∈ s.committed := by
          rw [split]
          exact List.mem_append_left _ earlier
        simp only [caseIdOf, Option.map_eq_some_iff] at same
        obtain ⟨row', wrote', same⟩ := same
        obtain ⟨_, row'', -, done', wrote'', same', -⟩ :=
          committed_event sound inside' (.inl ⟨row', wrote'⟩)
        rw [wrote'] at wrote''
        cases wrote''
        have joins' : correlatedTo h' = some row.caseId := by rw [correlatedTo, done', ← same', same]
        have not := before h' earlier
        simp [joins'] at not
      | some row' =>
        obtain ⟨_, row'', -, done', wrote'', same', -⟩ :=
          committed_event sound inside (.inl ⟨row', new⟩)
        rw [new] at wrote''
        cases wrote''
        have joins' : correlatedTo h = some row'.caseId := by rw [correlatedTo, done', same']
        rw [caseIdOf, new, Option.map_some, ← joins']
        exact of_decide_eq_true joins
    have equal := sound.caseIds.eq_of_key inside mem created (by rw [caseIdOf, wrote]; rfl)
    rw [firstCorrelated, found, Option.map_some, equal]

theorem tables_step_of_blank {x : Externals} {s : System n} {i : Fin n} {t : Correlation}
    (found : s.opened i = some t) (blank : ∀ r, t.stage = .commit r → Blank t) (e : Event n)
    (own : e.adapter = i) : tables (step x s e) = tables s := by
  subst own
  cases e with
  | deliver i message =>
    simp only [step]
    split <;> rfl
  | next i draw =>
    simp only [step]
    split
    · rfl
    · split <;> rfl
  | fail i => rfl
  | commit i =>
    simp only [step]
    split
    next found' =>
      have same := found.symm.trans found'
      cases same
      obtain ⟨noCase, noEvent, noAudit, noProcessed⟩ := blank _ rfl
      dsimp only at noCase noEvent noAudit noProcessed
      subst noCase noEvent noAudit noProcessed
      simp [tables, cases, outboxEvents, auditEvents, processedEvents]
    next => rfl

/-- A transaction whose detection was processed meanwhile comes to its commit
only as a redelivery. -/
theorem alreadyProcessed_of {x : Externals} {s : System n} (sound : Sound x s) {i : Fin n}
    {t h : Correlation} (found : s.opened i = some t) (mem : h ∈ s.committed)
    (processed : h.processed.isSome) (same : h.detection = t.detection) {r : CorrelationResult}
    (done : t.stage = .commit r) : Blank t ∧ ∃ row ∈ cases s,
      x.param t.detection.correlationKey = some row.correlationKey ∧ r = ⟨row.caseId, false, true⟩ := by
  obtain ⟨row, wrote⟩ := Option.isSome_iff_exists.mp processed
  obtain ⟨sent, marked⟩ := committed_processed sound mem wrote
  obtain ⟨written, grounded⟩ := sound.opened i t found
  obtain ⟨caseId, created, already⟩ := r
  simp only [Written, Grounded, done] at written grounded
  cases already with
  | false =>
    obtain ⟨-, -, eventId', sent', written'⟩ := written
    rw [← same, sent] at sent'
    cases sent'
    have key : processedOf t = some (consumerName, row.eventId) := by rw [processedOf, written']; rfl
    exact absurd (List.mem_filterMap.mpr ⟨h, mem, marked⟩) (sound.processed.fresh i t _ found key)
  | true =>
    obtain ⟨blank, rfl⟩ := written
    obtain ⟨h', ⟨mem', row', wrote', sent'⟩, inCase⟩ := grounded
    refine ⟨blank, ?_⟩
    obtain ⟨-, marked'⟩ := committed_processed sound mem' wrote'
    rw [← same, sent] at sent'
    rw [← Option.some.inj (Option.some.inj sent')] at marked'
    have equal := sound.processed.eq_of_key mem' mem marked' marked
    obtain ⟨key, keyed, row'', inside, keyed', rfl⟩ := inCase (equal ▸ same)
    exact ⟨row'', inside, by rw [keyed, keyed'], rfl⟩

theorem oneCase_of {x : Externals} {s : System n} (sound : Sound x s) (key : String) :
    (cases s).countP (fun row => row.correlationKey = some key) ≤ 1 := by
  have nodup := sound.correlationKeys.nodup
  have split : keys correlationKeyOf s = (cases s).filterMap fun row => row.correlationKey := by
    rw [cases, List.filterMap_filterMap]
    rfl
  rw [split] at nodup
  have once := List.nodup_iff_count_le_one.mp nodup key
  rw [List.count_eq_countP, List.countP_filterMap] at once
  refine le_of_eq_of_le (List.countP_congr fun row _ => ?_) once
  cases row.correlationKey <;> simp

theorem oneProcessed_committed {x : Externals} {s : System n} (sound : Sound x s) {t : Correlation}
    (mem : t ∈ s.committed) : ∃ eventId, x.param t.detection.detectionEventId = some (some eventId) ∧
      (processedEvents s).countP
        (fun row => row.consumerName = consumerName && row.eventId = eventId) = 1 := by
  obtain ⟨-, grounded, -⟩ := sound.committed t mem
  rcases committed_cases sound mem with ⟨caseId, done, -⟩ | ⟨_, _, -, -, -, eventId, sent, wrote⟩
  · simp only [Grounded, done] at grounded
    obtain ⟨h, ⟨mem', row, wrote, sent⟩, -⟩ := grounded
    exact ⟨row.eventId, sent, oneProcessed_of sound mem' wrote⟩
  · exact ⟨eventId, sent, oneProcessed_of sound mem wrote⟩

theorem announces_committed {x : Externals} {s : System n} (sound : Sound x s) {t : Correlation}
    (mem : t ∈ s.committed) {e : OutboxRow} (told : t.event = some e) (caseId : String) :
    announces caseId e = true ↔ caseIdOf t = some caseId := by
  obtain ⟨caseId', row, e', -, wrote, same, told', names, -⟩ := committed_event sound mem (.inr ⟨e, told⟩)
  rw [told] at told'
  cases told'
  rw [names, caseIdOf, wrote, Option.map_some, Option.some.injEq, same, eq_comm]

/-- Detections are correlated once, however they are delivered and whoever takes them. -/
theorem correlation_onceEffective (x : Externals) (n : ℕ) (es : List (Event n)) :
    OnceEffective x (EventRun.run (step x) (start n) es) := by
  have sound := sound_run x es
  generalize EventRun.run (step x) (start n) es = s at sound
  refine ⟨oneCase_of sound, fun t mem => oneProcessed_committed sound mem, fun row mem => ?_,
    fun row mem e told names => ?_, fun row mem => oneAudit_of sound mem,
    fun i t h found mem processed same => ?_⟩
  · obtain ⟨t, inside, wrote⟩ := mem_cases.mp mem
    obtain ⟨_, _, e, -, -, -, told, -⟩ := committed_event sound inside (.inl ⟨row, wrote⟩)
    have key : caseIdOf t = some row.caseId := by rw [caseIdOf, wrote, Option.map_some]
    exact sound.caseIds.countP_rows inside key told fun t' inside' e' told' =>
      announces_committed sound inside' told' row.caseId
  · obtain ⟨t, inside, wrote⟩ := mem_cases.mp mem
    obtain ⟨t', inside', told'⟩ := List.mem_filterMap.mp told
    have key : caseIdOf t = some row.caseId := by rw [caseIdOf, wrote, Option.map_some]
    have key' := (announces_committed sound inside' told' row.caseId).mp names
    have equal := sound.caseIds.eq_of_key inside' inside key' key
    subst equal
    obtain ⟨_, _, e', -, -, -, told'', -, sources⟩ := committed_event sound inside' (.inl ⟨row, wrote⟩)
    rw [told'] at told''
    cases told''
    exact ⟨t'.detection, firstCorrelated_eq sound inside' wrote, sources⟩
  · constructor
    · refine tables_step_of_blank found fun r done => ?_
      exact (alreadyProcessed_of sound found mem processed same done).1
    · intro r done
      exact (alreadyProcessed_of sound found mem processed same done).2

end Mirage.DetectionCorrelation
