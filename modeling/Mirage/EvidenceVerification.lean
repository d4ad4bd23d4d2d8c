import Mirage.ExportEligibility

/-! `EvidenceService.verify` with all that it writes: the columns of the ledger, the
history, the audit and the event of the outbox. -/

namespace Mirage.EvidenceVerification
open EvidenceAcquisition ExportEligibility RowLocks

/-- An exception of the store; one that is no `ObjectMissingError` has the text `{type}: {exc}`. -/
inductive Exc where
  | objectMissing
  | other (text : String)

/-- What the reads of a stream give, and what closing it raises; behind the last read there are no bytes. -/
structure Stream where
  reads : List (Except Exc Bytes)
  closing : Option Exc

/-- The loop of `digest.update` up to the first empty chunk; `fed` was hashed before. -/
def update (fed : Bytes) : List (Except Exc Bytes) → Except Exc Bytes
  | [] => .ok fed
  | .error exc :: _ => .error exc
  | .ok chunk :: rest => if chunk = [] then .ok fed else update (fed ++ chunk) rest

def Stream.hashed (stream : Stream) : Except Exc Bytes :=
  match stream.closing with
  | some exc => .error exc
  | none => update [] stream.reads

abbrev Answer := Except Exc Stream

def Answer.hashed (answer : Answer) : Except Exc Bytes := answer.bind Stream.hashed

def Answer.reading (answer : Answer) : Reading :=
  match answer.hashed with
  | .ok bytes => .content bytes
  | .error .objectMissing => .missing
  | .error (.other text) => .raised text

/-- Opening, reading or closing raised what is no `ObjectMissingError`. -/
def Answer.Failed (answer : Answer) : Prop := ∃ text, answer.hashed = .error (.other text)

def ReadsOf : Bytes → List (Except Exc Bytes) → Prop
  | bytes, [] => bytes = []
  | _, .error exc :: _ => exc ≠ .objectMissing
  | bytes, .ok chunk :: rest =>
    if chunk = [] then bytes = [] else ∃ later, bytes = chunk ++ later ∧ ReadsOf later rest

/-- What a store answers that has this content at the version: it says that the version is missing only where
it is absent, and what it gives otherwise is the content, up to an exception. -/
def AnswersOf (content : Option Bytes) : Answer → Prop
  | .error .objectMissing => content = none
  | .error (.other _) => True
  | .ok stream => (∀ exc, stream.closing = some exc → exc ≠ .objectMissing) ∧
      ∃ bytes, content = some bytes ∧ ReadsOf bytes stream.reads

/-- A row of `evidence_objects` with the other columns that a verification writes. -/
structure VerifiableRow extends EvidenceRow where
  verifiedAt : Option ℤ
  verificationError : Option String
  updatedAt : ℤ

/-- A row of `evidence_verification_history` with its time. -/
structure HistoryRow extends Verification where
  attemptedAt : ℤ

structure AuditEntry where
  actor : String
  action : String
  target : String
  outcome : String
  correlationId : String
  detail : String

/-- The payloads of `evidence.verified` and `evidence.verification_failed`. -/
inductive Payload where
  | verified (evidenceId caseId verificationId reason sha256 : String)
  | failed (evidenceId caseId verificationId status reason expectedSha256 : String)
      (calculatedSha256 error : Option String)

structure OutboxEvent where
  eventId : String
  caseId : String
  sessionId : Option String
  payload : Payload

structure Database where
  rows : KeyedTable fun row : VerifiableRow => row.evidenceId
  history : KeyedTable fun entry : HistoryRow => entry.verificationId
  audit : List AuditEntry
  outbox : KeyedTable OutboxEvent.eventId

/-- A call, what the store answers it, the identifiers and the time it gets, and an exception that the database
raises at its rows for another reason than a taken identifier. -/
structure Call where
  evidenceId : String
  reason : String
  requestedBy : String
  store : Location → Answer
  verificationId : String
  eventId : String
  now : ℤ
  refusal : Option String

section
variable (sha256 : Bytes → String)

def HistoryRow.of (c : Call) (row : VerifiableRow) : HistoryRow :=
  let found := assess sha256 row.sha256 (c.store row.location).reading
  { verificationId := c.verificationId, evidenceId := c.evidenceId, reason := c.reason, status := found.status,
    expectedSha256 := row.sha256, calculatedSha256 := found.calculated, error := found.error,
    requestedBy := c.requestedBy, attemptedAt := c.now }

def HistoryRow.payload (entry : HistoryRow) (caseId : String) : Payload :=
  if entry.status = ExportEligibility.verified then
    .verified entry.evidenceId caseId entry.verificationId entry.reason entry.expectedSha256
  else
    .failed entry.evidenceId caseId entry.verificationId entry.status entry.reason entry.expectedSha256
      entry.calculatedSha256 entry.error

def HistoryRow.detail (entry : HistoryRow) : String := (given entry.error).getD entry.reason

def HistoryRow.audit (entry : HistoryRow) : AuditEntry where
  actor := entry.requestedBy
  action := "evidence.verification." ++ entry.status.toLower
  target := entry.evidenceId
  outcome := if entry.status = ExportEligibility.verified then "SUCCESS" else "FAILURE"
  correlationId := entry.verificationId
  detail := entry.detail

/-- `CASE WHEN status='VERIFIED' THEN now() ELSE NULL END`. -/
def HistoryRow.verifiedAt (entry : HistoryRow) : Option ℤ :=
  if entry.status = ExportEligibility.verified then some entry.attemptedAt else none

def settle (entry : HistoryRow) (row : VerifiableRow) : VerifiableRow :=
  { row with
    verificationStatus := entry.status
    verifiedAt := entry.verifiedAt
    verificationError := entry.error
    updatedAt := entry.attemptedAt }

def validReason (reason : String) : Bool := 1 ≤ reason.length && reason.length ≤ 128

def taken : EvidenceAcquisition.Raised := ⟨.other, "UniqueViolation"⟩

def verify (s : Database) (c : Call) : Except EvidenceAcquisition.Raised (Database × String) := do
  let row ← present (s.rows.find c.evidenceId) ⟨.evidence, c.evidenceId⟩
  let entry := HistoryRow.of sha256 c row
  require (validReason c.reason) ⟨.other, "EventValidationError"⟩
  let history ← present (s.history.insert entry) taken
  let outbox ← present (s.outbox.insert ⟨c.eventId, row.caseId, row.sessionId, entry.payload row.caseId⟩) taken
  require c.refusal.isNone ⟨.other, c.refusal.getD ""⟩
  return (⟨s.rows.update c.evidenceId (settle entry) fun _ => rfl, history, s.audit ++ [entry.audit], outbox⟩,
    entry.status)

/-- Calls of `verify`, and rows that `acquire` inserts. -/
inductive Event where
  | verify (c : Call)
  | acquire (row : EvidenceRow) (now : ℤ)

def pending : String := "PENDING"

def acquired (row : EvidenceRow) (now : ℤ) : VerifiableRow :=
  { row with verificationStatus := pending, verifiedAt := none, verificationError := none, updatedAt := now }

def step (s : Database) : Event → Database
  | .verify c =>
    match verify sha256 s c with
    | .ok (s', _) => s'
    | .error _ => s
  | .acquire row now =>
    match s.rows.insert (acquired row now) with
    | some rows => { s with rows }
    | none => s

def run (s : Database) (events : List Event) : Database := EventRun.run (step sha256) s events

end

theorem update_readsOf {reads : List (Except Exc Bytes)} : ∀ {fed bytes : Bytes}, ReadsOf bytes reads →
    update fed reads = .ok (fed ++ bytes) ∨ ∃ text, update fed reads = .error (.other text) := by
  induction reads with
  | nil =>
    rintro fed bytes rfl
    rw [update, List.append_nil]
    exact .inl rfl
  | cons read rest ih =>
    intro fed bytes reads
    cases read with
    | error exc =>
      cases exc with
      | objectMissing => exact absurd rfl reads
      | other text => exact .inr ⟨text, rfl⟩
    | ok chunk =>
      rw [ReadsOf] at reads
      rw [update]
      by_cases empty : chunk = []
      · rw [if_pos empty] at reads ⊢
        rw [reads, List.append_nil]
        exact .inl rfl
      · rw [if_neg empty] at reads ⊢
        obtain ⟨later, rfl, reads⟩ := reads
        rw [← List.append_assoc]
        exact ih reads

theorem hashed_cases {content : Option Bytes} {answer : Answer} (answers : AnswersOf content answer) :
    (∃ bytes, content = some bytes ∧ answer.hashed = .ok bytes) ∨
      (content = none ∧ answer.hashed = .error .objectMissing) ∨ answer.Failed := by
  match answer, answers with
  | .error .objectMissing, absent => exact .inr (.inl ⟨absent, rfl⟩)
  | .error (.other text), _ => exact .inr (.inr ⟨text, rfl⟩)
  | .ok ⟨reads, closing⟩, ⟨closed, bytes, present, reads_⟩ =>
    cases closing with
    | some exc =>
      cases exc with
      | objectMissing => exact absurd rfl (closed .objectMissing rfl)
      | other text => exact .inr (.inr ⟨text, rfl⟩)
    | none =>
      rcases @update_readsOf _ [] _ reads_ with whole | broken
      · exact .inl ⟨bytes, present, whole⟩
      · exact .inr (.inr broken)

section
variable {sha256 : Bytes → String}

theorem status_cases {content : Option Bytes} {answer : Answer} (answers : AnswersOf content answer)
    (expected : String) :
    ((assess sha256 expected answer.reading).status = ExportEligibility.verified ↔
      (∃ bytes, content = some bytes ∧ sha256 bytes = expected) ∧ ¬ answer.Failed) ∧
    ((assess sha256 expected answer.reading).status = "HASH_MISMATCH" ↔
      (∃ bytes, content = some bytes ∧ sha256 bytes ≠ expected) ∧ ¬ answer.Failed) ∧
    ((assess sha256 expected answer.reading).status = "MISSING" ↔ content = none ∧ ¬ answer.Failed) ∧
    ((assess sha256 expected answer.reading).status = "FAILED" ↔ answer.Failed) := by
  rcases hashed_cases answers with ⟨bytes, present, hashed⟩ | ⟨absent, hashed⟩ | failed
  · have whole : ¬ answer.Failed := by
      rintro ⟨text, failed⟩
      rw [hashed] at failed
      cases failed
    have reading : answer.reading = .content bytes := by rw [Answer.reading, hashed]
    rw [reading, present]
    by_cases same : sha256 bytes = expected
    · simp [assess, same, whole, ExportEligibility.verified]
    · simp [assess, same, whole, ExportEligibility.verified]
  · have whole : ¬ answer.Failed := by
      rintro ⟨text, failed⟩
      rw [hashed] at failed
      cases failed
    have reading : answer.reading = .missing := by rw [Answer.reading, hashed]
    rw [reading, absent]
    simp [assess, whole, ExportEligibility.verified]
  · obtain ⟨text, hashed⟩ := id failed
    have reading : answer.reading = .raised text := by rw [Answer.reading, hashed]
    rw [reading]
    simp [assess, failed, ExportEligibility.verified]

theorem verify_eq_ok {s s' : Database} {c : Call} {status : String} :
    verify sha256 s c = .ok (s', status) ↔ ∃ row history outbox, s.rows.find c.evidenceId = some row ∧
      validReason c.reason = true ∧ s.history.insert (.of sha256 c row) = some history ∧
      s.outbox.insert ⟨c.eventId, row.caseId, row.sessionId, (HistoryRow.of sha256 c row).payload row.caseId⟩ =
        some outbox ∧ c.refusal.isNone = true ∧
      s' = ⟨s.rows.update c.evidenceId (settle (.of sha256 c row)) fun _ => rfl, history,
        s.audit ++ [(HistoryRow.of sha256 c row).audit], outbox⟩ ∧
      status = (HistoryRow.of sha256 c row).status := by
  simp only [verify, bind_eq_ok, present_eq_ok, require_eq_ok, pure, Except.pure, Except.ok.injEq, Prod.mk.injEq]
  constructor
  · rintro ⟨row, found, _, valid, history, inserted, outbox, sent, _, accepted, rfl, rfl⟩
    exact ⟨row, history, outbox, found, valid, inserted, sent, accepted, rfl, rfl⟩
  · rintro ⟨row, history, outbox, found, valid, inserted, sent, accepted, rfl, rfl⟩
    exact ⟨row, found, (), valid, history, inserted, outbox, sent, (), accepted, rfl, rfl⟩

/-- A call returns where the object is known, the reason is one of the schema's, the identifiers are new and the
database takes the rows, whatever the store answers. -/
theorem verify_returns_iff {s : Database} {c : Call} : (∃ s' status, verify sha256 s c = .ok (s', status)) ↔
    (s.rows.find c.evidenceId).isSome = true ∧ validReason c.reason = true ∧
      c.verificationId ∉ s.history.rows.map (·.verificationId) ∧
      c.eventId ∉ s.outbox.rows.map OutboxEvent.eventId ∧ c.refusal.isNone = true := by
  constructor
  · rintro ⟨s', status, ran⟩
    obtain ⟨row, history, outbox, found, valid, inserted, sent, accepted, -, -⟩ := verify_eq_ok.mp ran
    exact ⟨Option.isSome_iff_exists.mpr ⟨row, found⟩, valid, (KeyedTable.insert_eq_some inserted).1,
      (KeyedTable.insert_eq_some sent).1, accepted⟩
  · rintro ⟨known, valid, freshRow, freshEvent, accepted⟩
    obtain ⟨row, found⟩ := Option.isSome_iff_exists.mp known
    obtain ⟨history, inserted⟩ := KeyedTable.insert_isSome (t := s.history) (r := .of sha256 c row) freshRow
    obtain ⟨outbox, sent⟩ := KeyedTable.insert_isSome (t := s.outbox)
      (r := ⟨c.eventId, row.caseId, row.sessionId, (HistoryRow.of sha256 c row).payload row.caseId⟩) freshEvent
    exact ⟨_, _, verify_eq_ok.mpr ⟨row, history, outbox, found, valid, inserted, sent, accepted, rfl, rfl⟩⟩

/-! The verification of `ExportEligibility` is this one without its times, its audit and its event. -/

end

/-! What holds throughout a run. -/

def latest (s : Database) (evidenceId : String) : Option HistoryRow :=
  (s.history.rows.filter fun entry => entry.evidenceId = evidenceId).getLast?

def asRecorded (entry : Option HistoryRow) (row : VerifiableRow) : Prop :=
  row.verificationStatus = entry.elim pending (·.status) ∧ row.verifiedAt = entry.bind (·.verifiedAt) ∧
    row.verificationError = entry.bind (·.error)

def Reports (rows : KeyedTable fun row : VerifiableRow => row.evidenceId) (entry : HistoryRow) (event : OutboxEvent) :
    Prop :=
  ∃ row, rows.find entry.evidenceId = some row ∧ event.caseId = row.caseId ∧ event.sessionId = row.sessionId ∧
    event.payload = entry.payload row.caseId

structure Inv (s : Database) : Prop where
  recorded : ∀ row ∈ s.rows.rows, asRecorded (latest s row.evidenceId) row
  audited : s.audit = s.history.rows.map HistoryRow.audit
  reported : List.Forall₂ (Reports s.rows) s.history.rows s.outbox.rows

structure Start (s : Database) : Prop where
  rows : ∀ row ∈ s.rows.rows, asRecorded none row
  history : s.history.rows = []
  audit : s.audit = []
  outbox : s.outbox.rows = []

theorem inv_of_start {s : Database} (start : Start s) : Inv s where
  recorded row mem := by
    rw [latest, start.history]
    exact start.rows row mem
  audited := by rw [start.audit, start.history, List.map_nil]
  reported := by
    rw [start.history, start.outbox]
    exact .nil

def Kept (before after : VerifiableRow) : Prop :=
  after.toEvidenceRow = setStatus after.verificationStatus before.toEvidenceRow

theorem Kept.refl (row : VerifiableRow) : Kept row row := rfl

theorem Kept.trans {a b c : VerifiableRow} (first : Kept a b) (later : Kept b c) : Kept a c := by
  rw [Kept] at first later ⊢
  rw [later, first]
  rfl

theorem kept_settle (entry : HistoryRow) (row : VerifiableRow) : Kept row (settle entry row) := rfl

def Grown (s s' : Database) : Prop :=
  ∀ row, ∀ k, s.rows.find k = some row → ∃ row', s'.rows.find k = some row' ∧ Kept row row'

theorem Grown.trans {a b c : Database} (first : Grown a b) (later : Grown b c) : Grown a c := by
  intro row k found
  obtain ⟨next, found, kept⟩ := first row k found
  obtain ⟨last, found, kept'⟩ := later next k found
  exact ⟨last, found, kept.trans kept'⟩

theorem Grown.refl (s : Database) : Grown s s := fun row _ found => ⟨row, found, .refl row⟩

section
variable {sha256 : Bytes → String} {s s' : Database} {c : Call} {status : String}

theorem grown_verify (ran : verify sha256 s c = .ok (s', status)) : Grown s s' := by
  obtain ⟨row, history, outbox, found, -, -, -, -, rfl, -⟩ := verify_eq_ok.mp ran
  intro other k foundOther
  have after := s.rows.find_update c.evidenceId (settle (.of sha256 c row)) (fun _ => rfl) k
  by_cases same : k = c.evidenceId
  · subst same
    rw [if_pos rfl, foundOther] at after
    exact ⟨_, after, kept_settle _ other⟩
  · rw [if_neg same, foundOther] at after
    exact ⟨other, after, .refl other⟩

theorem grown_acquire {row : EvidenceRow} {now : ℤ} {rows : KeyedTable fun row : VerifiableRow => row.evidenceId}
    (inserted : s.rows.insert (acquired row now) = some rows) : Grown s { s with rows } := by
  intro other k found
  have fresh := (KeyedTable.insert_eq_some inserted).1
  refine ⟨other, ?_, .refl other⟩
  rw [KeyedTable.find_insert inserted, if_neg, found]
  rintro rfl
  rw [s.rows.find_eq_none.mpr fresh] at found
  cases found

theorem grown_step (event : Event) : Grown s (step sha256 s event) := by
  cases event with
  | verify c =>
    rw [step]
    split
    · exact grown_verify ‹_›
    · exact .refl s
  | acquire row now =>
    rw [step]
    split
    · exact grown_acquire ‹_›
    · exact .refl s

theorem reports_grown (grown : Grown s s') {entry : HistoryRow} {event : OutboxEvent}
    (reports : Reports s.rows entry event) : Reports s'.rows entry event := by
  obtain ⟨row, found, caseId, sessionId, payload⟩ := reports
  obtain ⟨row', found', kept⟩ := grown row _ found
  have sameCase : row'.caseId = row.caseId := congrArg (fun row => row.caseId) kept
  have sameSession : row'.sessionId = row.sessionId := congrArg (fun row => row.sessionId) kept
  exact ⟨row', found', by rw [caseId, sameCase], by rw [sessionId, sameSession], by rw [payload, sameCase]⟩

theorem reported_of_mem {rows : KeyedTable fun row : VerifiableRow => row.evidenceId} {history : List HistoryRow}
    {outbox : List OutboxEvent} (reported : List.Forall₂ (Reports rows) history outbox) {entry : HistoryRow}
    (mem : entry ∈ history) : ∃ event, Reports rows entry event := by
  induction reported with
  | nil => cases mem
  | cons first _ ih =>
    rcases List.mem_cons.mp mem with rfl | later
    · exact ⟨_, first⟩
    · exact ih later

theorem latest_concat {history : KeyedTable fun entry : HistoryRow => entry.verificationId} {entry : HistoryRow}
    (rows : history.rows = s.history.rows ++ [entry]) (s' : Database) (same : s'.history = history)
    (evidenceId : String) :
    latest s' evidenceId = if entry.evidenceId = evidenceId then some entry else latest s evidenceId := by
  rw [latest, same, rows, List.filter_append]
  by_cases own : entry.evidenceId = evidenceId
  · rw [if_pos own, List.filter_singleton, decide_eq_true own]
    exact List.getLast?_concat
  · rw [if_neg own, List.filter_singleton, decide_eq_false own]
    exact congrArg List.getLast? (List.append_nil _)

theorem inv_verify (inv : Inv s) (ran : verify sha256 s c = .ok (s', status)) : Inv s' := by
  have grown := grown_verify ran
  obtain ⟨row, history, outbox, found, -, inserted, sent, -, rfl, -⟩ := verify_eq_ok.mp ran
  have rows := (KeyedTable.insert_eq_some inserted).2
  refine ⟨fun other mem => ?_, ?_, ?_⟩
  · rw [latest_concat rows _ rfl]
    obtain ⟨old, memOld, form⟩ := List.mem_map.mp mem
    by_cases own : old.evidenceId = c.evidenceId
    · rw [if_pos own] at form
      have this : (HistoryRow.of sha256 c row).evidenceId = (settle (.of sha256 c row) old).evidenceId := own.symm
      rw [← form, if_pos this]
      exact ⟨rfl, rfl, rfl⟩
    · rw [if_neg own] at form
      have other : (HistoryRow.of sha256 c row).evidenceId ≠ old.evidenceId := Ne.symm own
      rw [← form, if_neg other]
      exact inv.recorded old memOld
  · rw [rows, List.map_append, inv.audited]
    rfl
  · rw [rows, (KeyedTable.insert_eq_some sent).2]
    refine List.rel_append (inv.reported.imp fun _ _ => reports_grown grown) (.cons ?_ .nil)
    exact reports_grown grown ⟨row, found, rfl, rfl, rfl⟩

theorem inv_acquire (inv : Inv s) {row : EvidenceRow} {now : ℤ}
    {rows : KeyedTable fun row : VerifiableRow => row.evidenceId}
    (inserted : s.rows.insert (acquired row now) = some rows) : Inv { s with rows } := by
  have grown := grown_acquire inserted
  obtain ⟨fresh, list⟩ := KeyedTable.insert_eq_some inserted
  refine ⟨fun other mem => ?_, inv.audited, inv.reported.imp fun _ _ => reports_grown grown⟩
  rw [list, List.mem_append, List.mem_singleton] at mem
  rcases mem with old | rfl
  · exact inv.recorded other old
  · -- a verification names a row, and this row is new
    have none : latest s row.evidenceId = none := by
      rw [latest, List.getLast?_eq_none_iff, List.filter_eq_nil_iff]
      intro entry listed own
      obtain ⟨event, known, found, -⟩ := reported_of_mem inv.reported listed
      rw [of_decide_eq_true own] at found
      exact fresh (List.mem_map.mpr ⟨known, s.rows.mem_of_find found, s.rows.key_of_find found⟩)
    exact none ▸ ⟨rfl, rfl, rfl⟩

theorem inv_step (inv : Inv s) (event : Event) : Inv (step sha256 s event) := by
  cases event with
  | verify c =>
    rw [step]
    split
    · exact inv_verify inv ‹_›
    · exact inv
  | acquire row now =>
    rw [step]
    split
    · exact inv_acquire inv ‹_›
    · exact inv

theorem inv_run (inv : Inv s) (events : List Event) : Inv (run sha256 s events) := by
  induction events generalizing s with
  | nil => exact inv
  | cons event events ih => exact ih (inv_step inv event)

theorem grown_run (events : List Event) : Grown s (run sha256 s events) := by
  induction events generalizing s with
  | nil => exact .refl s
  | cons event events ih => exact (grown_step event).trans ih

/-! The last verification is the latest one where the transactions start one after another. -/

def Event.now? : Event → Option ℤ
  | .verify c => some c.now
  | .acquire _ _ => none

def times (s : Database) : List ℤ := s.history.rows.map (·.attemptedAt)

theorem times_step (event : Event) : (times (step sha256 s event)).Sublist (times s ++ event.now?.toList) := by
  cases event with
  | verify c =>
    rw [step]
    split
    · rename_i ran
      obtain ⟨row, history, outbox, -, -, inserted, -, -, rfl, -⟩ := verify_eq_ok.mp ran
      have rows := (KeyedTable.insert_eq_some inserted).2
      rw [times, rows, List.map_append]
      exact .refl _
    · exact List.sublist_append_left _ _
  | acquire row now =>
    rw [step]
    split
    · exact List.sublist_append_left _ _
    · exact List.sublist_append_left _ _

theorem times_run (events : List Event) :
    (times (run sha256 s events)).Sublist (times s ++ events.filterMap Event.now?) := by
  induction events generalizing s with
  | nil => exact List.sublist_append_left _ _
  | cons event events ih =>
    have first := (@times_step sha256 s event).append_right (events.filterMap Event.now?)
    rw [List.append_assoc] at first
    have form : (event :: events).filterMap Event.now? = event.now?.toList ++ events.filterMap Event.now? := by
      cases event <;> rfl
    rw [form]
    exact ih.trans first

theorem le_latest (ordered : (times s).Pairwise (· ≤ ·)) {entry last : HistoryRow} (mem : entry ∈ s.history.rows)
    (found : latest s entry.evidenceId = some last) : entry.attemptedAt ≤ last.attemptedAt := by
  rw [times, List.pairwise_map] at ordered
  have own := ordered.sublist (List.filter_sublist (p := fun other => other.evidenceId = entry.evidenceId))
  obtain ⟨front, form⟩ := List.getLast?_eq_some_iff.mp found
  have listed : entry ∈ front ++ [last] := form ▸ List.mem_filter.mpr ⟨mem, decide_eq_true rfl⟩
  rw [form, List.pairwise_append] at own
  rcases List.mem_append.mp listed with earlier | here
  · exact own.2.2 entry earlier last List.mem_cons_self
  · rw [List.mem_singleton.mp here]

/-- In every state of a run the row of an object says what its last verification found, each verification has its
audit row and its event, and nothing else of the ledger changed; and the next call finds what the object is,
unless the store fails. -/
theorem verification_in_step (start : Start s) (events : List Event) :
    (∀ row ∈ (run sha256 s events).rows.rows,
      row.verificationStatus = (latest (run sha256 s events) row.evidenceId).elim pending (·.status) ∧
      (row.verifiedAt.isSome = true ↔ row.verificationStatus = ExportEligibility.verified)) ∧
    (run sha256 s events).audit = (run sha256 s events).history.rows.map HistoryRow.audit ∧
    List.Forall₂ (Reports (run sha256 s events).rows) (run sha256 s events).history.rows
      (run sha256 s events).outbox.rows ∧
    (∀ earlier later, events = earlier ++ later → Grown (run sha256 s earlier) (run sha256 s events)) ∧
    ((events.filterMap Event.now?).Pairwise (· ≤ ·) → ∀ entry ∈ (run sha256 s events).history.rows,
      ∀ last, latest (run sha256 s events) entry.evidenceId = some last → entry.attemptedAt ≤ last.attemptedAt) ∧
    ∀ c s' status row content, verify sha256 (run sha256 s events) c = .ok (s', status) →
      (run sha256 s events).rows.find c.evidenceId = some row → AnswersOf content (c.store row.location) →
      (status = ExportEligibility.verified ↔
        (∃ bytes, content = some bytes ∧ sha256 bytes = row.sha256) ∧ ¬ (c.store row.location).Failed) ∧
      (status = "HASH_MISMATCH" ↔
        (∃ bytes, content = some bytes ∧ sha256 bytes ≠ row.sha256) ∧ ¬ (c.store row.location).Failed) ∧
      (status = "MISSING" ↔ content = none ∧ ¬ (c.store row.location).Failed) ∧
      (status = "FAILED" ↔ (c.store row.location).Failed) := by
  have inv : Inv (run sha256 s events) := inv_run (inv_of_start start) events
  refine ⟨fun row mem => ?_, inv.audited, inv.reported, ?_, fun ordered => ?_, ?_⟩
  · obtain ⟨status, time, -⟩ := inv.recorded row mem
    refine ⟨status, ?_⟩
    rw [status, time]
    cases latest (run sha256 s events) row.evidenceId with
    | none => simp [pending, ExportEligibility.verified]
    | some entry => simp [HistoryRow.verifiedAt]
  · rintro earlier later rfl
    rw [run, run, EventRun.run_append]
    exact grown_run later
  · have sublist := @times_run sha256 s events
    have none : times s = [] := by rw [times, start.history, List.map_nil]
    rw [none, List.nil_append] at sublist
    exact fun entry mem last found => le_latest (ordered.sublist sublist) mem found
  · intro c s' status row content ran found answers
    obtain ⟨row', _, _, found', -, -, -, -, -, rfl⟩ := verify_eq_ok.mp ran
    obtain rfl : row = row' := Option.some.inj (found.symm.trans found')
    exact status_cases answers row.sha256

end

/-! Samples, with the digests of the empty object and of `abc`. -/

def abc : Bytes := [0x61, 0x62, 0x63]

def sampleSha256 (bytes : Bytes) : String :=
  if bytes = abc then "ba7816bf8f01cfea414140de5dae2223b00361a396177a9cb410ff61f20015ad"
  else "e3b0c44298fc1c149afbf4c8996fb92427ae41e4649b934ca495991b7852b855"

def abcRow : EvidenceRow :=
  { sampleRow "01HX3QK7Z000000000000000E1" "LOG" "PENDING" with sha256 := sampleSha256 abc, sizeBytes := 3 }

def abcDatabase : Database :=
  ⟨⟨[acquired abcRow 0], List.nodup_singleton _⟩, ⟨[], List.nodup_nil⟩, [], ⟨[], List.nodup_nil⟩⟩

theorem abcDatabase_start : Start abcDatabase where
  rows row mem := by
    rw [List.mem_singleton.mp mem]
    exact ⟨rfl, rfl, rfl⟩
  history := rfl
  audit := rfl
  outbox := rfl

def abcCall (verificationId : String) (now : ℤ) (answer : Answer) : Call where
  evidenceId := abcRow.evidenceId
  reason := "SCHEDULED_SAMPLE"
  requestedBy := "auditor"
  store _ := answer
  verificationId
  eventId := verificationId
  now
  refusal := none

def abcAnswer : Answer := .ok ⟨[.ok [0x61], .ok [0x62, 0x63], .ok []], none⟩

/-- Verified once, it is missing the next time. -/
theorem abc_missing :
    let events := [.verify (abcCall "v1" 1 abcAnswer), .verify (abcCall "v2" 2 (.error .objectMissing))]
    (latest (run sampleSha256 abcDatabase events) abcRow.evidenceId).map (·.status) = some "MISSING" ∧
      ∀ row ∈ (run sampleSha256 abcDatabase events).rows.rows,
        (row.verifiedAt.isSome = true ↔ row.verificationStatus = ExportEligibility.verified) := by
  refine ⟨by decide +kernel, fun row mem => ?_⟩
  exact ((verification_in_step abcDatabase_start _).1 row mem).2

def brokenAnswer : Answer := .ok ⟨[.ok [0x61], .error (.other "OSError: timed out")], none⟩

theorem brokenAnswer_of : AnswersOf (some abc) brokenAnswer := by
  refine ⟨fun _ closed => (by cases closed), abc, rfl, ?_⟩
  have more : ([0x61] : Bytes) ≠ [] := List.cons_ne_nil _ _
  rw [ReadsOf, if_neg more]
  exact ⟨[0x62, 0x63], rfl, fun same => (by cases same)⟩

theorem broken_failed : ∃ s', verify sampleSha256 abcDatabase (abcCall "v1" 1 brokenAnswer) = .ok (s', "FAILED") ∧
    AnswersOf (some abc) brokenAnswer ∧ sampleSha256 abc = abcRow.sha256 := by
  obtain ⟨s', status, ran⟩ := (@verify_returns_iff sampleSha256 abcDatabase
    (abcCall "v1" 1 brokenAnswer)).mpr ⟨rfl, rfl, List.not_mem_nil, List.not_mem_nil, rfl⟩
  obtain ⟨row, _, _, found, -, -, -, -, -, same⟩ := verify_eq_ok.mp ran
  have known : abcDatabase.rows.find abcRow.evidenceId = some (acquired abcRow 0) :=
    abcDatabase.rows.find_of_mem List.mem_cons_self
  obtain rfl : acquired abcRow 0 = row := Option.some.inj (known.symm.trans found)
  rw [same] at ran
  exact ⟨s', ran, brokenAnswer_of, rfl⟩

end Mirage.EvidenceVerification
