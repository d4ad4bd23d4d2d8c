import Mirage.EventRun
import Mirage.JsonValue
import Mathlib.Logic.Function.Basic
import Mathlib.Data.Nat.Notation

/-! nats_client: the dead-letter rule of `DeadLetterAwareConsumer`. -/

namespace Mirage.DeadLetters

def maxDeliverAttempts : ℕ := 5

def redeliveryBackoffSeconds : List ℕ := [1, 5, 25, 125, 625]

def ackWaitSeconds : ℕ := 30

def failedSubjectFor (subject : String) : String := subject ++ ".failed"

structure Msg where
  subject : String
  /-- The header `Nats-Msg-Id`. -/
  msgId : Option String

/-- An exception: the name of its type and `str(exc)`. -/
structure HandlerError where
  typeName : String
  text : String

structure DeadLetterInfo where
  originalEventId : Option String
  consumerName : String
  errorType : String
  errorMessage : String
  attemptCount : ℕ
  firstFailureAt : String
  lastFailureAt : String
  originalSubject : String

def DeadLetterInfo.payload (info : DeadLetterInfo) : Json :=
  .obj
    [("original_event_id", (info.originalEventId.map Json.str).getD .null),
     ("consumer_name", .str info.consumerName),
     ("error_type", .str info.errorType),
     ("error_message", .str info.errorMessage),
     ("attempt_count", .int info.attemptCount),
     ("first_failure_at", .str info.firstFailureAt),
     ("last_failure_at", .str info.lastFailureAt),
     ("original_subject", .str info.originalSubject)]

/-- Where a call of `process` stands. -/
inductive Phase where
  | fetched
  | handling (now : String)
  /-- The handler raised, and the dead letter is to be published. -/
  | deadLettering (now : String) (error : HandlerError)

structure Attempt where
  client : ℕ
  sequence : ℕ
  msg : Msg
  numDelivered : ℕ
  phase : Phase

structure DeadLetter where
  subject : String
  payload : Json
  sequence : ℕ

structure System where
  clock : ℕ
  stream : List Msg
  delivered : ℕ → ℕ
  acked : ℕ → Bool
  redeliverAt : ℕ → ℕ
  attempts : ℕ → Option Attempt
  /-- `_first_failure_seen` of each client. -/
  firstFailureSeen : ℕ → String → Option String
  /-- The messages for which a handler returned. -/
  processed : List ℕ
  failed : List DeadLetter
  alerts : List DeadLetterInfo

/-- `ack` and `nak` send without waiting for the server. -/
structure Signal where
  arrives : Bool
  raises : Bool

/-- How `js.publish` ends. -/
inductive Reply where
  | acked
  | ackLost
  | lost

inductive Event where
  | tick (seconds : ℕ)
  | publish (m : Msg)
  /-- Message `n` is delivered to a client, as attempt `d`. -/
  | deliver (d client n : ℕ)
  /-- `process` is called; `now` is its `datetime.now(UTC).isoformat()`. -/
  | begin (d : ℕ) (now : String)
  | succeed (d : ℕ) (ack : Signal)
  | fail (d : ℕ) (error : HandlerError) (nak : Signal)
  | deadLetter (d : ℕ) (reply : Reply) (alertRaises : Bool) (ack : Signal)
  /-- An attempt ends with no answer to the server, as when its task is cancelled. -/
  | lose (d : ℕ)
  | crash (client : ℕ)

def close (s : System) (ended : ℕ → Attempt → Bool) : System :=
  { s with attempts := fun d => (s.attempts d).filter fun a => !ended d a }

def isAttempt (d : ℕ) : ℕ → Attempt → Bool := fun d' _ => d' = d

def isOf (client : ℕ) : ℕ → Attempt → Bool := fun _ a => a.client = client

/-- The entry that `event_id`, where it is one, has in a client's dictionary. -/
def note (seen : String → Option String) (msgId : Option String) (now : String) :
    String → Option String :=
  match msgId with
  | none => seen
  | some eventId =>
    if eventId ≠ "" ∧ seen eventId = none then Function.update seen eventId (some now) else seen

def forget (seen : String → Option String) (msgId : Option String) : String → Option String :=
  match msgId with
  | none => seen
  | some eventId => if eventId ≠ "" then Function.update seen eventId none else seen

def received (s : System) (n : ℕ) (ack : Signal) : ℕ → Bool :=
  if ack.arrives then Function.update s.acked n true else s.acked

def forgotten (s : System) (a : Attempt) : ℕ → String → Option String :=
  Function.update s.firstFailureSeen a.client
    (forget (s.firstFailureSeen a.client) a.msg.msgId)

/-- The handler returned: `ack`, and then the failure that was noted is forgotten. -/
def succeeded (s : System) (a : Attempt) (ack : Signal) : System :=
  { s with
    processed := s.processed ++ [a.sequence]
    acked := received s a.sequence ack
    firstFailureSeen := if ack.raises then s.firstFailureSeen else forgotten s a }

/-- `nak(delay=...)`; for a message that was acknowledged it does nothing. -/
def retried (s : System) (a : Attempt) (nak : Signal) : System :=
  let delay := redeliveryBackoffSeconds.getD
    (min (a.numDelivered - 1) (redeliveryBackoffSeconds.length - 1)) 0
  if nak.arrives then
    { s with redeliverAt := Function.update s.redeliverAt a.sequence (s.clock + delay) }
  else s

def deadLetterInfo (durableName : String) (s : System) (a : Attempt) (now : String)
    (error : HandlerError) : DeadLetterInfo where
  originalEventId := a.msg.msgId
  consumerName := durableName
  errorType := error.typeName
  errorMessage := String.ofList (error.text.toList.take 1000)
  attemptCount := a.numDelivered
  firstFailureAt := (s.firstFailureSeen a.client (a.msg.msgId.getD "")).getD now
  lastFailureAt := now
  originalSubject := a.msg.subject

def lettered (s : System) (a : Attempt) (info : DeadLetterInfo) : System :=
  { s with failed := s.failed ++ [⟨failedSubjectFor a.msg.subject, info.payload, a.sequence⟩] }

/-- `_dead_letter` past its publish, and the `ack` after it. -/
def alerted (s : System) (a : Attempt) (info : DeadLetterInfo) (alertRaises : Bool)
    (ack : Signal) : System :=
  { s with
    firstFailureSeen := forgotten s a
    alerts := s.alerts ++ [info]
    acked := if alertRaises then s.acked else received s a.sequence ack }

def setPhase (s : System) (d : ℕ) (a : Attempt) (phase : Phase) : System :=
  { s with attempts := Function.update s.attempts d (some { a with phase }) }

def due (s : System) (n : ℕ) : Bool :=
  !s.acked n && s.delivered n < maxDeliverAttempts && s.redeliverAt n ≤ s.clock

def delivery (s : System) (d client n : ℕ) (m : Msg) : System :=
  { s with
    delivered := Function.update s.delivered n (s.delivered n + 1)
    redeliverAt := Function.update s.redeliverAt n (s.clock + ackWaitSeconds)
    attempts := Function.update s.attempts d (some ⟨client, n, m, s.delivered n + 1, .fetched⟩) }

def begun (s : System) (d : ℕ) (a : Attempt) (now : String) : System :=
  { setPhase s d a (.handling now) with
    firstFailureSeen := Function.update s.firstFailureSeen a.client
      (note (s.firstFailureSeen a.client) a.msg.msgId now) }

def step (durableName : String) (s : System) : Event → System
  | .tick seconds => { s with clock := s.clock + seconds }
  | .publish m => { s with stream := s.stream ++ [m] }
  | .deliver d client n =>
    match s.attempts d, s.stream[n]? with
    | none, some m => if due s n then delivery s d client n m else s
    | _, _ => s
  | .begin d now =>
    match s.attempts d with
    | some ⟨client, n, m, num, .fetched⟩ => begun s d ⟨client, n, m, num, .fetched⟩ now
    | _ => s
  | .succeed d ack =>
    match s.attempts d with
    | some ⟨client, n, m, num, .handling now⟩ =>
      close (succeeded s ⟨client, n, m, num, .handling now⟩ ack) (isAttempt d)
    | _ => s
  | .fail d error nak =>
    match s.attempts d with
    | some ⟨client, n, m, num, .handling now⟩ =>
      if num ≥ maxDeliverAttempts then
        setPhase s d ⟨client, n, m, num, .handling now⟩ (.deadLettering now error)
      else close (retried s ⟨client, n, m, num, .handling now⟩ nak) (isAttempt d)
    | _ => s
  | .deadLetter d reply alertRaises ack =>
    match s.attempts d with
    | some ⟨client, n, m, num, .deadLettering now error⟩ =>
      let a : Attempt := ⟨client, n, m, num, .deadLettering now error⟩
      let info := deadLetterInfo durableName s a now error
      match reply with
      | .acked => close (alerted (lettered s a info) a info alertRaises ack) (isAttempt d)
      | .ackLost => close (lettered s a info) (isAttempt d)
      | .lost => close s (isAttempt d)
    | _ => s
  | .lose d => close s (isAttempt d)
  | .crash client =>
    close { s with firstFailureSeen := Function.update s.firstFailureSeen client fun _ => none }
      (isOf client)

def start : System where
  clock := 0
  stream := []
  delivered := fun _ => 0
  acked := fun _ => false
  redeliverAt := fun _ => 0
  attempts := fun _ => none
  firstFailureSeen := fun _ _ => none
  processed := []
  failed := []
  alerts := []

/-- A dead letter on the subject of message `n`, naming it. -/
def DeadLettered (s : System) (n : ℕ) : Prop :=
  ∃ m, s.stream[n]? = some m ∧ ∃ l ∈ s.failed, l.sequence = n ∧
    l.subject = failedSubjectFor m.subject ∧
    l.payload.get? "original_subject" = some (.str m.subject) ∧
    l.payload.get? "original_event_id" = some ((m.msgId.map Json.str).getD .null)

def Settled (s : System) (n : ℕ) : Prop := n ∈ s.processed ∨ DeadLettered s n

def Eligible (s : System) (n : ℕ) : Prop :=
  s.acked n = false ∧ s.delivered n < maxDeliverAttempts

def Underway (s : System) (ended : ℕ → Attempt → Bool) (n : ℕ) : Prop :=
  ∃ d a, s.attempts d = some a ∧ a.sequence = n ∧ ended d a = false

def noAttempt : ℕ → Attempt → Bool := fun _ _ => false

/-- A message that was delivered is processed, dead-lettered or to be delivered
again, or an attempt at it has not ended. -/
def Safe (s : System) : Prop :=
  ∀ n, 1 ≤ s.delivered n → Settled s n ∨ Eligible s n ∨ Underway s noAttempt n

/-- The attempts that `ended` picks are not the last chance of their messages. -/
def Spare (s : System) (ended : ℕ → Attempt → Bool) : Prop :=
  ∀ d a, s.attempts d = some a → ended d a = true →
    s.delivered a.sequence < maxDeliverAttempts ∨ Settled s a.sequence ∨
      Underway s ended a.sequence

/-- The steps that lose no message: where an attempt ends with neither a result
nor a dead letter, its message has deliveries left, or another attempt at it
settled it or goes on. -/
def Admitted (s : System) : Event → Prop
  | .fail d _ _ => ∀ client n m num now, s.attempts d = some ⟨client, n, m, num, .handling now⟩ →
      num < maxDeliverAttempts → Spare s (isAttempt d)
  | .deadLetter d .lost _ _ => ∀ client n m num now error,
      s.attempts d = some ⟨client, n, m, num, .deadLettering now error⟩ → Spare s (isAttempt d)
  | .lose d => Spare s (isAttempt d)
  | .crash client => Spare s (isOf client)
  | _ => True

structure Bound (s : System) : Prop where
  /-- Only what is settled is acknowledged. -/
  acked : ∀ n, s.acked n = true → Settled s n
  /-- A client has the message in hand that the stream holds. -/
  msg : ∀ d a, s.attempts d = some a → s.stream[a.sequence]? = some a.msg

/-- Nothing that keeps a message from being lost is gone in `s'`. -/
structure Carries (s s' : System) : Prop where
  delivered : s'.delivered = s.delivered
  settled : ∀ n, Settled s n → Settled s' n
  acked : ∀ n, s'.acked n = true → s.acked n = true ∨ Settled s' n
  underway : ∀ n, Underway s noAttempt n → Underway s' noAttempt n

theorem Carries.safe {s s' : System} (carries : Carries s s') (safe : Safe s) : Safe s' := by
  intro n once
  rw [carries.delivered] at once
  rcases safe n once with settled | ⟨unacked, left⟩ | underway
  · exact .inl (carries.settled n settled)
  · cases now : s'.acked n with
    | false => exact .inr (.inl ⟨now, by rw [carries.delivered]; exact left⟩)
    | true =>
      rcases carries.acked n now with before | settled
      · rw [before] at unacked
        contradiction
      · exact .inl settled
  · exact .inr (.inr (carries.underway n underway))

theorem underway_close {s : System} {ended : ℕ → Attempt → Bool} {n : ℕ} :
    Underway (close s ended) noAttempt n ↔ Underway s ended n := by
  constructor
  · rintro ⟨d, a, found, same, -⟩
    simp only [close, Option.filter_eq_some_iff, Bool.not_eq_true'] at found
    exact ⟨d, a, found.1, same, found.2⟩
  · rintro ⟨d, a, found, same, goesOn⟩
    refine ⟨d, a, ?_, same, rfl⟩
    simp only [close, Option.filter_eq_some_iff, Bool.not_eq_true']
    exact ⟨found, goesOn⟩

theorem safe_close_iff {s : System} (bound : Bound s) (safe : Safe s)
    (ended : ℕ → Attempt → Bool) : Safe (close s ended) ↔ Spare s ended := by
  constructor
  · intro kept d a found ends
    by_cases left : s.delivered a.sequence < maxDeliverAttempts
    · exact .inl left
    have once : 1 ≤ s.delivered a.sequence := by
      simp only [maxDeliverAttempts] at left
      omega
    rcases kept a.sequence once with settled | eligible | underway
    · exact .inr (.inl settled)
    · exact absurd eligible.2 left
    · exact .inr (.inr (underway_close.mp underway))
  · intro spare n once
    rcases safe n once with settled | eligible | ⟨d, a, found, rfl, -⟩
    · exact .inl settled
    · exact .inr (.inl eligible)
    · cases ends : ended d a with
      | false => exact .inr (.inr (underway_close.mpr ⟨d, a, found, rfl, ends⟩))
      | true =>
        rcases spare d a found ends with left | settled | underway
        · cases now : s.acked a.sequence with
          | false => exact .inr (.inl ⟨now, left⟩)
          | true => exact .inl (bound.acked _ now)
        · exact .inl settled
        · exact .inr (.inr (underway_close.mpr underway))

theorem Bound.close {s : System} (bound : Bound s) (ended : ℕ → Attempt → Bool) :
    Bound (close s ended) := by
  refine ⟨bound.acked, fun d a found => ?_⟩
  simp only [DeadLetters.close, Option.filter_eq_some_iff] at found
  exact bound.msg d a found.1

theorem spare_of_settled {s : System} {d : ℕ} {a : Attempt} (found : s.attempts d = some a)
    (settled : Settled s a.sequence) : Spare s (isAttempt d) := by
  intro d' a' found' ends
  have same : d' = d := by simpa [isAttempt] using ends
  rw [same, found] at found'
  cases found'
  exact .inr (.inl settled)

theorem safe_end {s : System} (bound : Bound s) (safe : Safe s) {d : ℕ} {a : Attempt}
    (found : s.attempts d = some a) (settled : Settled s a.sequence) :
    Safe (close s (isAttempt d)) :=
  (safe_close_iff bound safe _).mpr (spare_of_settled found settled)

/-! The changes a step makes before it ends an attempt. -/

theorem settled_of_subset {s s' : System} {n : ℕ} (stream : s'.stream = s.stream)
    (processed : s.processed ⊆ s'.processed) (failed : s.failed ⊆ s'.failed)
    (settled : Settled s n) : Settled s' n := by
  rcases settled with handled | ⟨m, here, l, stored, names⟩
  · exact .inl (processed handled)
  · exact .inr ⟨m, stream ▸ here, l, failed stored, names⟩

theorem acked_received {s : System} (s' : System) {n : ℕ} {ack : Signal} (settled : Settled s' n)
    {k : ℕ} (now : received s n ack k = true) : s.acked k = true ∨ Settled s' k := by
  rw [received] at now
  split at now
  · by_cases same : k = n
    · exact .inr (same ▸ settled)
    · rw [Function.update_of_ne same] at now
      exact .inl now
  · exact .inl now

theorem Bound.carried {s s' : System} (bound : Bound s) (carries : Carries s s')
    (stream : s'.stream = s.stream) (attempts : s'.attempts = s.attempts) : Bound s' := by
  refine ⟨fun n now => ?_, fun d a found => ?_⟩
  · rcases carries.acked n now with before | settled
    · exact carries.settled n (bound.acked n before)
    · exact settled
  · rw [attempts] at found
    rw [stream]
    exact bound.msg d a found

theorem succeeded_settled (s : System) (a : Attempt) (ack : Signal) :
    Settled (succeeded s a ack) a.sequence :=
  .inl (List.mem_append_right _ (List.mem_singleton_self _))

theorem succeeded_carries (s : System) (a : Attempt) (ack : Signal) :
    Carries s (succeeded s a ack) where
  delivered := rfl
  settled := fun _ => settled_of_subset rfl (List.subset_append_left _ _) (List.Subset.refl _)
  acked := fun _ now => acked_received _ (succeeded_settled s a ack) now
  underway := fun _ underway => underway

theorem retried_carries (s : System) (a : Attempt) (nak : Signal) : Carries s (retried s a nak) := by
  rw [retried]
  split
  · exact ⟨rfl, fun _ settled => settled, fun _ now => .inl now, fun _ underway => underway⟩
  · exact ⟨rfl, fun _ settled => settled, fun _ now => .inl now, fun _ underway => underway⟩

@[simp] theorem retried_stream (s : System) (a : Attempt) (nak : Signal) :
    (retried s a nak).stream = s.stream := by
  rw [retried]
  split <;> rfl

@[simp] theorem retried_attempts (s : System) (a : Attempt) (nak : Signal) :
    (retried s a nak).attempts = s.attempts := by
  rw [retried]
  split <;> rfl

theorem lettered_carries (s : System) (a : Attempt) (info : DeadLetterInfo) :
    Carries s (lettered s a info) where
  delivered := rfl
  settled := fun _ => settled_of_subset rfl (List.Subset.refl _) (List.subset_append_left _ _)
  acked := fun _ now => .inl now
  underway := fun _ underway => underway

theorem lettered_settled {s : System} {a : Attempt} (here : s.stream[a.sequence]? = some a.msg)
    (durableName : String) (t : System) (now : String) (error : HandlerError) :
    Settled (lettered s a (deadLetterInfo durableName t a now error)) a.sequence := by
  refine .inr ⟨a.msg, here, _, List.mem_append_right _ (List.mem_singleton_self _), rfl, rfl, ?_, ?_⟩
  · rfl
  · rfl

theorem alerted_carries {s : System} {a : Attempt} (settled : Settled s a.sequence)
    (info : DeadLetterInfo) (alertRaises : Bool) (ack : Signal) :
    Carries s (alerted s a info alertRaises ack) where
  delivered := rfl
  settled := fun _ settled => settled
  acked := by
    intro n now
    cases alertRaises with
    | true => exact .inl now
    | false => exact acked_received (alerted s a info false ack) settled now
  underway := fun _ underway => underway

theorem setPhase_carries {s : System} {d : ℕ} {a : Attempt} (found : s.attempts d = some a)
    (phase : Phase) : Carries s (setPhase s d a phase) where
  delivered := rfl
  settled := fun _ settled => settled
  acked := fun _ now => .inl now
  underway := by
    rintro n ⟨d', a', found', same, -⟩
    by_cases here : d' = d
    · subst here
      rw [found] at found'
      cases found'
      exact ⟨d', { a with phase }, Function.update_self _ _ _, same, rfl⟩
    · exact ⟨d', a', (Function.update_of_ne here _ _).trans found', same, rfl⟩

theorem Bound.setPhase {s : System} (bound : Bound s) {d : ℕ} {a : Attempt}
    (found : s.attempts d = some a) (phase : Phase) : Bound (setPhase s d a phase) := by
  refine ⟨bound.acked, fun d' a' found' => ?_⟩
  by_cases here : d' = d
  · subst here
    simp only [DeadLetters.setPhase, Function.update_self, Option.some.injEq] at found'
    subst found'
    exact bound.msg d' a found
  · exact bound.msg d' a' ((Function.update_of_ne here _ _).symm.trans found')

theorem delivery_safe {s : System} (safe : Safe s) {d n : ℕ} (client : ℕ) (m : Msg)
    (free : s.attempts d = none) : Safe (delivery s d client n m) := by
  intro k once
  by_cases same : k = n
  · subst same
    exact .inr (.inr ⟨d, _, Function.update_self _ _ _, rfl, rfl⟩)
  · have count : (delivery s d client n m).delivered k = s.delivered k :=
      Function.update_of_ne same _ _
    rw [count] at once
    rcases safe k once with settled | ⟨unacked, left⟩ | ⟨d', a, found, at', -⟩
    · exact .inl settled
    · exact .inr (.inl ⟨unacked, by rw [count]; exact left⟩)
    · have other : d' ≠ d := by
        rintro rfl
        rw [free] at found
        contradiction
      exact .inr (.inr ⟨d', a, (Function.update_of_ne other _ _).trans found, at', rfl⟩)

theorem Bound.delivery {s : System} (bound : Bound s) {d n : ℕ} (client : ℕ) {m : Msg}
    (here : s.stream[n]? = some m) : Bound (delivery s d client n m) := by
  refine ⟨bound.acked, fun d' a found => ?_⟩
  by_cases same : d' = d
  · subst same
    simp only [DeadLetters.delivery, Function.update_self, Option.some.injEq] at found
    subst found
    exact here
  · exact bound.msg d' a ((Function.update_of_ne same _ _).symm.trans found)

theorem spare_retried (s : System) (a : Attempt) (nak : Signal) (ended : ℕ → Attempt → Bool) :
    Spare (retried s a nak) ended ↔ Spare s ended := by
  rw [retried]
  split <;> rfl

theorem stream_published {s : System} {n : ℕ} {m' : Msg} (here : s.stream[n]? = some m') (m : Msg) :
    (s.stream ++ [m])[n]? = some m' := by
  obtain ⟨inside, -⟩ := List.getElem?_eq_some_iff.mp here
  rw [List.getElem?_append_left inside]
  exact here

theorem published_carries (s : System) (m : Msg) :
    Carries s { s with stream := s.stream ++ [m] } where
  delivered := rfl
  settled := by
    rintro n (handled | ⟨m', here, stored⟩)
    · exact .inl handled
    · exact .inr ⟨m', stream_published here m, stored⟩
  acked := fun _ now => .inl now
  underway := fun _ underway => underway

theorem bound_step (durableName : String) (s : System) (e : Event) (bound : Bound s) :
    Bound (step durableName s e) := by
  cases e with
  | tick seconds => exact ⟨bound.acked, bound.msg⟩
  | publish m =>
    have carries := published_carries s m
    refine ⟨fun n now => carries.settled n (bound.acked n now), fun d a found => ?_⟩
    exact stream_published (bound.msg d a found) m
  | deliver d client n =>
    simp only [step]
    split
    next here =>
      split
      · exact bound.delivery client here
      · exact bound
    next => exact bound
  | begin d now =>
    simp only [step]
    split
    next found =>
      have next := bound.setPhase found (.handling now)
      exact ⟨next.acked, next.msg⟩
    next => exact bound
  | succeed d ack =>
    simp only [step]
    split
    next => exact (bound.carried (succeeded_carries s _ ack) rfl rfl).close _
    next => exact bound
  | fail d error nak =>
    simp only [step]
    split
    next found =>
      split
      · exact bound.setPhase found _
      · exact (bound.carried (retried_carries s _ nak) (by simp) (by simp)).close _
    next => exact bound
  | deadLetter d reply alertRaises ack =>
    simp only [step]
    split
    next client n m num now error found =>
      have settled := lettered_settled (bound.msg d _ found) durableName s now error
      have carries := lettered_carries s ⟨client, n, m, num, .deadLettering now error⟩
        (deadLetterInfo durableName s ⟨client, n, m, num, .deadLettering now error⟩ now error)
      have stored := bound.carried carries rfl rfl
      cases reply with
      | acked => exact (stored.carried (alerted_carries settled _ alertRaises ack) rfl rfl).close _
      | ackLost => exact stored.close _
      | lost => exact bound.close _
    next => exact bound
  | lose d => exact bound.close _
  | crash client =>
    have next := bound.close (isOf client)
    exact ⟨next.acked, next.msg⟩

theorem safe_step (durableName : String) (s : System) (e : Event) (bound : Bound s)
    (safe : Safe s) : Safe (step durableName s e) ↔ Admitted s e := by
  cases e with
  | tick seconds => exact iff_of_true safe trivial
  | publish m => exact iff_of_true ((published_carries s m).safe safe) trivial
  | deliver d client n =>
    refine iff_of_true ?_ trivial
    simp only [step]
    split
    next free here =>
      split
      · exact delivery_safe safe client _ free
      · exact safe
    next => exact safe
  | begin d now =>
    refine iff_of_true ?_ trivial
    simp only [step]
    split
    next found => exact (setPhase_carries found _).safe safe
    next => exact safe
  | succeed d ack =>
    refine iff_of_true ?_ trivial
    simp only [step]
    split
    next client n m num now found =>
      have carries := succeeded_carries s ⟨client, n, m, num, .handling now⟩ ack
      exact safe_end (bound.carried carries rfl rfl) (carries.safe safe) found
        (succeeded_settled s _ ack)
    next => exact safe
  | fail d error nak =>
    simp only [step, Admitted]
    split
    next client n m num now found =>
      split
      next last =>
        refine iff_of_true ((setPhase_carries found _).safe safe) ?_
        intro _ _ _ _ _ same left
        rw [found] at same
        cases same
        omega
      next left =>
        have carries := retried_carries s ⟨client, n, m, num, .handling now⟩ nak
        rw [safe_close_iff (bound.carried carries (by simp) (by simp)) (carries.safe safe),
          spare_retried]
        constructor
        · intro spare _ _ _ _ _ _ _
          exact spare
        · intro admitted
          exact admitted client n m num now found (Nat.lt_of_not_le left)
    next other => exact iff_of_true safe fun _ _ _ _ _ found => absurd found (other _ _ _ _ _)
  | deadLetter d reply alertRaises ack =>
    simp only [step]
    split
    next client n m num now error found =>
      have settled := lettered_settled (bound.msg d _ found) durableName s now error
      have carries := lettered_carries s ⟨client, n, m, num, .deadLettering now error⟩
        (deadLetterInfo durableName s ⟨client, n, m, num, .deadLettering now error⟩ now error)
      have stored := bound.carried carries rfl rfl
      cases reply with
      | acked =>
        have alert := alerted_carries settled
          (deadLetterInfo durableName s ⟨client, n, m, num, .deadLettering now error⟩ now error)
          alertRaises ack
        refine iff_of_true ?_ trivial
        exact safe_end (stored.carried alert rfl rfl) (alert.safe (carries.safe safe)) found
          (alert.settled _ settled)
      | ackLost => exact iff_of_true (safe_end stored (carries.safe safe) found settled) trivial
      | lost =>
        rw [safe_close_iff bound safe]
        constructor
        · intro spare _ _ _ _ _ _ _
          exact spare
        · intro admitted
          exact admitted client n m num now error found
    next other =>
      refine iff_of_true safe ?_
      cases reply with
      | acked => trivial
      | ackLost => trivial
      | lost => exact fun _ _ _ _ _ _ found => absurd found (other _ _ _ _ _ _)
  | lose d => exact safe_close_iff bound safe _
  | crash client => exact safe_close_iff bound safe (isOf client)

/-- No run loses a message exactly when each of its steps can be spared. -/
theorem consumer_losesNothing_iff (durableName : String) (es : List Event) :
    EventRun.Throughout (step durableName) Safe start es ↔
      EventRun.Along (step durableName) Admitted start es := by
  have initial : Bound start := by
    refine ⟨fun n now => ?_, fun d a found => ?_⟩
    · exact absurd now Bool.false_ne_true
    · exact absurd found.symm (Option.some_ne_none a)
  have safe : Safe start := fun n once => absurd once (Nat.not_succ_le_zero 0)
  exact EventRun.throughout_iff_along (bound_step durableName)
    (fun s e bound safe => safe_step durableName s e bound safe) initial safe es

/-- Delivery `d` of message 0 fails, and the message is due again. -/
def failedDelivery (d : ℕ) : List Event :=
  [.deliver d 0 0, .begin d "2026-07-01T12:00:00+00:00",
   .fail d ⟨"ConnectionError", "database is down"⟩ ⟨true, false⟩, .tick 625]

def lostLetter : List Event :=
  .publish ⟨"agent.heartbeat", some "01J0000000000000000000000A"⟩ ::
    (failedDelivery 0 ++ failedDelivery 1 ++ failedDelivery 2 ++ failedDelivery 3 ++
      failedDelivery 4 ++ [.deadLetter 4 .lost false ⟨true, false⟩])

theorem lostLetter_loses :
    ¬ EventRun.Throughout (step "worker-health") Safe start lostLetter := by
  intro throughout
  have safe := EventRun.throughout_last throughout
  rcases safe 0 (by decide) with (handled | ⟨m, -, l, stored, -⟩) | eligible | ⟨d, a, found, -⟩
  · exact absurd handled (by decide)
  · exact List.not_mem_nil stored
  · exact absurd eligible.2 (by decide)
  · have ended : (EventRun.run (step "worker-health") start lostLetter).attempts d = none := by
      match d with
      | 0 | 1 | 2 | 3 | 4 => rfl
      | d + 5 => rfl
    rw [ended] at found
    contradiction

end Mirage.DeadLetters
