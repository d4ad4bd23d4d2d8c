import Mirage.EventEnvelope
import Mirage.KeyedTable
import Mirage.RowLocks

/-! The audit table and the transactional outbox that every state-changing
transaction of the control services writes to. `announce` is the pair
`validate_event` and `_write_outbox`. -/

namespace Mirage.AuditOutbox
open EventEnvelope RowLocks

structure AuditRow where
  actor : String
  actorType : String
  action : String
  target : String
  outcome : String
  correlationId : String
  detail : Option String

structure OutboxRow where
  eventId : String
  topic : String
  payload : Json

abbrev Outbox := KeyedTable OutboxRow.eventId

/-- `EVENT_TYPE_SUBJECTS`, for the event types written here. -/
def subjectForEventType : String → Option String
  | "case.created" => some "investigation.case.created"
  | "case.state_changed" => some "investigation.case.state_changed"
  | "audit.recorded" => some "audit.recorded"
  | "sandbox.command_result" => some "sandbox.result"
  | "fingerprint.gate_evaluated" => some "investigation.fingerprint_gate_evaluated"
  | _ => none

def outboxRow (topic : String) (envelope : Json) : OutboxRow :=
  ⟨stringAt envelope "event_id", topic, envelope⟩

/-- Validate an event and insert it; a rejected contract, an unmapped event
type and a used event id raise. -/
def announce {ε : Type} (digest : String → String) (contract : ContractError → ε) (refused : ε)
    (eventType : String) (envelope : Json) (outbox : Outbox) : Except ε Outbox := do
  let validated ← (validateEvent digest envelope).mapError contract
  let topic ← present (subjectForEventType eventType) refused
  present (outbox.insert (outboxRow topic validated.envelope)) refused

theorem announce_eq_ok {ε : Type} {digest : String → String} {contract : ContractError → ε}
    {refused : ε} {eventType : String} {envelope : Json} {outbox outbox' : Outbox}
    (h : announce digest contract refused eventType envelope outbox = .ok outbox') :
    ∃ topic, subjectForEventType eventType = some topic ∧
      outbox'.rows = outbox.rows ++ [outboxRow topic envelope] := by
  simp only [announce, bind_eq_ok, present_eq_ok] at h
  obtain ⟨validated, valid, topic, mapped, inserted⟩ := h
  refine ⟨topic, mapped, ?_⟩
  have same : validated.envelope = envelope := by
    cases checked : validateEvent digest envelope with
    | error e =>
      rw [checked] at valid
      cases valid
    | ok v =>
      rw [checked] at valid
      cases valid
      exact (validateEvent_envelope checked).2
  rw [← same]
  exact (KeyedTable.insert_eq_some inserted).2

def isInteger : Option Json → Int → Bool
  | some (.int n), m => n = m
  | _, _ => false

end Mirage.AuditOutbox
