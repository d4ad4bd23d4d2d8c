import Mirage.CaseStateMachine
import Mirage.SandboxActions
import Mirage.SerialReplay
import Mirage.TelemetryIngestion

/-! What concurrent requests amount to: case transitions, sandbox requests and telemetry
submissions have the effect of the accepted ones made one after another. -/

namespace Mirage.CaseHistory
open RowLocks SerialReplay

section
open CaseStateMachine

/-- However `transition_case` calls interleave, the calls that returned, made again one after
another in the order of their commits, leave the same four tables and get the same answers. -/
theorem transitions_replay (digest : String → String) (db : Database) (es : List (Event Call)) :
    let reached := run (lifecycle digest) db es
    let again := run (lifecycle digest) db (replay returned reached.log)
    again.store = reached.store ∧ again.log = reached.log.filter returned :=
  replay_agrees (lifecycle digest) (quiet_returned _) db es

theorem rank_le (state : CaseState) : state.rank ≤ 9 := by
  cases state <;> decide

theorem chain_end {state state' : CaseState} {version version' : Int} {ts : List TransitionRow}
    (chain : Chain state version ts state' version') : state'.rank = state.rank + ts.length := by
  induction ts generalizing state version with
  | nil => rw [chain.1, List.length_nil, Nat.add_zero]
  | cons t rest ih =>
    obtain ⟨-, -, step, later⟩ := chain
    have := rank_allowed step
    have := ih later
    rw [List.length_cons]
    omega

/-- What a case's version is ahead of its state. -/
def lag (row : CaseRow) : Int := row.version - row.state.rank

/-- A case makes at most nine transitions, and its version moves with its state, one for each of them. -/
theorem transitions_bounded (digest : String → String) (db : Database) (es : List (Event Call)) (caseId : String) :
    let reached := (run (lifecycle digest) { db with transitions := [] } es).store
    (transitionsOf reached caseId).length ≤ 9 ∧
      (reached.cases.find caseId).map lag = (db.cases.find caseId).map lag ∧
      (reached.cases.find caseId).map CaseRow.version =
        (db.cases.find caseId).map fun row => row.version + ((transitionsOf reached caseId).length : Int) := by
  intro reached
  have ledger : Ledger digest db reached _ := run_ledger digest db es
  cases found : db.cases.find caseId with
  | none =>
    have none_left : transitionsOf reached caseId = [] := by
      refine List.filter_eq_nil_iff.mpr fun t mem own => ?_
      obtain ⟨row, present⟩ := ledger.known t mem
      rw [of_decide_eq_true own, found] at present
      cases present
    have absent : reached.cases.find caseId = none := by
      refine Option.eq_none_iff_forall_ne_some.mpr fun row present => ?_
      obtain ⟨row₀, present₀⟩ := ledger.same caseId row present
      rw [found] at present₀
      cases present₀
    rw [none_left, absent]
    exact ⟨Nat.zero_le 9, rfl, rfl⟩
  | some row₀ =>
    obtain ⟨row, present, chain⟩ := ledger.chain caseId row₀ found
    have far := chain_end chain
    have moved := chain_length chain
    have last := rank_le row.state
    rw [present, Option.map_some, Option.map_some, Option.map_some, Option.map_some, lag, lag, far, moved]
    refine ⟨by omega, congrArg some ?_, rfl⟩
    rw [Nat.cast_add]
    exact add_sub_add_right_eq_sub ..

end

section
open TelemetryIngestion

/-- A submission that was answered as new, and not as a replay of an old one. -/
def fresh : Request × Except Rejection Accepted → Bool
  | (_, .ok answer) => !answer.replay
  | (_, .error _) => false

theorem quiet_fresh (cfg : Config) : Quiet (endpoint cfg) fresh := by
  intro db req stale
  cases outcome : ((endpoint cfg).atomic req db).2 with
  | error rejection => exact atomic_raise _ outcome
  | ok answer =>
    rw [outcome] at stale
    rcases submitTelemetry_cases (atomic_commit _ outcome) with replayed | ⟨row, -, accepted⟩
    · exact replayed.unchanged
    · rw [fresh, accepted.replay] at stale
      cases stale

/-- Submissions that are replays, are rejected or are lost leave no trace: however they interleave, the new ones alone,
sent one after another in the order in which they were accepted, leave the same tables and get the same answers. -/
theorem telemetry_replay (cfg : Config) (db : AgentDatabase.Database) (es : List (Event Request)) :
    let reached := run (endpoint cfg) db es
    let again := run (endpoint cfg) db (replay fresh reached.log)
    again.store = reached.store ∧ again.log = reached.log.filter fresh :=
  replay_agrees (endpoint cfg) (quiet_fresh cfg) db es

end

/-- The same for the requests of sandboxes: opened actions, recorded results and instances. -/
theorem sandbox_requests_replay (digest : String → String) (db : SandboxActions.Database)
    (es : List (Event SandboxActions.Call)) :
    let reached := run (SandboxActions.ledger digest) db es
    let again := run (SandboxActions.ledger digest) db (replay returned reached.log)
    again.store = reached.store ∧ again.log = reached.log.filter returned :=
  replay_agrees (SandboxActions.ledger digest) (quiet_returned _) db es

end Mirage.CaseHistory
