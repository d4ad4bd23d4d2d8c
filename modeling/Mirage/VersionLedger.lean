import Mirage.SandboxActions

/-! The ledger of sandbox versions. -/

namespace Mirage.VersionLedger
open SandboxActions EventEnvelope AuditOutbox RowLocks

def successOf (sandboxId : String) (r : ActionRow) : Option Int :=
  if r.sandboxId = sandboxId ∧ r.status = "SUCCESS" ∧ r.actionType.mutating = true then
    some r.expectedStateVersion
  else none

def successes (db : Database) (sandboxId : String) : List Int :=
  db.actions.rows.filterMap (successOf sandboxId)

def initialVersion (db₀ : Database) (sandboxId : String) : Int :=
  ((db₀.sandboxes.find sandboxId).map SandboxRow.stateVersion).getD 0

def unopened (db₀ : Database) : Database := { db₀ with actions := .empty }

abbrev Log := List (Call × Except Failure Answer)

def opened (log : Log) : List PendingAction :=
  log.filterMap fun
    | (_, .ok (.pending a)) => some a
    | _ => none

def recorded (log : Log) : List String :=
  log.filterMap fun
    | (.record call, .ok _) => some call.action.actionId
    | _ => none

def Allowed (log : Log) : Call → Prop
  | .record call => call.action ∈ opened log ∧ call.action.actionId ∉ recorded log
  | _ => True

def Once (log : Log) : Prop := ∀ front entry, front ++ [entry] <+: log → Allowed front entry.1

def consecutive (v : Int) (n : ℕ) : List Int := (List.range n).map fun i : ℕ => v + (i : Int)

theorem consecutive_succ (v : Int) (n : ℕ) :
    (consecutive v (n + 1)).Perm ((v + n) :: consecutive v n) := by
  unfold consecutive
  rw [List.range_succ, List.map_append]
  exact List.perm_append_singleton _ _

theorem mem_consecutive {v w : Int} {n : ℕ} : w ∈ consecutive v n ↔ v ≤ w ∧ w < v + n := by
  simp only [consecutive, List.mem_map, List.mem_range]
  constructor
  · rintro ⟨i, hi, rfl⟩
    omega
  · intro h
    exact ⟨(w - v).toNat, by omega, by omega⟩

theorem nodup_consecutive (v : Int) (n : ℕ) : (consecutive v n).Nodup := by
  refine List.Nodup.map (fun i j h => ?_) List.nodup_range
  have : v + (i : Int) = v + (j : Int) := h
  omega

def Segment (v₀ : Int) (versions : List Int) (v : Int) : Prop :=
  v = v₀ + versions.length ∧ versions.Perm (consecutive v₀ versions.length)

theorem segment_nil (v₀ : Int) : Segment v₀ [] v₀ := ⟨by simp, List.Perm.refl []⟩

theorem segment_cons {v₀ v : Int} {versions versions' : List Int} (segment : Segment v₀ versions v)
    (grown : versions'.Perm (v :: versions)) : Segment v₀ versions' (v + 1) := by
  obtain ⟨total, perm⟩ := segment
  have longer := grown.length_eq
  rw [List.length_cons] at longer
  unfold Segment
  rw [longer]
  refine ⟨by push_cast; omega, grown.trans (List.Perm.trans ?_ (consecutive_succ _ _).symm)⟩
  rw [total]
  exact perm.cons _

theorem opened_append (log : Log) (entry : Call × Except Failure Answer) :
    opened (log ++ [entry]) = opened log ++ opened [entry] := List.filterMap_append

theorem recorded_append (log : Log) (entry : Call × Except Failure Answer) :
    recorded (log ++ [entry]) = recorded log ++ recorded [entry] := List.filterMap_append

def OpenRow (db : Database) (log : Log) (a : PendingAction) : Prop :=
  ∃ r, db.actions.find a.actionId = some r ∧ r.sandboxId = a.sandboxId ∧
    r.actionType = a.actionType ∧ r.expectedStateVersion = a.expectedStateVersion ∧
    (a.actionId ∉ recorded log → r.status = "PENDING")

structure Accounted (db₀ db : Database) (log : Log) : Prop where
  rows : ∀ a ∈ opened log, OpenRow db log a
  kept : ∀ sandboxId row₀, db₀.sandboxes.find sandboxId = some row₀ →
    ∃ row, db.sandboxes.find sandboxId = some row
  absent : ∀ sandboxId, db.sandboxes.find sandboxId = none → successes db sandboxId = []
  versions : ∀ sandboxId row, db.sandboxes.find sandboxId = some row →
    Segment (initialVersion db₀ sandboxId) (successes db sandboxId) row.stateVersion

section
variable {db₀ db : Database} {log : Log}

theorem accounted_raised (accounted : Accounted db₀ db log) (call : Call) (failure : Failure) :
    Accounted db₀ db (log ++ [(call, .error failure)]) := by
  have sameOpened : opened (log ++ [(call, .error failure)]) = opened log := by
    rw [opened_append]
    exact List.append_nil _
  have sameRecorded : recorded (log ++ [(call, .error failure)]) = recorded log := by
    rw [recorded_append]
    cases call <;> exact List.append_nil _
  refine ⟨fun a ha => ?_, accounted.kept, accounted.absent, accounted.versions⟩
  rw [sameOpened] at ha
  obtain ⟨r, found, sandbox, type, expected, pending⟩ := accounted.rows a ha
  exact ⟨r, found, sandbox, type, expected, by rw [sameRecorded]; exact pending⟩

theorem accounted_ensured (accounted : Accounted db₀ db log) (sandboxId caseId : String) (stored : Bool)
    (n : Int) :
    Accounted db₀ { db with sandboxes := db.sandboxes.upsert ⟨sandboxId, caseId, 0⟩ id fun _ => rfl }
      (log ++ [(.ensureSandbox sandboxId caseId stored, .ok (.version n))]) := by
  have find := find_ensured db.sandboxes sandboxId caseId
  refine ⟨fun a ha => ?_, fun k row₀ h => ?_, fun k h => ?_, fun k row h => ?_⟩
  · rw [opened_append] at ha
    obtain ⟨r, found, rest⟩ := accounted.rows a (by simpa [opened] using ha)
    refine ⟨r, found, ?_⟩
    rw [recorded_append]
    simpa [recorded] using rest
  · show ∃ row, (db.sandboxes.upsert ⟨sandboxId, caseId, 0⟩ id fun _ => rfl).find k = some row
    rw [find]
    split
    · exact ⟨_, rfl⟩
    · exact accounted.kept k row₀ h
  · change (db.sandboxes.upsert ⟨sandboxId, caseId, 0⟩ id fun _ => rfl).find k = none at h
    rw [find] at h
    split at h
    · cases h
    · exact accounted.absent k h
  · change (db.sandboxes.upsert ⟨sandboxId, caseId, 0⟩ id fun _ => rfl).find k = some row at h
    rw [find] at h
    split at h
    · rename_i here
      subst here
      cases known : db.sandboxes.find k with
      | some old =>
        rw [known] at h
        cases h
        exact accounted.versions k old known
      | none =>
        rw [known] at h
        cases h
        have none₀ : db₀.sandboxes.find k = none := by
          cases known₀ : db₀.sandboxes.find k with
          | none => rfl
          | some row₀ =>
            obtain ⟨row, found⟩ := accounted.kept k row₀ known₀
            rw [known] at found
            cases found
        have empty : successes { db with
            sandboxes := db.sandboxes.upsert ⟨k, caseId, 0⟩ id fun _ => rfl } k = [] :=
          accounted.absent k known
        rw [empty, initialVersion, none₀]
        exact segment_nil 0
    · exact accounted.versions k row h

theorem successes_opened {call : OpenCall} {row : Option SandboxRow} {db' : Database}
    {a : PendingAction} (done : Opened call row db db' a) (sandboxId : String) :
    successes db' sandboxId = successes db sandboxId := by
  unfold successes
  rw [(KeyedTable.insert_eq_some done.inserted).2, List.filterMap_append]
  simp [successOf, pendingRow]

theorem accounted_opened {call : OpenCall} {row : Option SandboxRow} {db' : Database}
    {a : PendingAction} (accounted : Accounted db₀ db log) (done : Opened call row db db' a) :
    Accounted db₀ db' (log ++ [(.openAction call, .ok (.pending a))]) := by
  have sameRecorded : recorded (log ++ [(.openAction call, .ok (.pending a))]) = recorded log := by
    rw [recorded_append]
    exact List.append_nil _
  have find := KeyedTable.find_insert done.inserted
  refine ⟨fun b hb => ?_, ?_, fun k h => ?_, fun k row' h => ?_⟩
  · rw [opened_append] at hb
    rcases List.mem_append.mp hb with old | new
    · obtain ⟨r, found, rest⟩ := accounted.rows b old
      have other : a.actionId ≠ b.actionId := by
        intro same
        have listed := List.mem_map_of_mem (f := ActionRow.actionId) (db.actions.mem_of_find found)
        rw [db.actions.key_of_find found, ← same] at listed
        exact done.fresh listed
      refine ⟨r, ?_, ?_⟩
      · rw [find, ← found]
        exact if_neg other
      · rw [sameRecorded]
        exact rest
    · have same : b = a := List.mem_singleton.mp new
      subst same
      exact ⟨pendingRow b, by rw [find]; exact if_pos rfl, rfl, rfl, rfl, fun _ => rfl⟩
  · rw [done.sandboxes]
    exact accounted.kept
  · rw [done.sandboxes] at h
    rw [successes_opened done]
    exact accounted.absent k h
  · rw [done.sandboxes] at h
    rw [successes_opened done]
    exact accounted.versions k row' h

/-- A committed result adds its own version to the successes of its sandbox
if it advances it, and changes no other successes. -/
theorem successes_recorded {digest : String → String} {call : RecordCall}
    {row : Option SandboxRow} {db' : Database} (done : Recorded digest call row db db')
    {r : ActionRow} (found : db.actions.find call.action.actionId = some r)
    (sandbox : r.sandboxId = call.action.sandboxId) (type : r.actionType = call.action.actionType)
    (expected : r.expectedStateVersion = call.action.expectedStateVersion)
    (pending : r.status = "PENDING") (sandboxId : String) :
    if call.advances = true ∧ sandboxId = call.action.sandboxId then
      (successes db' sandboxId).Perm (call.action.expectedStateVersion :: successes db sandboxId)
    else successes db' sandboxId = successes db sandboxId := by
  unfold successes
  rw [done.actions]
  have before : successOf sandboxId r = none := by
    simp [successOf, pending]
  split
  · rename_i advanced
    obtain ⟨advances, rfl⟩ := advanced
    simp only [RecordCall.advances, Bool.and_eq_true, decide_eq_true_eq] at advances
    refine KeyedTable.filterMap_update db.actions (completed_actionId call) found before ?_
    simp [successOf, completed, sandbox, type, expected, advances.1, advances.2]
  · rename_i still
    refine KeyedTable.filterMap_update_same db.actions (completed_actionId call) fun r' h => ?_
    rw [found] at h
    cases h
    rw [before]
    by_contra success
    apply still
    simp only [successOf, completed, sandbox, type] at success
    split at success
    · rename_i now
      simp [RecordCall.advances, now.2.1, now.2.2, now.1]
    · exact absurd rfl success

theorem openRow_recorded {digest : String → String} {call : RecordCall} {row : Option SandboxRow}
    {db' : Database} {n : Int} (done : Recorded digest call row db db') {a : PendingAction}
    (before : OpenRow db log a) : OpenRow db' (log ++ [(.record call, .ok (.version n))]) a := by
  have nowRecorded : recorded (log ++ [(.record call, .ok (.version n))]) =
      recorded log ++ [call.action.actionId] := recorded_append log _
  obtain ⟨r, found, sandbox, type, expected, pending⟩ := before
  rw [OpenRow, nowRecorded]
  by_cases here : a.actionId = call.action.actionId
  · rw [here] at found
    refine ⟨completed call r, ?_, sandbox, type, expected, fun h => ?_⟩
    · rw [done.actions, KeyedTable.find_update, if_pos here, found]
      rfl
    · exact absurd (List.mem_append_right _ (List.mem_singleton.mpr here)) h
  · refine ⟨r, ?_, sandbox, type, expected, fun h => ?_⟩
    · rw [done.actions, KeyedTable.find_update, if_neg here, found]
    · exact pending fun old => h (List.mem_append_left _ old)

theorem accounted_recorded {digest : String → String} {call : RecordCall} {db' : Database}
    {n : Int} (accounted : Accounted db₀ db log) (allowed : Allowed log (.record call))
    (done : Recorded digest call ((lockKey (.record call)).bind db.sandboxes.find) db db') :
    Accounted db₀ db' (log ++ [(.record call, .ok (.version n))]) := by
  obtain ⟨listed, unrecorded⟩ := allowed
  obtain ⟨r, found, sandbox, type, expected, pending⟩ := accounted.rows _ listed
  have sameOpened : opened (log ++ [(.record call, .ok (.version n))]) = opened log := by
    rw [opened_append]
    exact List.append_nil _
  have counted := successes_recorded done found sandbox type expected (pending unrecorded)
  obtain ⟨advanced, rows⟩ := done.sandbox
  refine ⟨fun a ha => ?_, fun k row₀ h => ?_, fun k h => ?_, fun k row h => ?_⟩
  · rw [sameOpened] at ha
    exact openRow_recorded done (accounted.rows a ha)
  · obtain ⟨row, known⟩ := accounted.kept k row₀ h
    rw [rows, known]
    split <;> exact ⟨_, rfl⟩
  · rw [rows] at h
    have count := counted k
    split at h
    · rename_i moved
      obtain ⟨old, known, -⟩ := advanced moved.1
      rw [moved.2, known] at h
      cases h
    · rename_i still
      rw [if_neg still] at count
      rw [count]
      exact accounted.absent k h
  · rw [rows] at h
    have count := counted k
    split at h
    · rename_i moved
      rw [if_pos moved] at count
      obtain ⟨advances, rfl⟩ := moved
      obtain ⟨old, known, version⟩ := advanced advances
      rw [known] at h
      cases h
      have segment := accounted.versions _ old known
      rw [version] at segment
      exact segment_cons segment count
    · rename_i still
      rw [if_neg still] at count
      rw [count]
      exact accounted.versions k row h

end

theorem once_append {log : Log} {entry : Call × Except Failure Answer} :
    Once (log ++ [entry]) ↔ Once log ∧ Allowed log entry.1 := by
  constructor
  · intro once
    refine ⟨fun front e h => once front e (h.trans (List.prefix_append log [entry])), ?_⟩
    exact once log entry (List.prefix_refl _)
  · rintro ⟨once, allowed⟩ front e h
    rcases List.prefix_concat_iff.mp h with last | earlier
    · obtain ⟨rfl, same⟩ := List.append_inj' last rfl
      cases same
      exact allowed
    · exact once front e earlier

theorem atomic_accounted (digest : String → String) {db₀ db : Database} {log : Log} {call : Call}
    (accounted : Accounted db₀ db log) (allowed : Allowed log call) :
    Accounted db₀ ((ledger digest).atomic call db).1
      (log ++ [(call, ((ledger digest).atomic call db).2)]) := by
  cases ran : (ledger digest).atomic call db with
  | mk db' outcome =>
    cases outcome with
    | error failure =>
      have same := atomic_raise (ledger digest) (congrArg Prod.snd ran)
      rw [ran] at same
      subst same
      exact accounted_raised accounted call failure
    | ok answer =>
      obtain ⟨sandboxId, caseId, stored, n, rfl, rfl, rfl⟩ | ⟨c, a, rfl, rfl, done⟩ |
        ⟨c, n, rfl, rfl, done⟩ := atomic_cases ran
      · exact accounted_ensured accounted sandboxId caseId stored n
      · exact accounted_opened accounted done
      · exact accounted_recorded accounted allowed done

theorem run_accounted (digest : String → String) (db₀ : Database) (es : List (Event Call))
    (once : Once (run (ledger digest) (unopened db₀) es).log) :
    Accounted db₀ (run (ledger digest) (unopened db₀) es).store
      (run (ledger digest) (unopened db₀) es).log := by
  refine run_invariant (ledger digest) (I := fun db log => Once log → Accounted db₀ db log)
    (fun _ => ?_) (fun db log call before once => ?_) es once
  · refine ⟨fun _ listed => absurd listed List.not_mem_nil, fun _ row h => ⟨row, h⟩, fun _ _ => rfl,
      fun k row h => ?_⟩
    have known : db₀.sandboxes.find k = some row := h
    have first : initialVersion db₀ k = row.stateVersion := by simp [initialVersion, known]
    rw [first]
    exact segment_nil row.stateVersion
  · obtain ⟨earlier, allowed⟩ := once_append.mp once
    exact atomic_accounted digest (before earlier) allowed

/-- The ledger under any interleaving of the transactions, from any sandboxes,
audit rows, outbox events and artifact tables. -/
theorem version_ledger (digest : String → String) (db₀ : Database) (es : List (Event Call))
    (once : Once (run (ledger digest) (unopened db₀) es).log) :
    let sys := run (ledger digest) (unopened db₀) es
    (∀ sandboxId row, sys.store.sandboxes.find sandboxId = some row →
      row.stateVersion =
        initialVersion db₀ sandboxId + (successes sys.store sandboxId).length ∧
      (successes sys.store sandboxId).Nodup ∧
      ∀ version, version ∈ successes sys.store sandboxId ↔
        initialVersion db₀ sandboxId ≤ version ∧ version < row.stateVersion) ∧
    (∀ sandboxId row₀, db₀.sandboxes.find sandboxId = some row₀ →
      ∃ row, sys.store.sandboxes.find sandboxId = some row) ∧
    (∀ e call failure,
      (step (ledger digest) sys e).log = sys.log ++ [(call, .error failure)] →
      (step (ledger digest) sys e).store = sys.store) := by
  intro sys
  have accounted : Accounted db₀ sys.store sys.log := run_accounted digest db₀ es once
  refine ⟨fun sandboxId row found => ?_, accounted.kept, fun e call failure raised => ?_⟩
  · obtain ⟨total, segment⟩ := accounted.versions sandboxId row found
    refine ⟨total, segment.nodup_iff.mpr (nodup_consecutive _ _), fun version => ?_⟩
    rw [segment.mem_iff, mem_consecutive, total]
  · exact step_raise (ledger digest) (run_current _ _ es) raised

def sampleRun : List (Event Call) := alone
  [.openAction firstOpen, .openAction secondOpen, .record firstResult, .record secondResult]

theorem sampleRun_once :
    Once (run (ledger sampleDigest) (unopened sampleDatabase) sampleRun).log := by
  let db := unopened sampleDatabase
  let db₁ := ((ledger sampleDigest).atomic (.openAction firstOpen) db).1
  have first : ((ledger sampleDigest).atomic (.openAction firstOpen) db).2 =
      .ok (.pending firstResult.action) := rfl
  have second : ((ledger sampleDigest).atomic (.openAction secondOpen) db₁).2 =
      .ok (.pending secondResult.action) := rfl
  rw [sampleRun, run_alone_log]
  simp only [atomics]
  rw [first, second]
  generalize ((ledger sampleDigest).atomic (.record firstResult) _).2 = third
  generalize ((ledger sampleDigest).atomic (.record secondResult) _).2 = fourth
  change Once ([] ++ [_] ++ [_] ++ [_] ++ [_])
  simp only [once_append]
  refine ⟨⟨⟨⟨fun front entry h => ?_, trivial⟩, trivial⟩, ?_, ?_⟩, ?_, ?_⟩
  · simp at h
  · simp [opened]
  · simp [recorded]
  · simp [opened]
  · cases third <;> simp [recorded, firstResult, secondResult, sampleResult, pendingAction,
      firstOpen, secondOpen, sampleOpen]

theorem sampleRun_ledger :
    Once (run (ledger sampleDigest) (unopened sampleDatabase) sampleRun).log ∧
    successes (run (ledger sampleDigest) (unopened sampleDatabase)
      sampleRun).store "sandbox-1" = [0] ∧
    ∀ row, (run (ledger sampleDigest) (unopened sampleDatabase)
      sampleRun).store.sandboxes.find "sandbox-1" = some row → row.stateVersion = 1 := by
  have counted : successes (run (ledger sampleDigest) (unopened sampleDatabase)
      sampleRun).store "sandbox-1" = [0] := by decide +kernel
  refine ⟨sampleRun_once, counted, ?_⟩
  intro row found
  have version := ((version_ledger sampleDigest sampleDatabase sampleRun sampleRun_once).1
    "sandbox-1" row found).1
  rw [counted] at version
  exact version

end Mirage.VersionLedger
