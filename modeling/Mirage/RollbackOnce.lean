import Mirage.ControllerRollback

/-! The journal of the controller over a run of calls with new action ids. It is written
in two ways: a call records itself, and a rollback that succeeds marks the entry it names.
-/

namespace Mirage.RollbackOnce
open EnvController FileTree
open ControllerRollback (step succeeds)
open SandboxActions (ActionType actionTypeOf)

variable {τ : Type}

structure Fresh (c : Controller τ) (calls : List (Call τ)) : Prop where
  distinct : (calls.map (·.actionId)).Nodup
  unused : ∀ call ∈ calls, c.journal.find call.actionId = none

def target (call : Call τ) : Option String :=
  if actionTypeOf call.actionType = some .rollbackAction then
    match (item call.params "target_action_id").bind boundText with
    | .ok id => id
    | .error _ => none
  else none

section
variable (x : Externals τ) (ctx : Context)

def undone : Controller τ → List (Call τ) → List String
  | _, [] => []
  | c, call :: rest =>
    ((target call).filter fun _ => succeeds x ctx c call).toList ++ undone (step x ctx c call) rest

end

structure Kept (row later : JournalRow) : Prop where
  actionType : later.actionType = row.actionType
  actionParams : later.actionParams = row.actionParams
  rollbackDefinition : later.rollbackDefinition = row.rollbackDefinition
  status : later.status = row.status ∨ (row.status = .success ∧ later.status = .rolledBack)

theorem Kept.refl (row : JournalRow) : Kept row row := ⟨rfl, rfl, rfl, .inl rfl⟩

theorem Kept.trans {row middle later : JournalRow} (first : Kept row middle) (second : Kept middle later) :
    Kept row later := by
  refine ⟨second.actionType.trans first.actionType, second.actionParams.trans first.actionParams,
    second.rollbackDefinition.trans first.rollbackDefinition, ?_⟩
  rcases second.status with same | ⟨success, rolledBack⟩
  · rw [same]
    exact first.status
  · rcases first.status with same | ⟨-, marked⟩
    · exact .inr ⟨same ▸ success, rolledBack⟩
    · rw [marked] at success
      cases success

theorem Kept.marked {row : JournalRow} (success : row.status = .success) :
    Kept row { row with status := .rolledBack } :=
  ⟨rfl, rfl, rfl, .inr ⟨success, rfl⟩⟩

theorem Kept.rolledBack {row later : JournalRow} (kept : Kept row later) (marked : row.status = .rolledBack) :
    later.status = .rolledBack := by
  rcases kept.status with same | ⟨-, marked'⟩
  · rw [same, marked]
  · exact marked'

structure Recorded (x : Externals τ) (ctx : Context) (c : Controller τ) (call : Call τ) : Prop where
  /-- A rollback succeeds on an entry of status SUCCESS, whose definition was
  applied, and marks it. -/
  applied : ∀ id, target call = some id → succeeds x ctx c call = true →
    ∃ row, c.journal.find id = some row ∧ row.status = .success ∧
      (undo x ctx call.clock row c.files).result = .ok () ∧
      (step x ctx c call).files = (undo x ctx call.clock row c.files).state ∧
      (step x ctx c call).journal.find id = some { row with status := .rolledBack }
  /-- A rollback that fails leaves the entry to be rolled back. -/
  failed : ∀ id outcome, target call = some id → (executeAction x ctx c call).outcome = some outcome →
    outcome.status = .failed →
      ∃ row, c.journal.find id = some row ∧ row.status = .success ∧
        (step x ctx c call).journal.find id = some row
  refused : actionTypeOf call.actionType = some .rollbackAction → (∀ outcome,
    (executeAction x ctx c call).outcome = some outcome →
      outcome.status ≠ .success ∧ outcome.status ≠ .failed) → step x ctx c call = c
  /-- A call that succeeds is recorded with the definition it reports. -/
  success : ∀ outcome, (executeAction x ctx c call).outcome = some outcome → outcome.status = .success →
    ∃ row, (step x ctx c call).journal.find call.actionId = some row ∧ row.status = .success ∧
      row.rollbackDefinition = outcome.rollbackDefinition
  others : ∀ id, id ≠ call.actionId → (target call = some id → succeeds x ctx c call = false) →
    (step x ctx c call).journal.find id = c.journal.find id

structure RollsBackOnce (x : Externals τ) (ctx : Context) (c : Controller τ) (calls : List (Call τ)) :
    Prop where
  once : (undone x ctx c calls).Nodup
  recorded : EventRun.Along (step x ctx) (Recorded x ctx) c calls
  kept : ∀ front middle, front ++ middle <+: calls → ∀ id row,
    (EventRun.run (step x ctx) c front).journal.find id = some row →
      ∃ later, (EventRun.run (step x ctx) c (front ++ middle)).journal.find id = some later ∧ Kept row later

inductive Ends (x : Externals τ) (ctx : Context) (c : Controller τ) (call : Call τ) : Executed τ → Prop where
  | refused (outcome : Option ActionOutcome) (no : ∀ o, outcome = some o → o.status = .rejected) :
      Ends x ctx c call ⟨outcome, c, []⟩
  | performed (outcome : ActionOutcome) (files : Files τ) (row : JournalRow) (touched : List Loc)
      (other : actionTypeOf call.actionType ≠ some .rollbackAction) (actionId : row.actionId = call.actionId)
      (status : row.status = outcome.status)
      (definition : row.rollbackDefinition = outcome.rollbackDefinition) :
      Ends x ctx c call ⟨some outcome, ⟨files, record c.journal row⟩, touched⟩
  | failed (entry : JournalRow) (outcome : ActionOutcome) (row : JournalRow) (files : Files τ)
      (touched : List Loc) (named : target call = some entry.actionId)
      (found : c.journal.find entry.actionId = some entry) (success : entry.status = .success)
      (status : outcome.status = .failed) (actionId : row.actionId = call.actionId) :
      Ends x ctx c call ⟨some outcome, ⟨files, record c.journal row⟩, touched⟩
  | undone (entry : JournalRow) (outcome : ActionOutcome) (row : JournalRow) (touched : List Loc)
      (named : target call = some entry.actionId)
      (found : c.journal.find entry.actionId = some entry) (success : entry.status = .success)
      (applied : (undo x ctx call.clock entry c.files).result = .ok ())
      (status : outcome.status = .success) (actionId : row.actionId = call.actionId)
      (status' : row.status = .success) (definition : row.rollbackDefinition = outcome.rollbackDefinition) :
      Ends x ctx c call ⟨some outcome, ⟨(undo x ctx call.clock entry c.files).state,
        record (markStatus c.journal entry.actionId .rolledBack) row⟩, touched⟩

section
variable {x : Externals τ} {ctx : Context} {c : Controller τ} {call : Call τ}

theorem ends_perform {actionType : ActionType} (named : actionTypeOf call.actionType = some actionType)
    (other : actionType ≠ .rollbackAction) : Ends x ctx c call (perform x ctx c call actionType) := by
  have other' : actionTypeOf call.actionType ≠ some .rollbackAction := by
    rw [named]
    exact fun same => other (Option.some.inj same)
  unfold perform
  dsimp only
  split
  · exact .performed _ _ _ _ other' rfl rfl rfl
  · exact .performed _ _ _ _ other' rfl rfl rfl

theorem ends_rollBack {entry : JournalRow} (named : target call = some entry.actionId)
    (found : c.journal.find entry.actionId = some entry) (success : entry.status = .success) :
    Ends x ctx c call (rollBack x ctx c call entry) := by
  unfold rollBack
  cases defined : entry.rollbackDefinition with
  | none =>
    have same : undo x ctx call.clock entry c.files = ⟨.ok (), c.files, []⟩ := by
      rw [undo, defined]
      rfl
    have ends : Ends x ctx c call _ := .undone entry
      ⟨.success, defaultOutputTag .rollbackAction, some .noop, none⟩
      ⟨call.actionId, .rollbackAction, call.params, some .noop, .success⟩ [] named found success
      (by rw [same]) rfl rfl rfl rfl
    rw [same] at ends
    exact ends
  | some definition =>
    have same : applyRollbackDefinition x ctx call.clock definition c.files =
        undo x ctx call.clock entry c.files := by rw [undo, defined]
    dsimp only
    rw [same]
    split
    next => exact .failed entry _ _ _ _ named found success rfl rfl
    next u applied => exact .undone entry _ _ _ named found success applied rfl rfl rfl rfl

theorem ends_rollbackAction (named : actionTypeOf call.actionType = some .rollbackAction) :
    Ends x ctx c call (executeRollbackAction x ctx c call) := by
  have targeted : target call = match (item call.params "target_action_id").bind boundText with
      | .ok id => id
      | .error _ => none := by rw [target, if_pos named]
  unfold executeRollbackAction
  split
  next => exact .refused none fun o given => (nomatch given)
  next id bound =>
    rw [bound] at targeted
    split
    next =>
      refine .refused _ fun o given => ?_
      cases given
      rfl
    next entry held =>
      obtain ⟨id', rfl, found⟩ := Option.bind_eq_some_iff.mp held
      have key := c.journal.key_of_find found
      split
      next =>
        refine .refused _ fun o given => ?_
        cases given
        rfl
      next success =>
        rw [← key] at targeted found
        exact ends_rollBack targeted found (not_not.mp success)

theorem ends_execute (x : Externals τ) (ctx : Context) (c : Controller τ) (call : Call τ) :
    Ends x ctx c call (executeAction x ctx c call) := by
  unfold executeAction
  split
  next => exact .refused none fun o given => (nomatch given)
  next named => exact ends_rollbackAction named
  next actionType other named =>
    refine ends_perform named fun same => other ?_
    rw [same]

theorem target_rollback {id : String} (named : target call = some id) :
    actionTypeOf call.actionType = some .rollbackAction := by
  by_contra other
  rw [target, if_neg other] at named
  cases named

theorem find_undone {entry : JournalRow} (found : c.journal.find entry.actionId = some entry)
    (row : JournalRow) (id : String) :
    (record (markStatus c.journal entry.actionId .rolledBack) row).find id =
      if id = row.actionId then some row
      else if id = entry.actionId then some { entry with status := .rolledBack }
      else c.journal.find id := by
  rw [find_record]
  split
  next => rfl
  next =>
    rw [markStatus, KeyedTable.find_update]
    split
    next same =>
      rw [found]
      rfl
    next => rfl

theorem recorded_of_ends {done : Executed τ} (executed : executeAction x ctx c call = done)
    (ends : Ends x ctx c call done) (new : c.journal.find call.actionId = none) :
    Recorded x ctx c call := by
  have after : step x ctx c call = done.after := by rw [step, executed]
  have successful : succeeds x ctx c call = done.outcome.any fun outcome => outcome.status = .success := by
    rw [ControllerRollback.succeeds, executed]
  cases ends with
  | refused outcome no =>
    have fails : succeeds x ctx c call = false := by
      rw [successful]
      cases outcome with
      | none => rfl
      | some o => simp only [Option.any_some, no o rfl, reduceCtorEq, decide_false]
    refine ⟨fun id _ success => ?_, fun id o _ given status => ?_, fun _ _ => after,
      fun o given status => ?_, fun id _ _ => by rw [after]⟩
    · rw [fails] at success
      cases success
    · rw [executed] at given
      rw [no o given] at status
      cases status
    · rw [executed] at given
      rw [no o given] at status
      cases status
  | performed outcome files row touched other actionId status definition =>
    refine ⟨fun id named => absurd (target_rollback named) other,
      fun id o named => absurd (target_rollback named) other, fun named => absurd named other,
      fun o given success => ?_, fun id different _ => ?_⟩
    · rw [executed] at given
      cases given
      refine ⟨row, ?_, status.trans success, definition⟩
      rw [after, find_record, if_pos actionId.symm]
    · rw [after, find_record, if_neg (actionId ▸ different)]
  | failed entry outcome row files touched named found success status actionId =>
    have apart : entry.actionId ≠ row.actionId := by
      intro same
      rw [same, actionId, new] at found
      cases found
    refine ⟨fun id _ success => ?_, fun id o named' given _ => ?_, fun _ no => ?_,
      fun o given success => ?_, fun id different _ => ?_⟩
    · rw [successful, Option.any_some, status] at success
      cases success
    · have same := named'.symm.trans named
      cases same
      refine ⟨entry, found, success, ?_⟩
      rw [after, find_record, if_neg apart]
      exact found
    · exact absurd status (no outcome (by rw [executed])).2
    · rw [executed] at given
      cases given
      rw [status] at success
      cases success
    · rw [after, find_record, if_neg (actionId ▸ different)]
  | undone entry outcome row touched named found success applied status actionId status' definition =>
    have apart : entry.actionId ≠ row.actionId := by
      intro same
      rw [same, actionId, new] at found
      cases found
    have succeeded : succeeds x ctx c call = true := by
      rw [successful, Option.any_some, status]
      rfl
    have journal := find_undone found row
    refine ⟨fun id named' _ => ?_, fun id o _ given failed => ?_, fun _ no => ?_,
      fun o given _ => ?_, fun id different unmarked => ?_⟩
    · have same := named'.symm.trans named
      cases same
      refine ⟨entry, found, success, applied, by rw [after], ?_⟩
      rw [after, journal, if_neg apart, if_pos rfl]
    · rw [executed] at given
      cases given
      rw [status] at failed
      cases failed
    · exact absurd status (no outcome (by rw [executed])).1
    · rw [executed] at given
      cases given
      refine ⟨row, ?_, status', definition⟩
      rw [after, journal, if_pos actionId.symm]
    · have other : id ≠ entry.actionId := by
        rintro rfl
        rw [unmarked named] at succeeded
        cases succeeded
      rw [after, journal, if_neg (actionId ▸ different), if_neg other]

theorem step_recorded (new : c.journal.find call.actionId = none) : Recorded x ctx c call :=
  recorded_of_ends rfl (ends_execute x ctx c call) new

theorem step_kept_of_ne {id : String} {row : JournalRow} (different : id ≠ call.actionId)
    (found : c.journal.find id = some row) :
    ∃ later, (step x ctx c call).journal.find id = some later ∧ Kept row later := by
  have ends := ends_execute x ctx c call
  rw [step]
  generalize executeAction x ctx c call = done at ends ⊢
  cases ends with
  | refused => exact ⟨row, found, .refl row⟩
  | performed outcome files new touched other actionId =>
    refine ⟨row, ?_, .refl row⟩
    rw [find_record, if_neg (actionId ▸ different)]
    exact found
  | failed entry outcome new files touched named held success status actionId =>
    refine ⟨row, ?_, .refl row⟩
    rw [find_record, if_neg (actionId ▸ different)]
    exact found
  | undone entry outcome new touched named held success applied status actionId =>
    rw [find_undone held, if_neg (actionId ▸ different)]
    split
    next same =>
      have same' := held.symm.trans (same ▸ found)
      cases same'
      exact ⟨_, rfl, .marked success⟩
    next => exact ⟨row, found, .refl row⟩

theorem step_kept (new : c.journal.find call.actionId = none) {id : String} {row : JournalRow}
    (found : c.journal.find id = some row) :
    ∃ later, (step x ctx c call).journal.find id = some later ∧ Kept row later := by
  refine step_kept_of_ne ?_ found
  rintro rfl
  rw [new] at found
  cases found

theorem step_unused (new : c.journal.find call.actionId = none) {id : String}
    (unused : c.journal.find id = none) (different : id ≠ call.actionId) :
    (step x ctx c call).journal.find id = none := by
  have recorded : Recorded x ctx c call := step_recorded new
  rw [recorded.others id different fun named => ?_]
  · exact unused
  · refine Bool.eq_false_iff.mpr fun success => ?_
    obtain ⟨row, held, -⟩ := recorded.applied id named success
    rw [unused] at held
    cases held

theorem Fresh.step {rest : List (Call τ)} (fresh : Fresh c (call :: rest)) :
    Fresh (ControllerRollback.step x ctx c call) rest := by
  obtain ⟨own, distinct⟩ := List.nodup_cons.mp fresh.distinct
  refine ⟨distinct, fun call' mem => ?_⟩
  refine step_unused (fresh.unused call List.mem_cons_self)
    (fresh.unused call' (List.mem_cons_of_mem call mem)) fun same => own ?_
  exact List.mem_map.mpr ⟨call', mem, same⟩

end

section
variable {x : Externals τ} {ctx : Context}

theorem run_recorded {c : Controller τ} {calls : List (Call τ)} (fresh : Fresh c calls) :
    EventRun.Along (step x ctx) (Recorded x ctx) c calls := by
  induction calls generalizing c with
  | nil => trivial
  | cons call rest ih => exact ⟨step_recorded (fresh.unused call List.mem_cons_self), ih fresh.step⟩

theorem run_kept {c : Controller τ} {calls : List (Call τ)} (fresh : Fresh c calls) {id : String}
    {row : JournalRow} (found : c.journal.find id = some row) :
    ∃ later, (EventRun.run (step x ctx) c calls).journal.find id = some later ∧ Kept row later := by
  induction calls generalizing c row with
  | nil => exact ⟨row, found, .refl row⟩
  | cons call rest ih =>
    obtain ⟨middle, found', kept⟩ := @step_kept _ x ctx _ _ (fresh.unused call List.mem_cons_self) _ _ found
    obtain ⟨later, found'', kept'⟩ := ih fresh.step found'
    exact ⟨later, found'', kept.trans kept'⟩

theorem Fresh.run {c : Controller τ} {front rest : List (Call τ)} (fresh : Fresh c (front ++ rest)) :
    Fresh (EventRun.run (ControllerRollback.step x ctx) c front) rest := by
  induction front generalizing c with
  | nil => exact fresh
  | cons call front ih => exact ih fresh.step

theorem not_undone {c : Controller τ} {calls : List (Call τ)} (fresh : Fresh c calls) {id : String}
    {row : JournalRow} (found : c.journal.find id = some row) (marked : row.status = .rolledBack) :
    id ∉ undone x ctx c calls := by
  induction calls generalizing c row with
  | nil => exact List.not_mem_nil
  | cons call rest ih =>
    have new := fresh.unused call List.mem_cons_self
    rw [undone, List.mem_append, not_or]
    refine ⟨fun mem => ?_, ?_⟩
    · obtain ⟨named, success⟩ := Option.filter_eq_some_iff.mp (Option.mem_toList.mp mem)
      obtain ⟨entry, held, success', -⟩ := (step_recorded new).applied id named success
      have same := held.symm.trans found
      cases same
      rw [marked] at success'
      cases success'
    · obtain ⟨later, found', kept⟩ := @step_kept _ x ctx _ _ new _ _ found
      exact ih fresh.step found' (kept.rolledBack marked)

theorem undone_nodup {c : Controller τ} {calls : List (Call τ)} (fresh : Fresh c calls) :
    (undone x ctx c calls).Nodup := by
  induction calls generalizing c with
  | nil => exact List.nodup_nil
  | cons call rest ih =>
    rw [undone]
    cases named : (target call).filter fun _ => succeeds x ctx c call with
    | none => exact ih fresh.step
    | some id =>
      obtain ⟨named', success⟩ := Option.filter_eq_some_iff.mp named
      obtain ⟨row, -, -, -, -, marked⟩ :=
        (step_recorded (fresh.unused call List.mem_cons_self)).applied id named' success
      exact List.nodup_cons.mpr ⟨not_undone fresh.step marked rfl, ih fresh.step⟩

end

/-- Over any run of calls with new action ids, from any journal, a rollback
definition is applied with success at most once and only from an entry of status
SUCCESS, and no entry changes but from SUCCESS to ROLLED_BACK. -/
theorem rollback_once (x : Externals τ) (ctx : Context) (c : Controller τ) (calls : List (Call τ))
    (fresh : Fresh c calls) : RollsBackOnce x ctx c calls := by
  refine ⟨undone_nodup fresh, run_recorded fresh, fun front middle reached id row found => ?_⟩
  obtain ⟨rest, rfl⟩ := reached
  rw [List.append_assoc] at fresh
  have middleFresh : Fresh (EventRun.run (step x ctx) c front) middle := by
    refine ⟨?_, fun call mem => fresh.run.unused call (List.mem_append_left rest mem)⟩
    have distinct := (fresh.run : Fresh (EventRun.run (step x ctx) c front) _).distinct
    rw [List.map_append] at distinct
    exact (List.nodup_append.mp distinct).1
  rw [EventRun.run_append]
  exact run_kept middleFresh found

def sampleCalls : List (Call ℕ) :=
  [ ControllerRollback.makeDirectory,
    ⟨"ROLLBACK_ACTION", .obj [("target_action_id", .str "a2")], "b1", sampleClock⟩,
    ⟨"ROLLBACK_ACTION", .obj [("target_action_id", .str "a2")], "b2", sampleClock⟩ ]

theorem rollback_once_sample :
    RollsBackOnce sampleExternals sampleContext ControllerRollback.sampleStart sampleCalls :=
  rollback_once sampleExternals sampleContext ControllerRollback.sampleStart sampleCalls
    ⟨by decide, fun _ _ => rfl⟩

end Mirage.RollbackOnce
