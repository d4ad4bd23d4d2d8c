import Mirage.ControllerConfinement
import Mirage.RollbackOnce

/-! What a reset leaves of the past. SOFT_RESET and FULL_REBUILD replace what stands under
the roots. -/

namespace Mirage.ResetHistory
open EnvController FileTree Effects ControllerConfinement
open ControllerRollback (step succeeds)
open RollbackOnce (target Kept)
open SandboxActions (ActionType actionTypeOf)

variable {τ : Type}

def IsReset (call : Call τ) : Prop :=
  actionTypeOf call.actionType = some .softReset ∨ actionTypeOf call.actionType = some .fullRebuild

section
variable (x : Externals τ) (ctx : Context)

def Acts (clock : Clock τ) (t : Files τ) : RollbackDefinition → Loc → Prop
  | .noop, _ => False
  | .deleteFile path, q | .deleteDirectory path, q | .restoreMetadata path _, q =>
    resolvePath x ctx t path = .ok q ∧ t.existsAt x.limit q = true
  | .moveFile path destination, q =>
    ∃ source, resolvePath x ctx t path = .ok source ∧ t.existsAt x.limit source = true ∧
      ∃ back, resolvePath x ctx t destination = .ok back ∧
        (q = source ∨ back <:+ q ∨ (q <:+ back ∧ t.isDir q = false))
  | .enableDecoyService serviceId _, q =>
    ∃ marker, markerPath ctx serviceId = .ok marker ∧
      ∃ t' made, t.mkdirs x.limit clock.now marker.tail = some (t', made) ∧
        (q ∈ made ∨ t'.follow x.limit marker = some q)
  | .disableDecoyService serviceId, q =>
    ∃ marker, markerPath ctx serviceId = .ok marker ∧ t.existsAt x.limit marker = true ∧
      t.entry x.limit marker = some q

/-- After a reset that succeeded, and calls behind it, a rollback names an action
whose entry is from before the reset. -/
structure NamesPast (c : Controller τ) (front : List (Call τ)) (reset : Call τ) (middle : List (Call τ))
    (rollback : Call τ) (id : String) (row : JournalRow) : Prop where
  recorded : (EventRun.run (step x ctx) c front).journal.find id = some row
  isReset : IsReset reset
  succeeded : succeeds x ctx (EventRun.run (step x ctx) c front) reset = true
  lasting : ∀ call ∈ reset :: middle, id ≠ call.actionId
  named : target rollback = some id

structure UndoesPast (before : Controller τ) (reset rollback : Call τ) (id : String) (row : JournalRow) :
    Prop where
  /-- Nothing changes but under what the definition of a successful action finds. -/
  changed : ∀ r, (step x ctx before rollback).files.node r ≠ before.files.node r →
    row.status = .success ∧ ∃ definition, row.rollbackDefinition = some definition ∧
      ∃ q, q <:+ r ∧ Acts x ctx rollback.clock before.files definition q
  /-- SOFT_RESET keeps the entry, and a successful one is applied. -/
  soft : actionTypeOf reset.actionType = some .softReset →
    ∃ later, before.journal.find id = some later ∧ Kept row later ∧
      (step x ctx before rollback).files =
        if later.status = .success then (undo x ctx rollback.clock row before.files).state
        else before.files

end

/-! What a rollback definition touches. -/

section
variable {x : Externals τ} {ctx : Context} {clock : Clock τ} {t : Files τ}

theorem within_acts (definition : RollbackDefinition) :
    Within (Acts x ctx clock t definition) (applyRollbackDefinition x ctx clock definition) t := by
  cases definition with
  | noop => exact (within_pure _ () t).mpr trivial
  | deleteFile path =>
    refine within_resolved (fun _ => rfl) fun p resolved there => ?_
    exact (within_unlink p).mpr (unlinkWithin_settled (resolvePath_ok resolved).settled ⟨resolved, there⟩)
  | deleteDirectory path =>
    refine within_resolved (fun _ => rfl) fun p resolved there => ?_
    exact within_rmtree_settled (resolvePath_ok resolved).settled ⟨resolved, there⟩
  | moveFile path destination =>
    rw [applyRollbackDefinition, within_look_bind]
    intro source resolved
    rw [within_look_bind]
    intro back resolved'
    rw [pathExists, within_look_bind]
    rintro found rfl'
    cases rfl'
    unfold moveBack
    split
    next there =>
      have settled := (resolvePath_ok resolved').settled
      have acts : ∀ q, (q = source ∨ back <:+ q ∨ (q <:+ back ∧ t.isDir q = false)) →
          Acts x ctx clock t (.moveFile path destination) q :=
        fun q place => ⟨source, resolved, there, back, resolved', place⟩
      rw [within_mkdirs_bind]
      intro t' made done
      refine ⟨fun q mem => ?_, ?_⟩
      · obtain ⟨above, missing⟩ := Tree.mkdirs_made settled.tail done q mem
        exact acts q (.inr (.inr ⟨above.trans (List.tail_suffix back), missing⟩))
      · have links := Tree.mkdirs_links done
        exact within_move_settled (settled_later (resolvePath_ok resolved) links)
          (settled_later (resolvePath_ok resolved') links) (acts source (.inl rfl))
          fun q under => acts q (.inr (.inl under))
    next => exact (within_pure _ () t).mpr trivial
  | restoreMetadata path priorState =>
    refine within_resolved (fun _ => rfl) fun p resolved there => ?_
    exact within_applyMetadataFields_settled (resolvePath_ok resolved).settled ⟨resolved, there⟩ priorState
  | enableDecoyService serviceId priorState =>
    refine (within_enable serviceId priorState).mpr fun marker named t' made done => ?_
    refine ⟨fun q mem => ⟨marker, named, t', made, done, .inl mem⟩, fun _ q found => ?_⟩
    exact ⟨marker, named, t', made, done, .inr found⟩
  | disableDecoyService serviceId =>
    rw [applyRollbackDefinition, within_bind_pure, within_disable]
    intro marker named there _ q found _ _
    exact ⟨marker, named, there, found⟩

theorem undo_changed {row : JournalRow} {r : Loc}
    (changed : (undo x ctx clock row t).state.node r ≠ t.node r) :
    ∃ definition, row.rollbackDefinition = some definition ∧ ∃ q, q <:+ r ∧ Acts x ctx clock t definition q := by
  have accounted := (proper_undo x ctx clock row).accounted t r
  cases defined : row.rollbackDefinition with
  | none =>
    rw [undo, defined] at changed
    exact absurd rfl changed
  | some definition =>
    have same : undo x ctx clock row = applyRollbackDefinition x ctx clock definition := by
      rw [undo, defined]
    refine ⟨definition, rfl, ?_⟩
    by_contra none'
    refine changed (accounted fun q mem under => none' ⟨q, under, ?_⟩)
    rw [same] at mem
    exact within_acts definition q mem

end

/-! The rollback of an entry that stands in the journal. -/

section
variable {x : Externals τ} {ctx : Context} {c : Controller τ} {call : Call τ} {id : String}

theorem rolledBack_of_target (named : target call = some id) :
    rolledBack c call = (c.journal.find id).filter fun entry => entry.status = .success := by
  rw [target, if_pos (RollbackOnce.target_rollback named)] at named
  unfold rolledBack
  split at named
  next bound =>
    rw [bound, named]
    rfl
  next => cases named

theorem step_files {row : JournalRow} (named : target call = some id)
    (found : c.journal.find id = some row) : (step x ctx c call).files =
      if row.status = .success then (undo x ctx call.clock row c.files).state else c.files := by
  have executed : executeAction x ctx c call = executeRollbackAction x ctx c call := by
    rw [executeAction, RollbackOnce.target_rollback named]
  have entry : rolledBack c call = (some row).filter fun entry => entry.status = .success := by
    rw [rolledBack_of_target named, found]
  rw [step, executed]
  split
  next success =>
    rw [Option.filter_some, if_pos (decide_eq_true success)] at entry
    rw [executeRollbackAction_some entry, (rollBack_spec x ctx c call row).1]
  next other =>
    rw [Option.filter_some, if_neg fun success => other (of_decide_eq_true success)] at entry
    rw [(executeRollbackAction_none x ctx entry).1]

theorem run_kept_of_ne {calls : List (Call τ)} {row : JournalRow}
    (different : ∀ call ∈ calls, id ≠ call.actionId) (found : c.journal.find id = some row) :
    ∃ later, (EventRun.run (step x ctx) c calls).journal.find id = some later ∧ Kept row later := by
  induction calls generalizing c row with
  | nil => exact ⟨row, found, .refl row⟩
  | cons call rest ih =>
    obtain ⟨middle, found', kept⟩ :=
      @RollbackOnce.step_kept_of_ne _ x ctx _ _ _ _ (different call List.mem_cons_self) found
    obtain ⟨later, found'', kept'⟩ :=
      ih (fun call' mem => different call' (List.mem_cons_of_mem call mem)) found'
    exact ⟨later, found'', kept.trans kept'⟩

theorem Kept.success {row later : JournalRow} (kept : Kept row later) (success : later.status = .success) :
    row.status = .success := by
  rcases kept.status with same | ⟨before, -⟩
  · exact same.symm.trans success
  · exact before

theorem undo_kept {row later : JournalRow} (kept : Kept row later) (clock : Clock τ) :
    undo x ctx clock later = undo x ctx clock row := by
  rw [undo, undo, kept.rollbackDefinition]

end

/-- In every run, a rollback of an action from before a reset changes nothing but
what lies under a location that the definition of that action finds occupied, or
its service names. -/
theorem past_undone (x : Externals τ) (ctx : Context) (c : Controller τ) (front : List (Call τ))
    (reset : Call τ) (middle : List (Call τ)) (rollback : Call τ) (id : String) (row : JournalRow)
    (past : NamesPast x ctx c front reset middle rollback id row) :
    UndoesPast x ctx (EventRun.run (step x ctx) c (front ++ reset :: middle)) reset rollback id row := by
  obtain ⟨later, found, kept⟩ := @run_kept_of_ne _ x ctx _ _ _ _ past.lasting past.recorded
  rw [← EventRun.run_append] at found
  have files := @step_files _ x ctx _ _ _ _ past.named found
  rw [undo_kept kept] at files
  refine ⟨fun r changed => ?_, fun _ => ⟨later, found, kept, files⟩⟩
  rw [files] at changed
  split at changed
  next success => exact ⟨Kept.success kept success, undo_changed changed⟩
  next => exact absurd rfl changed

/-! A file of the baseline that stands where a test file was placed. -/

def baselineFiles : Files ℕ where
  node
    | [] => some (.dir ⟨1, 1⟩)
    | ["decoys"] => some (.dir ⟨2, 2⟩)
    | ["baseline.tar.gz"] => some (.file .empty ⟨3, 3⟩)
    | _ => none
  root := ⟨_, rfl⟩
  parent := by
    intro n p y found
    split at found
    next same => cases same
    next same =>
      cases same
      exact ⟨_, rfl⟩
    next same =>
      cases same
      exact ⟨_, rfl⟩
    next => cases found

def baselineExternals : Externals ℕ :=
  { sampleExternals with members := fun _ => some [⟨"decoys/payroll.txt", .file "salaries".toUTF8⟩] }

def baselineContext : Context := { sampleContext with baselineSnapshot := some ["baseline.tar.gz"] }

def softReset : Call ℕ := ⟨"SOFT_RESET", .obj [], "r1", sampleClock⟩

def undoOverwrite : Call ℕ :=
  ⟨"ROLLBACK_ACTION", .obj [("target_action_id", .str "a1")], "b1", sampleClock⟩

theorem overwrite_past : ∃ row, NamesPast baselineExternals baselineContext ⟨baselineFiles, .empty⟩
    [ControllerRollback.overwrite] softReset [] undoOverwrite "a1" row := by
  have recorded : ((EventRun.run (step baselineExternals baselineContext) ⟨baselineFiles, .empty⟩
      [ControllerRollback.overwrite]).journal.find "a1").isSome = true := by decide +kernel
  obtain ⟨row, found⟩ := Option.isSome_iff_exists.mp recorded
  refine ⟨row, found, .inl (by decide), by decide +kernel, ?_, by decide⟩
  intro call mem
  rw [List.mem_singleton.mp mem]
  decide

theorem past_undone_overwrite : ∃ row, UndoesPast baselineExternals baselineContext
    (EventRun.run (step baselineExternals baselineContext) ⟨baselineFiles, .empty⟩
      [ControllerRollback.overwrite, softReset]) softReset undoOverwrite "a1" row := by
  obtain ⟨row, past⟩ := overwrite_past
  exact ⟨row, past_undone baselineExternals baselineContext ⟨baselineFiles, .empty⟩
    [ControllerRollback.overwrite] softReset [] undoOverwrite "a1" row past⟩

/-- The file of the baseline is deleted by the rollback. -/
theorem baseline_deleted : (∃ row, NamesPast baselineExternals baselineContext ⟨baselineFiles, .empty⟩
      [ControllerRollback.overwrite] softReset [] undoOverwrite "a1" row) ∧
    ¬ (step baselineExternals baselineContext (EventRun.run (step baselineExternals baselineContext)
        ⟨baselineFiles, .empty⟩ [ControllerRollback.overwrite, softReset]) undoOverwrite).files =
      (EventRun.run (step baselineExternals baselineContext)
        ⟨baselineFiles, .empty⟩ [ControllerRollback.overwrite, softReset]).files := by
  refine ⟨overwrite_past, fun same => ?_⟩
  have there : ((EventRun.run (step baselineExternals baselineContext)
      ⟨baselineFiles, .empty⟩ [ControllerRollback.overwrite, softReset]).files.node
        ["payroll.txt", "decoys"]).isSome = true := by decide +kernel
  have gone : ((step baselineExternals baselineContext (EventRun.run (step baselineExternals baselineContext)
      ⟨baselineFiles, .empty⟩ [ControllerRollback.overwrite, softReset]) undoOverwrite).files.node
        ["payroll.txt", "decoys"]).isSome = false := by decide +kernel
  rw [same, there] at gone
  cases gone

end Mirage.ResetHistory
