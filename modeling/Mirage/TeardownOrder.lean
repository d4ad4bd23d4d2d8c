import Mirage.Teardown

/-! The order and the bounds of a teardown, over any number of executions with one
journal: the PASS entries are the first steps in their order, an execution touches
nothing but active temporary resources of its case, nothing is revoked or deactivated
before the export is verified, and DESTROYED comes last. -/

namespace Mirage.TeardownOrder
open EventRun Teardown

section
variable (environment caseId : String)

def InCase (resource : CloudResource) : Prop :=
  resource.project = "mirage" ∧ resource.environment = environment ∧ resource.caseId = some caseId

def Removable (resource : CloudResource) : Prop :=
  InCase environment caseId resource ∧ resource.temporary = true ∧ resource.protectedEvidence = false

def Cleared (resources : Resources) (created : List CloudResource) : Prop :=
  ∀ r ∈ resources.rows, r.active = true → Removable environment caseId r → r ∈ created

def OfCase : World → Action → Prop
  | _, .construct workflow => workflow.environment = environment ∧ workflow.caseId = caseId
  | _, _ => True

structure StateSound (finished : List TeardownStep) (state : TeardownState) : Prop where
  revoked : state.revokedIdentities ≠ [] → .independentlyVerifyExport ∈ finished
  destroyed : state.caseState = .destroyed → ∀ s, s ≠ .markCaseDestroyed → s ∈ finished

structure Running (entries : List Entry) (resources : Resources) (created : List CloudResource)
    (x : Execution) : Prop where
  identity : x.workflow.environment = environment ∧ x.workflow.caseId = caseId
  listed : x.entries = entries
  order : passed x.entries ++ x.todo = teardownSteps
  busy : x.phase ≠ .ready → x.todo ≠ []
  state : StateSound (passed entries) x.state
  marked : x.state.caseState = .destroyed → x.todo ≠ [] → ∃ detail, x.phase = .writing .pass detail
  removing : ∀ resourceIds, x.phase = .removing resourceIds →
    (∃ s rest, x.todo = s :: rest ∧ isRemoval s = true) ∧
      ∀ resourceId ∈ resourceIds, ∃ r ∈ resources.rows, r.resourceId = resourceId ∧ Removable environment caseId r
  confirmed : ∀ detail rest, x.phase = .writing .pass detail → x.todo = .confirmNoDisallowedResources :: rest →
    Cleared environment caseId resources created

structure Inv (w : World) : Prop where
  order : done w <+: teardownSteps
  idle : ∀ i ∈ w.idle, (i.workflow.environment = environment ∧ i.workflow.caseId = caseId) ∧
    StateSound (done w) i.state
  journal : ∀ j, w.journal = some j → StateSound (done w) j.state ∧
    (j.state.caseState = .destroyed → done w = teardownSteps)
  running : ∀ x, w.execution = some x → Running environment caseId (entriesOf w) w.resources w.created x
  cleared : .confirmNoDisallowedResources ∈ done w → Cleared environment caseId w.resources w.created
  attempted : ∀ s ∈ w.attempted, ∀ earlier : TeardownStep, earlier.number < s.number → earlier ∈ done w
  known : ∀ s ∈ done w, ∃ workflow, (workflow, s) ∈ w.performed ∧
    workflow.environment = environment ∧ workflow.caseId = caseId
  answered : ∀ workflow result, (workflow, .ok result) ∈ w.answers → done w = teardownSteps

end

variable {environment caseId : String}

theorem stateSound_mono {finished finished' : List TeardownStep} {state : TeardownState}
    (grows : ∀ s ∈ finished, s ∈ finished') (sound : StateSound finished state) : StateSound finished' state :=
  ⟨fun revoked => grows _ (sound.revoked revoked), fun destroyed s other => grows s (sound.destroyed destroyed s other)⟩

theorem stateSound_initialState (finished : List TeardownStep) : StateSound finished initialState :=
  ⟨fun revoked => absurd rfl revoked, fun destroyed => by cases destroyed⟩

theorem inv_opening {w : World} (opening : Opening w) : Inv environment caseId w := by
  have nothing : done w = [] := by
    rw [done, entriesOf, opening.journal]
    rfl
  refine ⟨?_, fun i mem => ?_, fun j found => ?_, fun x found => ?_, fun mem => ?_, fun s mem => ?_,
    fun s mem => ?_, fun _ _ mem => ?_⟩
  · rw [nothing]
    exact List.nil_prefix
  · rw [opening.idle] at mem
    cases mem
  · rw [opening.journal] at found
    cases found
  · rw [opening.execution] at found
    cases found
  · rw [nothing] at mem
    cases mem
  · rw [opening.attempted] at mem
    cases mem
  · rw [nothing] at mem
    cases mem
  · rw [opening.answers] at mem
    cases mem

theorem inv_execution {w : World} {execution : Option Execution} (inv : Inv environment caseId w)
    (running : ∀ x, execution = some x → Running environment caseId (entriesOf w) w.resources w.created x) :
    Inv environment caseId { w with execution } :=
  ⟨inv.order, inv.idle, inv.journal, running, inv.cleared, inv.attempted, inv.known, inv.answered⟩

theorem inv_leave {w : World} {x : Execution} (inv : Inv environment caseId w) (found : w.execution = some x) :
    Inv environment caseId (leave w x) := by
  have running := inv.running x found
  refine ⟨inv.order, fun i mem => ?_, inv.journal, fun _ none => (by cases none), inv.cleared, inv.attempted,
    inv.known, inv.answered⟩
  rcases List.mem_append.mp mem with old | new
  · exact inv.idle i old
  · rw [List.mem_singleton.mp new]
    exact ⟨running.identity, running.state⟩

theorem inv_answer {w : World} {x : Execution} {result : Except String (Option Journal)}
    (inv : Inv environment caseId w) (found : w.execution = some x)
    (complete : ∀ journal, result = .ok journal → done w = teardownSteps) :
    Inv environment caseId (answer w x result) := by
  have left := inv_leave inv found
  refine ⟨left.order, left.idle, left.journal, left.running, left.cleared, left.attempted, left.known,
    fun workflow journal mem => ?_⟩
  rcases List.mem_append.mp mem with old | new
  · exact inv.answered workflow journal old
  · have same := congrArg Prod.snd (List.mem_singleton.mp new)
    exact complete journal same.symm

theorem inv_attempted {w : World} {x : Execution} {s : TeardownStep} {rest : List TeardownStep}
    (inv : Inv environment caseId w) (found : w.execution = some x) (next : x.todo = s :: rest) :
    Inv environment caseId { w with attempted := w.attempted ++ [s] } := by
  have running := inv.running x found
  have order := running.order
  rw [next, running.listed] at order
  refine ⟨inv.order, inv.idle, inv.journal, inv.running, inv.cleared, fun t mem earlier before => ?_, inv.known,
    inv.answered⟩
  rcases List.mem_append.mp mem with old | new
  · exact inv.attempted t old earlier before
  · rw [List.mem_singleton.mp new] at before
    exact mem_of_number_lt order before

theorem running_phase {entries : List Entry} {resources : Resources} {created : List CloudResource} {x : Execution}
    {phase : Phase} (running : Running environment caseId entries resources created x) (busy : x.todo ≠ [])
    (unmarked : x.state.caseState ≠ .destroyed)
    (removing : ∀ resourceIds, phase = .removing resourceIds →
      (∃ s rest, x.todo = s :: rest ∧ isRemoval s = true) ∧
        ∀ resourceId ∈ resourceIds, ∃ r ∈ resources.rows, r.resourceId = resourceId ∧ Removable environment caseId r)
    (confirmed : ∀ detail rest, phase = .writing .pass detail → x.todo = .confirmNoDisallowedResources :: rest →
      Cleared environment caseId resources created) :
    Running environment caseId entries resources created { x with phase } :=
  ⟨running.identity, running.listed, running.order, fun _ => busy, running.state,
    fun marked => absurd marked unmarked, removing, confirmed⟩

theorem running_blocked {entries : List Entry} {resources : Resources} {created : List CloudResource} {x : Execution}
    {detail : String} (running : Running environment caseId entries resources created x) (busy : x.todo ≠ [])
    (unmarked : x.state.caseState ≠ .destroyed) :
    Running environment caseId entries resources created { x with phase := .writing .blocked detail } :=
  running_phase running busy unmarked (fun _ other => by cases other) fun _ _ other => by cases other

theorem unmarked_of_phase {entries : List Entry} {resources : Resources} {created : List CloudResource} {x : Execution}
    (running : Running environment caseId entries resources created x) (busy : x.todo ≠ [])
    (phase : ∀ detail, x.phase ≠ .writing .pass detail) : x.state.caseState ≠ .destroyed := by
  intro marked
  obtain ⟨detail, writing⟩ := running.marked marked busy
  exact phase detail writing

theorem recordGaps_fields {workflow : Workflow} {state state' : TeardownState}
    (ran : recordGaps workflow state = .ok state') :
    state'.caseState = state.caseState ∧ state'.revokedIdentities = state.revokedIdentities := by
  unfold recordGaps at ran
  split at ran
  · cases ran
    exact ⟨rfl, rfl⟩
  · split at ran
    · cases ran
      exact ⟨rfl, rfl⟩
    · split at ran
      · cases ran
      · cases ran
        exact ⟨rfl, rfl⟩

theorem apply_fields {workflow : Workflow} {resources : Resources} {state state' : TeardownState} {s : TeardownStep}
    (ran : apply workflow resources state s = .ok state') :
    (state'.caseState = .destroyed → state.caseState = .destroyed ∨ s = .markCaseDestroyed) ∧
      (state'.revokedIdentities ≠ [] → state.revokedIdentities ≠ [] ∨
        TeardownStep.independentlyVerifyExport.number < s.number) := by
  have revoked : ∀ {identity : String}, (revoke identity state).caseState = state.caseState := by
    intro identity
    unfold revoke
    split <;> rfl
  have same : ∀ {other : TeardownState}, other.caseState = state.caseState →
      other.revokedIdentities = state.revokedIdentities → state' = other →
      (state'.caseState = .destroyed → state.caseState = .destroyed ∨ s = .markCaseDestroyed) ∧
        (state'.revokedIdentities ≠ [] → state.revokedIdentities ≠ [] ∨
          TeardownStep.independentlyVerifyExport.number < s.number) := by
    rintro other case identities rfl
    rw [case, identities]
    exact ⟨.inl, .inl⟩
  cases s with
  | recordRemainingGaps =>
    have fields := recordGaps_fields ran
    exact same fields.1 fields.2 rfl
  | markCaseConcluding =>
    cases ran
    exact ⟨fun other => (by cases other), .inl⟩
  | markCaseDestroyed =>
    cases ran
    exact ⟨fun _ => .inr rfl, .inl⟩
  | revokeSandboxCertificate | revokeTemporaryAgentCertificates =>
    simp only [apply] at ran
    split at ran
    · cases ran
      refine ⟨fun destroyed => .inl ?_, fun _ => .inr (by decide)⟩
      rw [revoked] at destroyed
      exact destroyed
    · cases ran
  | drainQueues | captureFinalSnapshot | independentlyVerifyExport | runInventory =>
    simp only [apply] at ran
    split at ran
    · cases ran
      exact same rfl rfl rfl
    · cases ran
  | verifyRequiredEvidence =>
    simp only [apply] at ran
    split at ran
    · cases ran
    · cases ran
      exact same rfl rfl rfl
  | preserveEvidenceResources | confirmNoDisallowedResources =>
    simp only [apply, caseInventory] at ran
    split at ran
    · cases ran
      exact same rfl rfl rfl
    · cases ran
  | _ =>
    cases ran
    refine same ?_ ?_ rfl <;> rfl

theorem cleared_of_confirm {workflow : Workflow} {resources : Resources} {state state' : TeardownState}
    (identity : workflow.environment = environment ∧ workflow.caseId = caseId)
    (ran : apply workflow resources state .confirmNoDisallowedResources = .ok state') :
    Cleared environment caseId resources [] := by
  intro r mem active removable
  simp only [apply, caseInventory] at ran
  split at ran
  · rename_i none
    obtain ⟨⟨project, env, ofCase⟩, temporary, unprotected⟩ := removable
    have listed := List.filter_eq_nil_iff.mp none r (List.mem_filter.mpr ⟨mem, by
      simp [active, project, env, ofCase, identity.1, identity.2]⟩)
    simp [disallowed, temporary, unprotected] at listed
  · cases ran

theorem inv_applyStep {w : World} {x : Execution} {s : TeardownStep} {rest : List TeardownStep}
    (inv : Inv environment caseId w) (running : Running environment caseId (entriesOf w) w.resources w.created x)
    (next : x.todo = s :: rest) (ready : x.phase = .ready) : Inv environment caseId (applyStep w x s) := by
  have busy : x.todo ≠ [] := by
    rw [next]
    exact List.cons_ne_nil s rest
  have unmarked := unmarked_of_phase running busy fun _ writing => by
    rw [ready] at writing
    cases writing
  unfold applyStep
  cases ran : apply x.workflow w.resources x.state s with
  | error detail =>
    exact inv_execution inv fun y same => by
      cases same
      exact running_blocked running busy unmarked
  | ok state =>
    have fields := apply_fields ran
    have order := running.order
    rw [next, running.listed] at order
    have sound : StateSound (done w) state := by
      refine ⟨fun revoked => ?_, fun destroyed t other => ?_⟩
      · rcases fields.2 revoked with before | later
        · exact running.state.revoked before
        · exact mem_of_number_lt order later
      · rcases fields.1 destroyed with before | last
        · exact absurd before unmarked
        · subst last
          refine mem_of_number_lt order ?_
          revert other
          cases t <;> decide
    have runs : ∀ created, (s = .confirmNoDisallowedResources → Cleared environment caseId w.resources created) →
        Running environment caseId (entriesOf w) w.resources created
          { x with state, phase := .writing .pass (passDetail s) } := by
      intro created cleared
      refine ⟨running.identity, running.listed, running.order, fun _ => busy, sound, fun _ _ => ⟨_, rfl⟩,
        fun _ other => (by cases other), fun _ _ _ confirms => cleared ?_⟩
      rw [next] at confirms
      exact (List.cons.inj confirms).1
    by_cases confirms : s = .confirmNoDisallowedResources
    · subst confirms
      have cleared := cleared_of_confirm running.identity ran
      rw [if_pos rfl]
      exact ⟨inv.order, inv.idle, inv.journal, fun y same => (by cases same; exact runs [] fun _ => cleared),
        fun _ => cleared, inv.attempted, inv.known, inv.answered⟩
    · rw [if_neg confirms]
      exact ⟨inv.order, inv.idle, inv.journal,
        fun y same => (by cases same; exact runs w.created fun same => absurd same confirms), inv.cleared,
        inv.attempted, inv.known, inv.answered⟩

theorem removals_eq (workflow : Workflow) (resources : Resources) (s : TeardownStep) :
    removals workflow resources s = .ok ((resources.rows.filter fun item => item.active && item.project == "mirage" &&
      item.environment == workflow.environment && item.caseId == some workflow.caseId).filter fun item =>
        item.resourceType ∈ resourceTypes s && disallowed item) := by
  rw [removals, caseInventory]
  rfl

theorem inv_attempt {w : World} {x : Execution} {s : TeardownStep} {rest : List TeardownStep}
    (inv : Inv environment caseId w) (running : Running environment caseId (entriesOf w) w.resources w.created x)
    (next : x.todo = s :: rest) (ready : x.phase = .ready) : Inv environment caseId (attempt w x s) := by
  unfold attempt
  split
  · rename_i removal
    have busy : x.todo ≠ [] := by
      rw [next]
      exact List.cons_ne_nil s rest
    have unmarked := unmarked_of_phase running busy fun _ writing => by
      rw [ready] at writing
      cases writing
    rw [removals_eq]
    refine inv_execution inv fun y same => ?_
    cases same
    refine running_phase running busy unmarked (fun resourceIds same => ?_) fun _ _ other => by cases other
    cases same
    refine ⟨⟨s, rest, next, removal⟩, fun resourceId mem => ?_⟩
    obtain ⟨r, listed, rfl⟩ := List.mem_map.mp mem
    obtain ⟨inside, kind⟩ := List.mem_filter.mp listed
    obtain ⟨known, ofCase⟩ := List.mem_filter.mp inside
    simp only [Bool.and_eq_true, beq_iff_eq] at ofCase
    simp only [disallowed, Bool.and_eq_true, Bool.not_eq_true'] at kind
    obtain ⟨⟨⟨-, project⟩, env⟩, case⟩ := ofCase
    exact ⟨r, known, rfl, ⟨project, env.trans running.identity.1, case.trans (congrArg some running.identity.2)⟩,
      kind.2.1, kind.2.2⟩
  · exact inv_applyStep inv running next ready

theorem mem_deactivate {resources : Resources} {resourceId : String} {r : CloudResource} :
    r ∈ (deactivate resources resourceId).rows ↔
      ∃ old ∈ resources.rows, r = if old.resourceId = resourceId then deactivated old else old := by
  simp only [deactivate, KeyedTable.update, List.mem_map]
  exact exists_congr fun old => and_congr_right fun _ => eq_comm

theorem cleared_deactivate {resources : Resources} {created : List CloudResource} (resourceId : String)
    (cleared : Cleared environment caseId resources created) :
    Cleared environment caseId (deactivate resources resourceId) created := by
  intro r mem active removable
  obtain ⟨old, known, rfl⟩ := mem_deactivate.mp mem
  by_cases here : old.resourceId = resourceId
  · rw [if_pos here] at active
    cases active
  · rw [if_neg here] at active removable ⊢
    exact cleared old known active removable

theorem running_deactivate {entries : List Entry} {resources : Resources} {created : List CloudResource}
    {x : Execution} (resourceId : String) (running : Running environment caseId entries resources created x) :
    Running environment caseId entries (deactivate resources resourceId) created x := by
  refine ⟨running.identity, running.listed, running.order, running.busy, running.state, running.marked,
    fun resourceIds phase => ?_, fun detail rest phase next => ?_⟩
  · obtain ⟨head, each⟩ := running.removing resourceIds phase
    refine ⟨head, fun other mem => ?_⟩
    obtain ⟨r, known, same, removable⟩ := each other mem
    refine ⟨_, mem_deactivate.mpr ⟨r, known, rfl⟩, ?_, ?_⟩
    · split <;> exact same
    · split <;> exact removable
  · exact cleared_deactivate resourceId (running.confirmed detail rest phase next)

theorem inv_removeNext {w : World} {x : Execution} {s : TeardownStep} {rest : List TeardownStep}
    {resourceIds : List String} (inv : Inv environment caseId w) (found : w.execution = some x)
    (next : x.todo = s :: rest) (phase : x.phase = .removing resourceIds) :
    Inv environment caseId (removeNext w x s resourceIds) := by
  have running := inv.running x found
  have busy : x.todo ≠ [] := by
    rw [next]
    exact List.cons_ne_nil s rest
  have unmarked := unmarked_of_phase running busy fun _ writing => by
    rw [phase] at writing
    cases writing
  obtain ⟨⟨t, others, head, removal⟩, each⟩ := running.removing resourceIds phase
  cases resourceIds with
  | nil =>
    refine inv_execution inv fun y same => ?_
    cases same
    refine running_phase running busy unmarked (fun _ other => by cases other) fun _ _ _ confirms => ?_
    rw [head] at confirms
    rw [(List.cons.inj confirms).1] at removal
    cases removal
  | cons resourceId ids =>
    have runs := running_deactivate resourceId running
    refine ⟨inv.order, inv.idle, inv.journal, fun y same => ?_, fun mem => cleared_deactivate resourceId (inv.cleared mem),
      inv.attempted, inv.known, inv.answered⟩
    cases same
    refine running_phase runs busy unmarked (fun _ same => ?_) fun _ _ other => by cases other
    cases same
    obtain ⟨-, eachNow⟩ := runs.removing (resourceId :: ids) phase
    exact ⟨⟨t, others, head, removal⟩, fun other mem => eachNow other (List.mem_cons_of_mem _ mem)⟩

theorem inv_write {w : World} {x : Execution} {s : TeardownStep} {rest : List TeardownStep} {result : StepResult}
    {detail : String} (inv : Inv environment caseId w) (found : w.execution = some x) (next : x.todo = s :: rest)
    (phase : x.phase = .writing result detail) : Inv environment caseId (write w x s result detail) := by
  have running := inv.running x found
  have order := running.order
  rw [next] at order
  have busy : x.todo ≠ [] := by
    rw [next]
    exact List.cons_ne_nil s rest
  cases result with
  | blocked =>
    have same : done (write w x s .blocked detail) = done w := by
      change passed (x.entries ++ [⟨s.number, s, .blocked, detail⟩]) = done w
      rw [passed_append, if_neg (fun pass => by cases pass), List.append_nil, running.listed]
      rfl
    have unmarked := unmarked_of_phase running busy fun _ writing => by
      rw [phase] at writing
      cases writing
    refine ⟨?_, fun i mem => ?_, fun j written => ?_, fun _ none => (by cases none), fun mem => ?_,
      fun t mem earlier before => ?_, fun t mem => ?_, fun workflow journal mem => ?_⟩
    · rw [same]
      exact inv.order
    · have sound : (i.workflow.environment = environment ∧ i.workflow.caseId = caseId) ∧
          StateSound (done w) i.state := by
        rcases List.mem_append.mp mem with old | new
        · exact inv.idle i old
        · rw [List.mem_singleton.mp new]
          exact ⟨running.identity, running.state⟩
      rw [same]
      exact sound
    · cases written
      rw [same]
      exact ⟨running.state, fun marked => absurd marked unmarked⟩
    · rw [same] at mem
      exact inv.cleared mem
    · rw [same]
      exact inv.attempted t mem earlier before
    · rw [same] at mem
      exact inv.known t mem
    · rw [same]
      rcases List.mem_append.mp mem with old | new
      · exact inv.answered workflow journal old
      · have other := congrArg Prod.snd (List.mem_singleton.mp new)
        cases other
  | pass =>
    have grown : done (write w x s .pass detail) = done w ++ [s] := by
      change passed (x.entries ++ [⟨s.number, s, .pass, detail⟩]) = done w ++ [s]
      rw [passed_append, if_pos rfl, running.listed]
      rfl
    have kept : ∀ t ∈ done w, t ∈ done (write w x s .pass detail) := by
      intro t mem
      rw [grown]
      exact List.mem_append_left _ mem
    have split : done w ++ [s] ++ rest = teardownSteps := by
      rw [List.append_assoc]
      rw [running.listed] at order
      exact order
    have last : x.state.caseState = .destroyed → rest = [] := by
      intro destroyed
      cases rest with
      | nil => rfl
      | cons t others =>
        have all := running.state.destroyed destroyed
        have apart := teardownSteps_nodup
        rw [← split, List.nodup_append] at apart
        have final : (t :: others).getLast? = some .markCaseDestroyed := by
          have whole : (done w ++ [s] ++ t :: others).getLast? = some .markCaseDestroyed := by
            rw [split]
            rfl
          rw [List.getLast?_append] at whole
          cases tail : (t :: others).getLast? with
          | none => simp at tail
          | some t =>
            rw [tail] at whole
            exact whole
        have first : s = .markCaseDestroyed := by
          by_contra other
          have again : s ∈ passed (entriesOf w) := all s other
          have inner := apart.1
          rw [List.nodup_append] at inner
          exact inner.2.2 s again s (List.mem_singleton.mpr rfl) rfl
        have mem := List.mem_of_getLast? final
        exact absurd rfl (apart.2.2 s (List.mem_append_right _ (List.mem_singleton.mpr rfl)) s (first ▸ mem))
    refine ⟨?_, fun i mem => ⟨(inv.idle i mem).1, stateSound_mono kept (inv.idle i mem).2⟩, fun j written => ?_,
      fun y same => ?_, fun mem => ?_, fun t mem earlier before => ?_, fun t mem => ?_,
      fun workflow journal mem => ?_⟩
    · rw [grown]
      exact ⟨rest, split⟩
    · cases written
      refine ⟨stateSound_mono kept running.state, fun destroyed => ?_⟩
      have ends := last destroyed
      rw [ends, List.append_nil] at split
      exact grown.trans split
    · cases same
      refine ⟨running.identity, rfl, ?_, fun other => absurd rfl other, stateSound_mono kept running.state,
        fun destroyed more => ?_, fun _ other => (by cases other), fun _ _ other => (by cases other)⟩
      · change done (write w x s .pass detail) ++ x.todo.tail = teardownSteps
        rw [next, List.tail_cons, grown]
        exact split
      · rw [next, List.tail_cons, last destroyed] at more
        exact absurd rfl more
    · rw [grown] at mem
      rcases List.mem_append.mp mem with old | new
      · exact inv.cleared old
      · rw [← List.mem_singleton.mp new] at next
        exact running.confirmed detail rest phase next
    · exact kept earlier (inv.attempted t mem earlier before)
    · rw [grown] at mem
      rcases List.mem_append.mp mem with old | new
      · obtain ⟨workflow, known, ofCase⟩ := inv.known t old
        exact ⟨workflow, List.mem_append_left _ known, ofCase⟩
      · rw [List.mem_singleton.mp new]
        exact ⟨x.workflow, List.mem_append_right _ (List.mem_singleton.mpr rfl), running.identity⟩
    · have all := inv.answered workflow journal mem
      rw [running.listed] at order
      exact absurd (List.append_right_eq_self.mp (order.trans all.symm)) (List.cons_ne_nil s rest)

theorem inv_begin {w : World} {i : Idle} (inv : Inv environment caseId w) (mem : i ∈ w.idle) :
    Running environment caseId (entriesOf w) w.resources w.created (begin w i) := by
  have order := passed_remaining inv.order
  unfold begin
  cases found : w.journal with
  | none =>
    have entries : entriesOf w = [] := by
      rw [entriesOf, found]
      rfl
    have nothing : done w = [] := by
      rw [done, entries]
      rfl
    rw [entries]
    rw [entries] at order
    have sound := (inv.idle i mem).2
    rw [nothing] at sound
    refine ⟨(inv.idle i mem).1, rfl, order, fun other => absurd rfl other, sound, fun destroyed _ => ?_, fun _ other => (by cases other), fun _ _ other => (by cases other)⟩
    cases sound.destroyed destroyed .drainQueues (by decide)
  | some journal =>
    have entries : entriesOf w = journal.entries := by
      rw [entriesOf, found]
      rfl
    obtain ⟨sound, complete⟩ := inv.journal journal found
    rw [done, entries] at sound complete
    rw [entries]
    rw [entries] at order
    refine ⟨(inv.idle i mem).1, rfl, order, fun other => absurd rfl other, sound, fun destroyed more => ?_,
      fun _ other => (by cases other), fun _ _ other => (by cases other)⟩
    rw [complete destroyed] at order
    exact absurd (List.append_right_eq_self.mp order) more

theorem inv_create {w : World} (resource : CloudResource) (inv : Inv environment caseId w) :
    Inv environment caseId (create w resource) := by
  unfold create
  cases inserted : w.resources.insert resource with
  | none => exact inv
  | some resources =>
    have rows := (KeyedTable.insert_eq_some inserted).2
    have kept : ∀ {old : List CloudResource}, Cleared environment caseId w.resources old →
        Cleared environment caseId resources (old ++ [resource]) := by
      intro old cleared r mem active removable
      rw [rows] at mem
      rcases List.mem_append.mp mem with before | new
      · exact List.mem_append_left _ (cleared r before active removable)
      · exact List.mem_append_right _ new
    refine ⟨inv.order, inv.idle, inv.journal, fun x found => ?_, fun mem => kept (inv.cleared mem), inv.attempted,
      inv.known, inv.answered⟩
    have running := inv.running x found
    refine ⟨running.identity, running.listed, running.order, running.busy, running.state, running.marked,
      fun resourceIds phase => ?_, fun detail rest phase next => kept (running.confirmed detail rest phase next)⟩
    obtain ⟨head, each⟩ := running.removing resourceIds phase
    refine ⟨head, fun resourceId mem => ?_⟩
    obtain ⟨r, known, found⟩ := each resourceId mem
    exact ⟨r, by rw [rows]; exact List.mem_append_left _ known, found⟩

theorem inv_execute {w : World} (workflowId : ℕ) (confirmed : String) (inv : Inv environment caseId w) :
    Inv environment caseId (execute w workflowId confirmed) := by
  unfold execute
  split
  · rename_i i _ found
    split
    · have runs := inv_begin inv (List.mem_of_getElem? found)
      exact ⟨inv.order, fun j mem => inv.idle j (List.mem_of_mem_eraseIdx mem), inv.journal,
        fun x same => (by cases same; exact runs), inv.cleared, inv.attempted, inv.known, inv.answered⟩
    · exact inv
  · exact inv

theorem inv_advance {w : World} {x : Execution} (inv : Inv environment caseId w) (found : w.execution = some x) :
    Inv environment caseId (advance w x) := by
  unfold advance
  split
  · rename_i finished
    refine inv_answer inv found fun _ _ => ?_
    have order := (inv.running x found).order
    rw [finished, List.append_nil, (inv.running x found).listed] at order
    exact order
  · rename_i s rest next
    split
    · rename_i ready
      have attempted := inv_attempted inv found next
      exact inv_attempt attempted (attempted.running x found) next ready
    · rename_i resourceIds phase
      exact inv_removeNext inv found next phase
    · rename_i result detail phase
      exact inv_write inv found next phase

theorem inv_raise {w : World} {x : Execution} (detail : String) (inv : Inv environment caseId w)
    (found : w.execution = some x) : Inv environment caseId (raise w x detail) := by
  have running := inv.running x found
  unfold raise
  split
  · rename_i s rest next ready
    have busy : x.todo ≠ [] := by
      rw [next]
      exact List.cons_ne_nil s rest
    have unmarked := unmarked_of_phase running busy fun _ writing => by
      rw [ready] at writing
      cases writing
    refine inv_execution (inv_attempted inv found next) fun y same => ?_
    cases same
    exact running_blocked running busy unmarked
  · rename_i s rest resourceIds next phase
    have busy : x.todo ≠ [] := by
      rw [next]
      exact List.cons_ne_nil s rest
    have unmarked := unmarked_of_phase running busy fun _ writing => by
      rw [phase] at writing
      cases writing
    refine inv_execution inv fun y same => ?_
    cases same
    exact running_blocked running busy unmarked
  · exact inv

theorem inv_step {w : World} {a : Action} (inv : Inv environment caseId w) (ofCase : OfCase environment caseId w a) :
    Inv environment caseId (step w a) := by
  cases a with
  | create resource => exact inv_create resource inv
  | construct workflow =>
    refine ⟨inv.order, fun i mem => ?_, inv.journal, inv.running, inv.cleared, inv.attempted, inv.known,
      inv.answered⟩
    rcases List.mem_append.mp mem with old | new
    · exact inv.idle i old
    · rw [List.mem_singleton.mp new]
      exact ⟨ofCase, stateSound_initialState _⟩
  | execute workflowId confirmed => exact inv_execute workflowId confirmed inv
  | advance =>
    change Inv environment caseId (w.execution.elim w (advance w))
    cases found : w.execution with
    | none => exact inv
    | some x => exact inv_advance inv found
  | raise detail =>
    change Inv environment caseId (w.execution.elim w fun x => raise w x detail)
    cases found : w.execution with
    | none => exact inv
    | some x => exact inv_raise detail inv found
  | interrupt =>
    change Inv environment caseId (w.execution.elim w (leave w))
    cases found : w.execution with
    | none => exact inv
    | some x => exact inv_leave inv found

section
variable (environment caseId : String)

/-- A step leaves a resource as it is, or deactivates it: a temporary unprotected one of
the case, when the export has been verified. -/
def TouchesOnlyRemovable (w w' : World) : Prop :=
  ∀ r ∈ w.resources.rows, r ∈ w'.resources.rows ∨
    (deactivated r ∈ w'.resources.rows ∧ Removable environment caseId r ∧ .independentlyVerifyExport ∈ done w)

def states (w : World) : List TeardownState :=
  w.idle.map Idle.state ++ w.execution.toList.map Execution.state ++ w.journal.toList.map Journal.state

structure Safe (w : World) : Prop where
  order : done w <+: teardownSteps
  distinct : (done w).Nodup
  revoked : ∀ state ∈ states w, state.revokedIdentities ≠ [] → .independentlyVerifyExport ∈ done w
  destroyed : ∀ state ∈ states w, state.caseState = .destroyed → ∀ s, s ≠ .markCaseDestroyed → s ∈ done w
  journalled : ∀ j, w.journal = some j → j.state.caseState = .destroyed → done w = teardownSteps
  cleared : ∀ state ∈ states w, state.caseState = .destroyed → w.created = [] →
    ∀ r ∈ w.resources.rows, r.active = true → ¬ Removable environment caseId r
  unexecuted : ∀ s, s ∉ done w → ∀ later : TeardownStep, s.number < later.number → later ∉ w.attempted

end

theorem safe_of_inv {w : World} (inv : Inv environment caseId w) : Safe environment caseId w := by
  have sound : ∀ state ∈ states w, StateSound (done w) state := by
    intro state mem
    simp only [states, List.mem_append, List.mem_map, Option.mem_toList] at mem
    rcases mem with (⟨i, idle, rfl⟩ | ⟨x, running, rfl⟩) | ⟨j, journal, rfl⟩
    · exact (inv.idle i idle).2
    · exact (inv.running x running).state
    · exact (inv.journal j journal).1
  refine ⟨inv.order, teardownSteps_nodup.sublist inv.order.sublist, fun state mem => (sound state mem).revoked,
    fun state mem => (sound state mem).destroyed, fun j found => (inv.journal j found).2,
    fun state mem destroyed none r known active removable => ?_, fun s undone later after attempted => ?_⟩
  · have confirmed := (sound state mem).destroyed destroyed .confirmNoDisallowedResources (by decide)
    have since := inv.cleared confirmed r known active removable
    rw [none] at since
    cases since
  · exact undone (inv.attempted later attempted s after)

theorem number_lt_of_removal : ∀ s, isRemoval s = true → TeardownStep.independentlyVerifyExport.number < s.number := by
  intro s
  cases s <;> decide

theorem touches_removeNext {w : World} {x : Execution} {s : TeardownStep} {resourceIds : List String}
    (inv : Inv environment caseId w) (found : w.execution = some x) (phase : x.phase = .removing resourceIds) :
    TouchesOnlyRemovable environment caseId w (removeNext w x s resourceIds) := by
  intro r known
  cases resourceIds with
  | nil => exact .inl known
  | cons resourceId rest =>
    have running := inv.running x found
    obtain ⟨⟨t, others, next, removal⟩, each⟩ := running.removing _ phase
    have now : (if r.resourceId = resourceId then deactivated r else r) ∈
        (deactivate w.resources resourceId).rows := mem_deactivate.mpr ⟨r, known, rfl⟩
    by_cases here : r.resourceId = resourceId
    · rw [if_pos here] at now
      obtain ⟨same, inside, key, removable⟩ := each resourceId List.mem_cons_self
      have one := w.resources.key_injective inside known (key.trans here.symm)
      subst one
      have order := running.order
      rw [next, running.listed] at order
      exact .inr ⟨now, removable, mem_of_number_lt order (number_lt_of_removal t removal)⟩
    · rw [if_neg here] at now
      exact .inl now

theorem resources_attempt (w : World) (x : Execution) (s : TeardownStep) :
    (attempt w x s).resources = w.resources := by
  unfold attempt applyStep
  split
  · split <;> rfl
  · split <;> rfl

theorem touches_step {w : World} {a : Action} (inv : Inv environment caseId w) :
    TouchesOnlyRemovable environment caseId w (step w a) := by
  have same : ∀ {w' : World}, w'.resources = w.resources → TouchesOnlyRemovable environment caseId w w' := by
    intro w' unchanged r known
    rw [unchanged]
    exact .inl known
  cases a with
  | create resource =>
    intro r known
    left
    change r ∈ (create w resource).resources.rows
    unfold create
    cases inserted : w.resources.insert resource with
    | none => exact known
    | some resources =>
      rw [(KeyedTable.insert_eq_some inserted).2]
      exact List.mem_append_left _ known
  | construct workflow => exact same rfl
  | execute workflowId confirmed =>
    refine same ?_
    change (execute w workflowId confirmed).resources = w.resources
    unfold execute
    split
    · split <;> rfl
    · rfl
  | advance =>
    change TouchesOnlyRemovable environment caseId w (w.execution.elim w (advance w))
    cases found : w.execution with
    | none => exact same rfl
    | some x =>
      change TouchesOnlyRemovable environment caseId w (advance w x)
      unfold advance
      split
      · exact same rfl
      · split
        · exact same (resources_attempt _ x _)
        · rename_i phase
          exact touches_removeNext inv found phase
        · rename_i result detail _
          cases result <;> exact same rfl
  | raise detail =>
    refine same ?_
    change (w.execution.elim w fun x => raise w x detail).resources = w.resources
    cases w.execution with
    | none => rfl
    | some x =>
      change (raise w x detail).resources = w.resources
      unfold raise
      split <;> rfl
  | interrupt =>
    refine same ?_
    change (w.execution.elim w (leave w)).resources = w.resources
    cases w.execution <;> rfl

/-- Over any executions of the workflows of one case, with failures and interruptions
anywhere, from any resources: the order, the bounds and the end of a teardown. -/
theorem teardown_ordered (environment caseId : String) {w : World} (opening : Opening w) {actions : List Action}
    (along : Along step (OfCase environment caseId) w actions) :
    (∀ front, front <+: actions → Safe environment caseId (run step w front)) ∧
      ∀ front a, front ++ [a] <+: actions →
        TouchesOnlyRemovable environment caseId (run step w front) (run step w (front ++ [a])) := by
  have throughout := throughout_of_along (I := Inv environment caseId) (P := Inv environment caseId)
    (fun _ _ before ofCase => inv_step before ofCase) (fun _ good => good) (inv_opening opening) along
  have here := (throughout_iff_front _ _ _ _).mp throughout
  refine ⟨fun front reached => safe_of_inv (here front reached), fun front a reached => ?_⟩
  rw [run_append]
  exact touches_step (here front ((List.prefix_append front [a]).trans reached))

def wholeTeardown : List Action :=
  [.construct (caseWorkflow true none), .execute 0 "mirage:test:CASE"] ++ List.replicate 60 .advance

theorem wholeTeardown_safe : Safe "test" "CASE" (run step sandboxWorld wholeTeardown) ∧
    (run step sandboxWorld wholeTeardown).resources.rows.map CloudResource.active = [false, true] := by
  have along : Along step (OfCase "test" "CASE") sandboxWorld wholeTeardown :=
    ⟨⟨rfl, rfl⟩, trivial, along_of_forall fun _ a mem => by
      rw [List.eq_of_mem_replicate mem]
      trivial⟩
  exact ⟨(teardown_ordered "test" "CASE" opening_sandboxWorld along).1 _ (List.prefix_refl _), by decide +kernel⟩

end Mirage.TeardownOrder
