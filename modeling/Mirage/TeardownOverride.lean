import Mirage.TeardownOrder

/-! The gate before a destruction. An override is validated and recorded by the step
that records the gaps, and only asked for by the step that verifies the evidence; an
execution that resumes between the two meets the second without the first. -/

namespace Mirage.TeardownOverride
open EventRun Teardown TeardownOrder PythonText

def Recorded (audit : List AuditEntry) (workflow : Workflow) : Prop :=
  ∃ o, workflow.override = some o ∧ o.validate = .ok () ∧ .evidenceGapOverride o ∈ audit

def Justified (audit : List AuditEntry) (workflow : Workflow) : Prop :=
  workflow.requiredEvidenceVerified = true ∨ Recorded audit workflow

def auditOf (w : World) : List AuditEntry := w.journal.elim [] fun journal => journal.state.audit

/-- No execution starts between the record of the gaps and the verification with
unverified evidence and an override that is invalid or not in the journal. -/
def Admissible (environment caseId : String) (w : World) : Action → Prop
  | .execute workflowId _ => ∀ i, w.idle[workflowId]? = some i → .recordRemainingGaps ∈ done w →
      .verifyRequiredEvidence ∉ done w → i.workflow.requiredEvidenceVerified = false →
      i.workflow.override ≠ none → Recorded (auditOf w) i.workflow
  | a => OfCase environment caseId w a

def Blocked (workflow : Workflow) : Prop :=
  workflow.requiredEvidenceVerified = false ∧ workflow.override = none

structure Gated (audit : List AuditEntry) (x : Execution) : Prop where
  grows : ∀ entry ∈ audit, entry ∈ x.state.audit
  recorded : .recordRemainingGaps ∉ x.todo → .verifyRequiredEvidence ∈ x.todo →
    Blocked x.workflow ∨ Justified x.state.audit x.workflow
  recording : ∀ detail rest, x.phase = .writing .pass detail → x.todo = .recordRemainingGaps :: rest →
    Blocked x.workflow ∨ Justified x.state.audit x.workflow
  verifying : ∀ detail rest, x.phase = .writing .pass detail → x.todo = .verifyRequiredEvidence :: rest →
    Justified x.state.audit x.workflow

structure Gate (w : World) : Prop where
  performed : ∀ workflow, (workflow, .verifyRequiredEvidence) ∈ w.performed → Justified (auditOf w) workflow
  running : ∀ x, w.execution = some x → Gated (auditOf w) x

theorem justified_mono {audit audit' : List AuditEntry} {workflow : Workflow}
    (grows : ∀ entry ∈ audit, entry ∈ audit') (justified : Justified audit workflow) :
    Justified audit' workflow := by
  rcases justified with verified | ⟨o, held, valid, recorded⟩
  · exact .inl verified
  · exact .inr ⟨o, held, valid, grows _ recorded⟩

theorem gate_opening {w : World} (opening : Opening w) : Gate w := by
  refine ⟨fun _ mem => ?_, fun x found => ?_⟩
  · rw [opening.performed] at mem
    cases mem
  · rw [opening.execution] at found
    cases found

theorem gated_phase {audit : List AuditEntry} {x : Execution} {phase : Phase} (gated : Gated audit x)
    (passes : ∀ detail, phase ≠ .writing .pass detail) : Gated audit { x with phase } :=
  ⟨gated.grows, gated.recorded, fun detail _ same => absurd same (passes detail),
    fun detail _ same => absurd same (passes detail)⟩

theorem gate_execution {w : World} {execution : Option Execution} (gate : Gate w)
    (running : ∀ x, execution = some x → Gated (auditOf w) x) : Gate { w with execution } :=
  ⟨gate.performed, running⟩

theorem gate_leave {w : World} (x : Execution) (gate : Gate w) : Gate (leave w x) :=
  ⟨gate.performed, fun _ none => by cases none⟩

theorem gate_answer {w : World} (x : Execution) (result : Except String (Option Journal)) (gate : Gate w) :
    Gate (answer w x result) :=
  ⟨gate.performed, fun _ none => by cases none⟩

theorem justified_of_recordGaps {workflow : Workflow} {state state' : TeardownState}
    (ran : recordGaps workflow state = .ok state') : Blocked workflow ∨ Justified state'.audit workflow := by
  unfold recordGaps at ran
  split at ran
  · rename_i verified
    exact .inr (.inl verified)
  · rename_i unverified
    split at ran
    · rename_i none
      exact .inl ⟨by simpa using unverified, none⟩
    · rename_i o held
      split at ran
      · cases ran
      · rename_i valid
        cases ran
        exact .inr (.inr ⟨o, held, valid, by simp⟩)

theorem audit_recordGaps {workflow : Workflow} {state state' : TeardownState}
    (ran : recordGaps workflow state = .ok state') : ∀ entry ∈ state.audit, entry ∈ state'.audit := by
  unfold recordGaps at ran
  split at ran
  · cases ran
    exact fun _ mem => mem
  · split at ran
    · cases ran
      exact fun _ mem => List.mem_append_left _ mem
    · split at ran
      · cases ran
      · cases ran
        exact fun _ mem => List.mem_append_left _ mem

theorem audit_revoke (identity : String) (state : TeardownState) : (revoke identity state).audit = state.audit := by
  unfold revoke
  split <;> rfl

theorem audit_apply {workflow : Workflow} {resources : Resources} {state state' : TeardownState} {s : TeardownStep}
    (ran : apply workflow resources state s = .ok state') : ∀ entry ∈ state.audit, entry ∈ state'.audit := by
  cases s with
  | recordRemainingGaps => exact audit_recordGaps ran
  | revokeSandboxCertificate | revokeTemporaryAgentCertificates =>
    simp only [apply] at ran
    split at ran
    · cases ran
      rw [audit_revoke]
      exact fun _ mem => mem
    · cases ran
  | drainQueues | captureFinalSnapshot | independentlyVerifyExport | runInventory =>
    simp only [apply] at ran
    split at ran
    · cases ran
      exact fun _ mem => mem
    · cases ran
  | verifyRequiredEvidence =>
    simp only [apply] at ran
    split at ran
    · cases ran
    · cases ran
      exact fun _ mem => mem
  | preserveEvidenceResources | confirmNoDisallowedResources =>
    simp only [apply, caseInventory] at ran
    split at ran
    · cases ran
      exact fun _ mem => mem
    · cases ran
  | _ =>
    cases ran
    exact fun _ mem => mem

theorem not_blocked_of_verify {workflow : Workflow} {resources : Resources} {state state' : TeardownState}
    (ran : apply workflow resources state .verifyRequiredEvidence = .ok state') :
    state' = state ∧ ¬ Blocked workflow := by
  simp only [apply] at ran
  split at ran
  · cases ran
  · rename_i passes
    cases ran
    exact ⟨rfl, passes⟩

variable {environment caseId : String}

theorem record_not_to_come {front rest : List TeardownStep}
    (order : front ++ .verifyRequiredEvidence :: rest = teardownSteps) :
    TeardownStep.recordRemainingGaps ∉ TeardownStep.verifyRequiredEvidence :: rest := by
  intro mem
  have before : TeardownStep.recordRemainingGaps ∈ front := mem_of_number_lt order (by decide)
  have apart := teardownSteps_nodup
  rw [← order, List.nodup_append] at apart
  exact apart.2.2 _ before _ mem rfl

theorem gate_applyStep {w : World} {x : Execution} {s : TeardownStep} {rest : List TeardownStep}
    (inv : Inv environment caseId w) (gate : Gate w) (found : w.execution = some x) (next : x.todo = s :: rest) :
    Gate (applyStep w x s) := by
  have gated := gate.running x found
  unfold applyStep
  cases ran : apply x.workflow w.resources x.state s with
  | error detail =>
    refine gate_execution gate fun y same => ?_
    cases same
    exact gated_phase gated fun _ other => by cases other
  | ok state =>
    refine ⟨gate.performed, fun y same => ?_⟩
    cases same
    have grows := audit_apply ran
    have order := (inv.running x found).order
    refine ⟨fun entry mem => grows entry (gated.grows entry mem), fun behind ahead => ?_, fun _ _ _ now => ?_,
      fun _ _ _ now => ?_⟩
    · rcases gated.recorded behind ahead with blocked | justified
      · exact .inl blocked
      · exact .inr (justified_mono grows justified)
    · rw [next] at now
      rw [(List.cons.inj now).1] at ran
      exact justified_of_recordGaps ran
    · rw [next] at now order
      rw [(List.cons.inj now).1] at ran order
      obtain ⟨same, passes⟩ := not_blocked_of_verify ran
      have gated := gated.recorded
      rw [next, (List.cons.inj now).1] at gated
      rcases gated (record_not_to_come order) List.mem_cons_self with blocked | justified
      · exact absurd blocked passes
      · rw [same]
        exact justified

theorem gate_attempt {w : World} {x : Execution} {s : TeardownStep} {rest : List TeardownStep}
    (inv : Inv environment caseId w) (gate : Gate w) (found : w.execution = some x) (next : x.todo = s :: rest) :
    Gate (attempt w x s) := by
  unfold attempt
  split
  · rw [removals_eq]
    refine gate_execution gate fun y same => ?_
    cases same
    exact gated_phase (gate.running x found) fun _ other => by cases other
  · exact gate_applyStep inv gate found next

theorem gate_removeNext {w : World} {x : Execution} {s : TeardownStep} {resourceIds : List String}
    (inv : Inv environment caseId w) (gate : Gate w) (found : w.execution = some x)
    (phase : x.phase = .removing resourceIds) : Gate (removeNext w x s resourceIds) := by
  have gated := gate.running x found
  obtain ⟨⟨t, others, head, removal⟩, -⟩ := (inv.running x found).removing resourceIds phase
  cases resourceIds with
  | nil =>
    refine gate_execution gate fun y same => ?_
    cases same
    refine ⟨gated.grows, gated.recorded, fun _ _ _ now => ?_, fun _ _ _ now => ?_⟩
    · rw [head] at now
      rw [(List.cons.inj now).1] at removal
      cases removal
    · rw [head] at now
      rw [(List.cons.inj now).1] at removal
      cases removal
  | cons resourceId rest =>
    refine ⟨gate.performed, fun y same => ?_⟩
    cases same
    exact gated_phase gated fun _ other => by cases other

theorem gate_write {w : World} {x : Execution} {s : TeardownStep} {rest : List TeardownStep} {result : StepResult}
    {detail : String} (gate : Gate w) (found : w.execution = some x)
    (next : x.todo = s :: rest) (phase : x.phase = .writing result detail) : Gate (write w x s result detail) := by
  have gated := gate.running x found
  have performed : ∀ workflow, (workflow, .verifyRequiredEvidence) ∈ w.performed →
      Justified x.state.audit workflow :=
    fun workflow mem => justified_mono gated.grows (gate.performed workflow mem)
  cases result with
  | blocked =>
    exact ⟨performed, fun _ none => by cases none⟩
  | pass =>
    refine ⟨fun workflow mem => ?_, fun y same => ?_⟩
    · rcases List.mem_append.mp mem with old | new
      · exact performed workflow old
      · cases List.mem_singleton.mp new
        exact gated.verifying detail rest phase next
    · cases same
      refine ⟨fun _ mem => mem, fun behind ahead => ?_, fun _ _ other => (by cases other),
        fun _ _ other => (by cases other)⟩
      rw [next, List.tail_cons] at behind ahead
      by_cases now : s = .recordRemainingGaps
      · subst now
        exact gated.recording detail rest phase next
      · refine gated.recorded ?_ ?_
        · rw [next]
          intro mem
          rcases List.mem_cons.mp mem with here | later
          · exact now here.symm
          · exact behind later
        · rw [next]
          exact List.mem_cons_of_mem s ahead

theorem gate_execute {w : World} {workflowId : ℕ} {confirmed : String} (gate : Gate w)
    (admissible : Admissible environment caseId w (.execute workflowId confirmed)) :
    Gate (execute w workflowId confirmed) := by
  unfold execute
  split
  · rename_i i _ found
    split
    · refine ⟨gate.performed, fun y same => ?_⟩
      cases same
      have todo : (begin w i).todo = remaining (entriesOf w) := by
        unfold begin entriesOf
        cases w.journal <;> rfl
      have workflow : (begin w i).workflow = i.workflow := by
        unfold begin
        cases w.journal <;> rfl
      have ready : (begin w i).phase = .ready := by
        unfold begin
        cases w.journal <;> rfl
      have grows : ∀ entry ∈ auditOf w, entry ∈ (begin w i).state.audit := by
        unfold begin auditOf
        cases w.journal with
        | none => exact fun _ mem => by cases mem
        | some journal => exact fun _ mem => mem
      have listed : ∀ s, s ∈ remaining (entriesOf w) ↔ s ∉ done w := by
        intro s
        simp [remaining, done, mem_teardownSteps]
      refine ⟨grows, fun behind ahead => ?_, fun _ _ other => ?_, fun _ _ other => ?_⟩
      · rw [todo, listed] at behind ahead
        rw [workflow]
        by_cases verified : i.workflow.requiredEvidenceVerified = true
        · exact .inr (.inl verified)
        · by_cases none : i.workflow.override = none
          · exact .inl ⟨by simpa using verified, none⟩
          · obtain ⟨o, held, valid, recorded⟩ :=
              admissible i found (not_not.mp behind) ahead (by simpa using verified) none
            exact .inr (.inr ⟨o, held, valid, grows _ recorded⟩)
      · rw [ready] at other
        cases other
      · rw [ready] at other
        cases other
    · exact gate
  · exact gate

theorem ofCase_of_admissible {w : World} {a : Action} (admissible : Admissible environment caseId w a) :
    OfCase environment caseId w a := by
  cases a with
  | execute workflowId confirmed => exact trivial
  | _ => exact admissible

theorem gate_step {w : World} {a : Action} (inv : Inv environment caseId w) (gate : Gate w)
    (admissible : Admissible environment caseId w a) : Gate (step w a) := by
  cases a with
  | create resource =>
    change Gate (create w resource)
    unfold create
    cases w.resources.insert resource with
    | none => exact gate
    | some resources => exact ⟨gate.performed, gate.running⟩
  | construct workflow => exact ⟨gate.performed, gate.running⟩
  | execute workflowId confirmed => exact gate_execute gate admissible
  | advance =>
    change Gate (w.execution.elim w (advance w))
    cases found : w.execution with
    | none => exact gate
    | some x =>
      change Gate (advance w x)
      unfold advance
      split
      · exact gate_answer x _ gate
      · rename_i s rest next
        split
        · have attempted := inv_attempted inv found next
          exact gate_attempt attempted ⟨gate.performed, gate.running⟩ found next
        · rename_i resourceIds phase
          exact gate_removeNext inv gate found phase
        · rename_i result detail phase
          exact gate_write gate found next phase
  | raise detail =>
    change Gate (w.execution.elim w fun x => raise w x detail)
    cases found : w.execution with
    | none => exact gate
    | some x =>
      have raised : Gated (auditOf w) { x with phase := .writing .blocked detail } :=
        gated_phase (gate.running x found) fun _ other => by cases other
      change Gate (raise w x detail)
      unfold raise
      split
      · exact ⟨gate.performed, fun y same => by cases same; exact raised⟩
      · exact ⟨gate.performed, fun y same => by cases same; exact raised⟩
      · exact gate
  | interrupt =>
    change Gate (w.execution.elim w (leave w))
    cases found : w.execution with
    | none => exact gate
    | some x => exact gate_leave x gate

def Destroys (w w' : World) : Prop := ∃ r ∈ w.resources.rows, r ∉ w'.resources.rows

/-- In every run of admissible steps who passed the verification was justified by what
the journal has, and a resource is only deactivated when it has been passed. -/
theorem destroys_only_justified (environment caseId : String) {w : World} (opening : Opening w)
    {actions : List Action} (along : Along step (Admissible environment caseId) w actions)
    {front : List Action} (reached : front <+: actions) :
    (∀ workflow, (workflow, .verifyRequiredEvidence) ∈ (run step w front).performed →
        Justified (auditOf (run step w front)) workflow) ∧
      ∀ a, front ++ [a] <+: actions → Destroys (run step w front) (run step w (front ++ [a])) →
        ∃ workflow, (workflow, .verifyRequiredEvidence) ∈ (run step w front).performed ∧
          Justified (auditOf (run step w front)) workflow := by
  let Both (w : World) : Prop := Inv environment caseId w ∧ Gate w
  have throughout := throughout_of_along (I := Both) (P := Both)
    (fun _ _ before admissible =>
      ⟨inv_step before.1 (ofCase_of_admissible admissible), gate_step before.1 before.2 admissible⟩)
    (fun _ good => good) ⟨inv_opening opening, gate_opening opening⟩ along
  obtain ⟨inv, gate⟩ := (throughout_iff_front _ _ _ _).mp throughout front reached
  refine ⟨gate.performed, fun a _ destroys => ?_⟩
  obtain ⟨r, known, gone⟩ := destroys
  rw [run_append] at gone
  rcases touches_step (a := a) inv r known with kept | ⟨-, -, verified⟩
  · exact absurd kept gone
  · obtain ⟨rest, order⟩ := inv.order
    have passed : TeardownStep.verifyRequiredEvidence ∈ done (run step w front) := by
      obtain ⟨before, after, split⟩ := List.append_of_mem verified
      rw [split, List.append_assoc, List.cons_append] at order
      rw [split]
      exact List.mem_append_left _ (mem_of_number_lt order (by decide))
    obtain ⟨workflow, performed, -⟩ := inv.known _ passed
    exact ⟨workflow, performed, gate.performed workflow performed⟩

/-! A destruction under an approved override, and one behind a block and an invalid override. -/

def approved : EvidenceGapOverride := ⟨text "sensor failed", [text "event 50"], text "analyst", text "decision", true⟩

def unapproved : EvidenceGapOverride := { approved with policyAllows := false }

def overridden : List Action :=
  [.construct (caseWorkflow false (some approved)), .execute 0 "mirage:test:CASE"] ++ List.replicate 34 .advance

theorem overridden_justified :
    auditOf (run step sandboxWorld overridden) = [.evidenceGapOverride approved] ∧
    ∀ workflow, (workflow, .verifyRequiredEvidence) ∈ (run step sandboxWorld overridden).performed →
      Justified (auditOf (run step sandboxWorld overridden)) workflow := by
  have along : Along step (Admissible "test" "CASE") sandboxWorld overridden := by
    refine ⟨⟨rfl, rfl⟩, fun i found recorded => ?_, along_of_forall fun _ a mem => ?_⟩
    · cases recorded
    · rw [List.eq_of_mem_replicate mem]
      trivial
  exact ⟨by decide +kernel, (destroys_only_justified "test" "CASE" opening_sandboxWorld along (List.prefix_refl _)).1⟩

/-- The first execution records the gap and is blocked, the second one resumes behind
the record with an override that nobody allowed. -/
theorem destroyed_without_justification :
    let w := run step sandboxWorld
      ([.construct (caseWorkflow false none), .execute 0 "mirage:test:CASE"] ++ List.replicate 20 .advance ++
        [.construct (caseWorkflow false (some unapproved)), .execute 1 "mirage:test:CASE"] ++ List.replicate 18 .advance)
    w.resources.rows.map CloudResource.active = [false, true] ∧
      ((w.performed.filter fun p => p.2 = .verifyRequiredEvidence).map fun p =>
        (p.1.requiredEvidenceVerified, p.1.override)) = [(false, some unapproved)] ∧
      unapproved.validate.isOk = false ∧ auditOf w = [.evidenceGapDetected] := by
  decide +kernel

end Mirage.TeardownOverride
