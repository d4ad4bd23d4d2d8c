import Mirage.AnalystDirectives
import Mirage.AnalystMessages
import Mirage.KeyedRequests

/-! What the idempotency keys of directives and of messages name. Both functions look a key
up behind their checks, and neither compares what it is given with the row that it
finds. -/

namespace Mirage.AnalystRequests
open EventRun KeyedRequests PythonText

section
open AnalystDirectives

def directiveKey (row : Directive) : String × String := (row.caseId, row.idempotencyKey)

/-- What a call of `submit_directive` is given beside its key. -/
structure DirectiveContent where
  objective : Text
  priority : String
  sessionId : Option String
  expiresAt : Option ℕ

theorem existing_eq_position (s : AnalystDirectives.State) (caseId idempotencyKey : String) :
    AnalystDirectives.existing s caseId idempotencyKey = position directiveKey s.directives (caseId, idempotencyKey) := by
  unfold AnalystDirectives.existing position directiveKey
  congr 1
  funext row
  simp [Prod.ext_iff]

theorem step_keys {prohibited : Text → Bool} {s : AnalystDirectives.State} {a : AnalystDirectives.Action}
    (other : ∀ now r, a ≠ .submitDirective now r) :
    (AnalystDirectives.step prohibited s a).directives.map directiveKey = s.directives.map directiveKey := by
  cases a with
  | openCase caseId => rfl
  | submitDirective now r => exact absurd rfl (other now r)
  | acknowledgeDirective now directiveId committed =>
    refine keys_modify s.directives directiveId fun row => ?_
    unfold acknowledgeDirective
    split
    · rfl
    split <;> rfl
  | cancelDirective caseId directiveId =>
    refine keys_modify s.directives directiveId fun row => ?_
    unfold cancelDirective
    split <;> rfl
  | linkDirectiveResult now directiveId proposalId actionId applied rejectionReason =>
    exact keys_modify s.directives directiveId fun row => rfl
  | applyDirectiveStrategy now directiveId fromPhase toPhase proposalId actionId =>
    simp only [AnalystDirectives.step, applyDirectiveStrategy]
    split
    · rfl
    split
    · exact keys_modify s.directives directiveId fun row => rfl
    · rfl

def directiveAnswer (prohibited : Text → Bool) (s : AnalystDirectives.State) : AnalystDirectives.Action → Option ℕ
  | .submitDirective now r => (submitDirective prohibited s now r).2.toOption
  | _ => none

def directiveAdmitted (prohibited : Text → Bool) : AnalystDirectives.Action → Bool
  | .submitDirective now r => (validate prohibited now r).isOk
  | _ => false

def directiveRequest : AnalystDirectives.Action → Option ((String × String) × DirectiveContent)
  | .submitDirective _ r => some ((r.caseId, r.idempotencyKey), ⟨r.objective, r.priority, r.sessionId, r.expiresAt⟩)
  | _ => none

theorem submitDirective_known (prohibited : Text → Bool) {s : AnalystDirectives.State} (now : ℕ) {record : ℕ}
    {r : Submission} (found : AnalystDirectives.existing s r.caseId r.idempotencyKey = some record) :
    (submitDirective prohibited s now r).1 = s ∧ (submitDirective prohibited s now r).2.toOption =
      if (validate prohibited now r).isOk then some record else none := by
  unfold submitDirective
  cases validate prohibited now r with
  | error message => exact ⟨rfl, rfl⟩
  | ok objective =>
    simp only [found, true_and]
    rfl

theorem submitDirective_new (prohibited : Text → Bool) {s : AnalystDirectives.State} (now : ℕ)
    {r : Submission} (absent : AnalystDirectives.existing s r.caseId r.idempotencyKey = none) :
    (∃ objective, submitDirective prohibited s now r =
        ({ s with directives := s.directives ++ [newDirective now objective r] }, .ok s.directives.length)) ∨
      ∃ message, submitDirective prohibited s now r = (s, .error message) := by
  unfold submitDirective
  cases validate prohibited now r with
  | error message => exact .inr ⟨message, rfl⟩
  | ok objective =>
    simp only [absent]
    by_cases known : r.caseId ∈ s.cases
    · by_cases stored : r.stored
      · exact .inl ⟨objective, by simp [known, stored]⟩
      · exact .inr ⟨_, by simp [known, stored]; rfl⟩
    · exact .inr ⟨_, by simp [known]; rfl⟩

def directives (prohibited : Text → Bool) :
    Service AnalystDirectives.State AnalystDirectives.Action (String × String) DirectiveContent :=
  ofTable (·.directives) directiveKey (AnalystDirectives.step prohibited) directiveRequest
    (fun _ => directiveAdmitted prohibited) (directiveAnswer prohibited)
    (by
      intro s a key content record asked found
      cases a with
      | submitDirective now r =>
        cases asked
        obtain ⟨kept, answered⟩ := submitDirective_known prohibited now
          ((existing_eq_position s _ _).trans found)
        exact ⟨congrArg (fun s => s.directives.map directiveKey) kept, answered⟩
      | _ => cases asked)
    (by
      intro s a key content asked absent
      cases a with
      | submitDirective now r =>
        cases asked
        rw [← existing_eq_position] at absent
        obtain ⟨objective, added⟩ | ⟨message, refused⟩ := submitDirective_new prohibited now absent
        · exact .inl ⟨newDirective now objective r, rfl, by simp only [AnalystDirectives.step, added],
            by simp only [directiveAnswer, added]; rfl⟩
        · exact .inr ⟨by simp only [AnalystDirectives.step, refused], by simp only [directiveAnswer, refused]; rfl⟩
      | _ => cases asked)
    (by
      intro s a other
      refine step_keys fun now r same => ?_
      subst same
      cases other)

end

section
open AnalystMessages

def messageKey (row : Message) : String × String := (row.caseId, row.idempotencyKey)

/-- What a call of `create_message` is given beside its key; the hash follows from it. -/
structure MessageContent where
  content : Text
  surface : String
  sessionId : String
  authorId : String
  policyDecisionId : String

/-- A call of `create_message`, and what else happens: anything to the cases, the sessions and
the channel, and to the fields of a row that its delivery writes. -/
inductive MessageEvent where
  | createMessage (r : Creation)
  | surroundings (s : AnalystMessages.State)
  | write (messageId : ℕ) (status : MessageStatus) (confirmedAt deliveredAt : Option ℕ)
      (responseEventIds : List String) (evidenceId : Option String)

def messageStep (rules : Rules) (s : AnalystMessages.State) : MessageEvent → AnalystMessages.State
  | .createMessage r => (createMessage rules s r).1
  | .surroundings now => { now with messages := s.messages }
  | .write messageId status confirmedAt deliveredAt responseEventIds evidenceId =>
    { s with messages := s.messages.modify messageId fun row =>
      { row with status, confirmedAt, deliveredAt, responseEventIds, evidenceId } }

def messageAnswer (rules : Rules) (s : AnalystMessages.State) : MessageEvent → Option ℕ
  | .createMessage r => (createMessage rules s r).2.toOption.map (·.messageId)
  | _ => none

def messageAdmitted (rules : Rules) (s : AnalystMessages.State) : MessageEvent → Bool
  | .createMessage r => (vet rules s r).isOk
  | _ => false

def messageRequest : MessageEvent → Option ((String × String) × MessageContent)
  | .createMessage r =>
    some ((r.caseId, r.idempotencyKey), ⟨r.content, r.surface, r.sessionId, r.authorId, r.policyDecisionId⟩)
  | _ => none

theorem message_existing_eq_position (s : AnalystMessages.State) (caseId idempotencyKey : String) :
    AnalystMessages.existing s caseId idempotencyKey = position messageKey s.messages (caseId, idempotencyKey) := by
  unfold AnalystMessages.existing position messageKey
  congr 1
  funext row
  simp [Prod.ext_iff]

theorem createMessage_known (rules : Rules) {s : AnalystMessages.State} {r : Creation} {record : ℕ}
    (found : AnalystMessages.existing s r.caseId r.idempotencyKey = some record) :
    (createMessage rules s r).1 = s ∧ (createMessage rules s r).2.toOption.map (·.messageId) =
      if (vet rules s r).isOk then some record else none := by
  unfold createMessage
  cases vet rules s r with
  | error message => exact ⟨rfl, rfl⟩
  | ok admission =>
    have here := List.getElem?_eq_getElem (existing_bound found)
    simp only [found, here, true_and]
    rfl

theorem createMessage_new (rules : Rules) {s : AnalystMessages.State} {r : Creation}
    (absent : AnalystMessages.existing s r.caseId r.idempotencyKey = none) :
    (∃ preview decision, createMessage rules s r =
        ({ s with messages := s.messages ++ [newMessage preview decision r] },
          .ok (answerOf s.messages.length (newMessage preview decision r)))) ∨
      ∃ message, createMessage rules s r = (s, .error message) := by
  unfold createMessage
  cases vet rules s r with
  | error message => exact .inr ⟨message, rfl⟩
  | ok admission =>
    simp only [absent]
    by_cases stored : r.stored
    · exact .inl ⟨admission.1, admission.2, by simp [stored]⟩
    · exact .inr ⟨_, by simp [stored]; rfl⟩

theorem messageStep_keys {rules : Rules} {s : AnalystMessages.State} {e : MessageEvent}
    (other : ∀ r, e ≠ .createMessage r) :
    (messageStep rules s e).messages.map messageKey = s.messages.map messageKey := by
  cases e with
  | createMessage r => exact absurd rfl (other r)
  | surroundings now => rfl
  | write messageId status confirmedAt deliveredAt responseEventIds evidenceId =>
    exact keys_modify s.messages messageId fun row => rfl

def messages (rules : Rules) : Service AnalystMessages.State MessageEvent (String × String) MessageContent :=
  ofTable (·.messages) messageKey (messageStep rules) messageRequest (messageAdmitted rules) (messageAnswer rules)
    (by
      intro s e key content record asked found
      cases e with
      | createMessage r =>
        cases asked
        obtain ⟨kept, answered⟩ := createMessage_known rules
          ((message_existing_eq_position s _ _).trans found)
        exact ⟨congrArg (fun s => s.messages.map messageKey) kept, answered⟩
      | _ => cases asked)
    (by
      intro s e key content asked absent
      cases e with
      | createMessage r =>
        cases asked
        obtain ⟨preview, decision, added⟩ | ⟨message, refused⟩ := createMessage_new rules
          ((message_existing_eq_position s _ _).trans absent)
        · exact .inl ⟨newMessage preview decision r, rfl, by simp only [messageStep, added],
            by simp only [messageAnswer, added]; rfl⟩
        · exact .inr ⟨by simp only [messageStep, refused], by simp only [messageAnswer, refused]; rfl⟩
      | _ => cases asked)
    (by
      intro s e other
      refine messageStep_keys fun r same => ?_
      subst same
      cases other)

end

/-- The answers of a run agree with what its calls are given exactly if behind every answered call
the checks in front of the lookup admit the same content, and nothing else. -/
theorem keys_name_one_request_iff (prohibited : Text → Bool) (rules : AnalystMessages.Rules)
    {s : AnalystDirectives.State} {t : AnalystMessages.State} (noDirective : s.directives = [])
    (noMessage : t.messages = []) (actions : List AnalystDirectives.Action) (events : List MessageEvent) :
    (Throughout (directives prohibited).traceStep (fun u => Consistent u.log) ⟨s, []⟩ actions ↔
        Along (directives prohibited).traceStep (directives prohibited).Ok ⟨s, []⟩ actions) ∧
      (Throughout (messages rules).traceStep (fun u => Consistent u.log) ⟨t, []⟩ events ↔
        Along (messages rules).traceStep (messages rules).Ok ⟨t, []⟩ events) := by
  refine ⟨(directives prohibited).consistent_iff (fun key => ?_) actions,
    (messages rules).consistent_iff (fun key => ?_) events⟩
  · show position directiveKey s.directives key = none
    rw [noDirective]
    rfl
  · show position messageKey t.messages key = none
    rw [noMessage]
    rfl

/-! A call, its retry behind its expiry, and a call with its key and another text. -/

def noDirectives : AnalystDirectives.State := ⟨["CASE"], [], []⟩

def submission (objective : String) : AnalystDirectives.Submission :=
  ⟨"CASE", none, text objective, "NORMAL", "analyst", some 5, "K", true⟩

theorem retry_gets_the_record :
    Throughout (directives fun _ => false).traceStep (fun u => Consistent u.log) ⟨noDirectives, []⟩
        [.submitDirective 1 (submission "watch"), .submitDirective 2 (submission "watch")] ∧
      (run (directives fun _ => false).traceStep ⟨noDirectives, []⟩
        [.submitDirective 1 (submission "watch"), .submitDirective 2 (submission "watch")]).log.map (·.answer) =
      [some 0, some 0] := by
  refine ⟨(keys_name_one_request_iff (fun _ => false) AnalystMessages.sampleRules rfl
    (t := AnalystMessages.engaged .engaging) rfl _ []).1.mpr ⟨?_, ?_, trivial⟩, by decide +kernel⟩
  · intro key content asked first mem
    cases mem
  · intro key content asked first mem own answered
    cases asked
    cases List.mem_singleton.mp mem
    have admitted : (directives fun _ => false).admitted noDirectives (.submitDirective 2 (submission "watch")) = true := by
      decide +kernel
    exact ⟨fun _ => rfl, fun _ => admitted⟩

open AnalystMessages in
/-- Another objective is answered with the directive of the first one, the retry of a call is
refused once the directive has expired, and the retry of a message once the channel is disabled. -/
theorem keys_do_not_name_requests :
    ((run (directives fun _ => false).traceStep ⟨noDirectives, []⟩
        [.submitDirective 1 (submission "watch"), .submitDirective 2 (submission "conclude")]).log.map (·.answer) =
      [some 0, some 0]) ∧
    ((run (directives fun _ => false).traceStep ⟨noDirectives, []⟩
        [.submitDirective 1 (submission "watch"), .submitDirective 6 (submission "watch")]).log.map (·.answer) =
      [some 0, none]) ∧
    (run (messages sampleRules).traceStep ⟨engaged .engaging, []⟩
        [.createMessage hello, .surroundings (setChannelControl (engaged .engaging) none true),
          .createMessage hello]).log.map (·.answer) = [some 0, none] := by
  decide +kernel

end Mirage.AnalystRequests
