import Mirage.CanonicalInjective
import Mirage.MessageLifecycle

/-! What the intruder is shown is what the analyst previewed and confirmed: no step of a
message's life changes what its preview hash was taken of. -/

namespace Mirage.DisplayedMessages
open EventRun AnalystMessages MessageDelivery MessageLifecycle PythonText RowLocks

abbrev Subject := String × String × Text

def subject (m : Message) : Subject := (m.caseId, m.surface, m.content)

def actionSubject (a : SandboxAction) : Subject := (a.caseId, a.surface, a.content)

def identity (m : Message) : Subject × Text := (subject m, m.previewHash)

def Plain (caseId : String) : Prop := nul ∉ text caseId

/-- The hash of a message is that of its subject. -/
structure Bound (rules : Rules) (m : Message) : Prop where
  hash : previewHash rules m.caseId m.surface m.content = .ok m.previewHash
  surface : m.surface ∈ approvedSurfaces
  caseId : Plain m.caseId

/-- What is known of the identity of message `i`. -/
def Row {β : Type} (s : State) (i : ℕ) (f : Subject × Text → β) (known : β) : Prop :=
  ∃ m, s.messages[i]? = some m ∧ f (identity m) = known

def Keeps (s s' : State) : Prop := ∀ i m, s.messages[i]? = some m → Row s' i id (identity m)

theorem Row.mono {β : Type} {s s' : State} {i : ℕ} {f : Subject × Text → β} {known : β} (row : Row s i f known)
    (keeps : Keeps s s') : Row s' i f known := by
  obtain ⟨m, found, same⟩ := row
  obtain ⟨m', found', kept⟩ := keeps i m found
  exact ⟨m', found', (congrArg f kept).trans same⟩

/-- A delivery works on the row of its message. -/
structure Own (s : State) (x : Delivery) : Prop where
  held : ∀ row stage, x.phase = .holding row stage → Row s x.messageId id (identity row)
  action : ∀ a ∈ x.action, Row s x.messageId Prod.fst (actionSubject a)

/-- Deliveries, displays and confirmations know their message as its row has it,
and a row keeps what its hash was taken of. -/
structure Faithful (rules : Rules) (w : World) : Prop where
  bound : ∀ m ∈ w.state.messages, Bound rules m
  own : ∀ x ∈ w.deliveries, Own w.state x
  displayed : ∀ e ∈ w.displays, Row w.state e.messageId Prod.fst (actionSubject e.action)
  confirmed : ∀ c ∈ w.confirmations, Row w.state c.messageId Prod.snd c.previewHash

theorem own_free {s : State} {i : ℕ} {phase : Phase} (free : ∀ row stage, phase ≠ .holding row stage) :
    Own s ⟨i, phase, none⟩ :=
  ⟨fun row stage holding => absurd holding (free row stage), fun _ mem => (by cases mem)⟩

theorem Own.over {s : State} {x : Delivery} (own : Own s x) : Own s { x with phase := .over } :=
  ⟨fun _ _ holding => (by cases holding), own.action⟩

section
variable {rules : Rules} {w : World} {d : ℕ} {x : Delivery}

theorem Faithful.move (faithful : Faithful rules w) {s : State} (keeps : Keeps w.state s)
    (bound : ∀ m ∈ s.messages, Bound rules m) : Faithful rules { w with state := s } :=
  ⟨bound, fun x mem => ⟨fun row stage holding => ((faithful.own x mem).held row stage holding).mono keeps,
      fun a posted => ((faithful.own x mem).action a posted).mono keeps⟩,
    fun e mem => (faithful.displayed e mem).mono keeps, fun c mem => (faithful.confirmed c mem).mono keeps⟩

theorem Faithful.frame (faithful : Faithful rules w) {s : State} (same : s.messages = w.state.messages) :
    Faithful rules { w with state := s } :=
  faithful.move (fun _ m found => ⟨m, same ▸ found, rfl⟩) fun m mem => faithful.bound m (same ▸ mem)

theorem Faithful.write (faithful : Faithful rules w) {i : ℕ} {row : Message}
    (known : Row w.state i id (identity row)) : Faithful rules (w.write i row) := by
  obtain ⟨m, found, same⟩ := known
  refine faithful.move (fun j m' found' => ?_) fun m' mem => ?_
  · by_cases here : i = j
    · subst here
      rw [found] at found'
      cases found'
      exact ⟨row, List.getElem?_set_self (List.getElem?_eq_some_iff.mp found).1, same.symm⟩
    · exact ⟨m', by rw [List.getElem?_set_ne here, found'], rfl⟩
  · rcases List.mem_or_eq_of_mem_set mem with old | rfl
    · exact faithful.bound m' old
    · have bound := faithful.bound m (List.mem_of_getElem? found)
      simp only [id, identity, subject, Prod.mk.injEq] at same
      obtain ⟨⟨caseId, surface, content⟩, hash⟩ := same
      exact ⟨by rw [← caseId, ← surface, ← content, ← hash]; exact bound.hash, surface ▸ bound.surface,
        caseId ▸ bound.caseId⟩

theorem Faithful.put (faithful : Faithful rules w) (own : Own w.state x) : Faithful rules (w.put d x) := by
  refine ⟨faithful.bound, fun y mem => ?_, faithful.displayed, faithful.confirmed⟩
  rcases List.mem_or_eq_of_mem_set mem with old | rfl
  · exact faithful.own y old
  · exact own

theorem previewMessage_ok {caseId surface : String} {content : Text} {preview : MessagePreview}
    (previewed : previewMessage rules caseId surface content = .ok preview) :
    surface ∈ approvedSurfaces ∧ previewHash rules caseId surface preview.content = .ok preview.previewHash := by
  simp only [previewMessage, bind_eq_ok, require_eq_ok, pure, Except.pure, Except.ok.injEq, decide_eq_true_eq] at previewed
  obtain ⟨-, onSurface, -, -, -, -, -, -, -, -, hash, hashed, rfl⟩ := previewed
  exact ⟨onSurface, hashed⟩

theorem vet_preview {s : State} {r : Creation} {preview : MessagePreview} {decision : String}
    (vetted : vet rules s r = .ok (preview, decision)) : previewMessage rules r.caseId r.surface r.content = .ok preview := by
  simp only [vet, checkPreview, bind_eq_ok, pure, Except.pure, Except.ok.injEq, Prod.mk.injEq] at vetted
  obtain ⟨first, ⟨second, previewed, -, -, -, -, -, -, rfl⟩, -, -, -, -, -, -, -, -, -, -, -, -, rfl, -⟩ := vetted
  exact previewed

theorem Faithful.createMessage (faithful : Faithful rules w) {r : Creation} (plain : Plain r.caseId) :
    Faithful rules { w with state := (AnalystMessages.createMessage rules w.state r).1 } := by
  unfold AnalystMessages.createMessage
  split
  · exact faithful
  rename_i preview decision vetted
  split
  · exact faithful
  split
  · refine faithful.move (fun _ m found => ⟨m, concat_old found, rfl⟩) fun m mem => ?_
    · rcases List.mem_append.mp mem with old | new
      · exact faithful.bound m old
      · rw [List.mem_singleton.mp new]
        obtain ⟨surface, hash⟩ := previewMessage_ok (vet_preview vetted)
        exact ⟨hash, surface, plain⟩
  · exact faithful

theorem target_action {s : State} {row : Message} {a : SandboxAction} {decision : String}
    (found : target s row = some (a, decision)) : actionSubject a = subject row := by
  simp only [target, Option.bind_eq_bind, Option.bind_eq_some_iff, pure, Option.some.injEq, Prod.mk.injEq] at found
  obtain ⟨_, -, _, -, _, -, _, -, rfl, -⟩ := found
  rfl

theorem Faithful.lockRow (faithful : Faithful rules w) {messageId : ℕ} {row : Message} (disabled : Bool)
    (found : w.state.messages[messageId]? = some row) : Faithful rules (lockRow w d messageId disabled row) := by
  have own {row' : Message} {stage : Stage} {action : Option SandboxAction} (same : identity row' = identity row)
      (posted : ∀ a ∈ action, ∃ decision, target w.state row = some (a, decision)) :
      Own w.state ⟨messageId, .holding row' stage, action⟩ := by
    refine ⟨fun _ _ holding => ?_, fun a mem => ?_⟩
    · cases holding
      exact ⟨row, found, same.symm⟩
    · obtain ⟨decision, targeted⟩ := posted a mem
      exact ⟨row, found, (target_action targeted).symm⟩
  unfold MessageDelivery.lockRow
  split
  · split
    · exact faithful
    · exact faithful.put (own rfl fun _ mem => (by cases mem))
  split
  · exact faithful.put (own_free fun _ _ => (by simp))
  split
  · exact faithful
  split
  · exact faithful.put (own_free fun _ _ => (by simp))
  · rename_i a decision targeted
    split
    · refine faithful.put (own rfl fun a' mem => ?_)
      cases mem
      exact ⟨decision, targeted⟩
    · exact faithful.put (own rfl fun _ mem => (by cases mem))

theorem identity_answerRow {row row' : Message} {stage : Stage} {response : Response}
    (answered : answerRow row response = .holding row' stage) : identity row' = identity row := by
  cases response <;> (cases answered; rfl)

theorem identity_collectRow (row : Message) (actionId : Option String) (now : ℕ) (evidenceId : Option String) :
    identity (collectRow row actionId now evidenceId) = identity row := by
  cases evidenceId <;> rfl

theorem Faithful.stepDelivery (faithful : Faithful rules w) (found : w.deliveries[d]? = some x) (a : Action) :
    Faithful rules (stepDelivery w d x a) := by
  have own := faithful.own x (List.mem_of_getElem? found)
  unfold MessageDelivery.stepDelivery
  split
  · split
    · rename_i disabled row _ present
      exact faithful.lockRow disabled present
    · exact faithful
  · unfold displayRow
    split
    · rename_i action row posted present
      split
      · exact faithful
      · refine ⟨faithful.bound, faithful.own, fun e mem => ?_, faithful.confirmed⟩
        rcases List.mem_append.mp mem with old | new
        · exact faithful.displayed e old
        · rw [List.mem_singleton.mp new]
          exact own.action action posted
    · exact faithful
  · split
    · rename_i response row holding
      refine faithful.put ⟨fun row' stage answered => ?_, own.action⟩
      rw [identity_answerRow answered]
      exact own.held row .waiting holding
    · exact faithful
  · split
    · rename_i evidenceId now row actionId holding
      refine faithful.put ⟨fun row' stage collected => ?_, own.action⟩
      cases collected
      rw [identity_collectRow]
      exact own.held row _ holding
    · exact faithful
  · split
    · rename_i row holding
      dsimp only
      split
      · exact (faithful.put own.over).write (own.held row .written holding)
      · exact faithful.put own.over
    · exact faithful
  · exact faithful.put own.over
  · exact faithful

theorem Faithful.update (faithful : Faithful rules w) {messageId : ℕ} {asks : Message → Bool} {f : Message → Message}
    (same : ∀ row, identity (f row) = identity row) {after : World} (updated : update w messageId asks f = some after) :
    Faithful rules after ∧ after.confirmations = w.confirmations ∧
      ∃ row, asks row = true ∧ Row after.state messageId id (identity row) := by
  obtain ⟨row, found, asked, -, rfl⟩ := update_eq_some updated
  have bound := (List.getElem?_eq_some_iff.mp found).1
  exact ⟨faithful.write ⟨row, found, (same row).symm⟩, rfl, row, asked, f row, List.getElem?_set_self bound, same row⟩

/-- The cases of the messages that are created have names without NUL, as PostgreSQL's texts are. -/
def PlainCase : Action → Prop
  | .createMessage r => Plain r.caseId
  | _ => True

theorem Faithful.step (faithful : Faithful rules w) {a : Action} (plain : PlainCase a) :
    Faithful rules (step rules w a) := by
  -- Only `createMessage` adds a row; every other write keeps the identity of its row.
  cases a with
  | createMessage r => exact faithful.createMessage plain
  | confirmMessage now caseId authorId hash messageId disabled =>
    simp only [MessageDelivery.step]
    split
    · exact faithful
    split
    · rename_i after updated
      obtain ⟨kept, same, row, asked, present⟩ := faithful.update (f := AnalystMessages.confirmed now) (fun _ => rfl) updated
      refine ⟨kept.bound, kept.own, kept.displayed, fun c mem => ?_⟩
      rcases List.mem_append.mp mem with old | new
      · exact kept.confirmed c (same ▸ old)
      · rw [List.mem_singleton.mp new]
        obtain ⟨m, found, known⟩ := present
        exact ⟨m, found, (congrArg Prod.snd known).trans (confirmable_spec asked).2.1⟩
    · exact faithful
  | cancelMessage caseId authorId messageId =>
    simp only [MessageDelivery.step]
    cases updated : MessageDelivery.update w messageId (cancellable caseId authorId) cancelled with
    | none => exact faithful
    | some after => exact (faithful.update (f := cancelled) (fun _ => rfl) updated).1
  | setChannelControl caseId disabled => exact faithful.frame (setChannelControl_messages w.state caseId disabled)
  | surroundings s => exact faithful.frame rfl
  | deliver messageId =>
    simp only [MessageDelivery.step]
    split
    · refine ⟨faithful.bound, fun x mem => ?_, faithful.displayed, faithful.confirmed⟩
      rcases List.mem_append.mp mem with old | new
      · exact faithful.own x old
      · rw [List.mem_singleton.mp new]
        exact own_free fun _ _ => (by simp)
    · exact faithful
  | lock d | display d | answer d response | collect d evidenceId now | finish d commit | crash d =>
    simp only [MessageDelivery.step, Action.delivery?]
    cases found : w.deliveries[d]? with
    | none => exact faithful
    | some x =>
      rw [Option.elim_some]
      exact faithful.stepDelivery found _

end

theorem run_faithful {rules : Rules} {s : State} (empty : s.messages = []) {actions : List Action}
    (plain : ∀ a ∈ actions, PlainCase a) : Faithful rules (run (step rules) ⟨s, [], [], []⟩ actions) := by
  have start : Faithful rules ⟨s, [], [], []⟩ := by
    refine ⟨fun m mem => ?_, fun _ mem => (by cases mem), fun _ mem => (by cases mem),
      fun _ mem => (by cases mem)⟩
    rw [empty] at mem
    cases mem
  have along : Along (step rules) (fun _ a => PlainCase a) ⟨s, [], [], []⟩ actions :=
    along_of_forall fun _ a mem => plain a mem
  exact throughout_last (throughout_of_along (I := Faithful rules) (P := Faithful rules)
    (fun _ _ faithful plain => faithful.step plain) (fun _ faithful => faithful) start along)

theorem plain_surface : ∀ surface ∈ approvedSurfaces, nul ∉ text surface := by
  decide

theorem split_nul {a a' b b' : Text} (plain : nul ∉ a) (plain' : nul ∉ a') (same : a ++ nul :: b = a' ++ nul :: b') :
    a = a' ∧ b = b' := by
  induction a generalizing a' with
  | nil =>
    cases a' with
    | nil => exact ⟨rfl, (List.cons.inj same).2⟩
    | cons p rest => exact absurd (List.mem_cons.mpr (.inl (List.cons.inj same).1)) plain'
  | cons p rest ih =>
    cases a' with
    | nil => exact absurd (List.mem_cons.mpr (.inl (List.cons.inj same).1.symm)) plain
    | cons p' rest' =>
      obtain ⟨rfl, later⟩ := List.cons.inj same
      obtain ⟨rfl, whole⟩ := ih (fun mem => plain (List.mem_cons_of_mem _ mem))
        (fun mem => plain' (List.mem_cons_of_mem _ mem)) later
      exact ⟨rfl, whole⟩

theorem scalar_of_encoded {t : Text} {bytes : ByteArray} (encoded : encodeUtf8 t = some bytes) : scalar t = true := by
  cases proper : scalar t with
  | true => rfl
  | false =>
    rw [(encodeUtf8_eq_none_iff t).mpr proper] at encoded
    cases encoded

theorem previewHash_binds {rules : Rules} (injective : Function.Injective rules.sha256Hex) {caseId caseId' surface surface' : String}
    {content content' hash : Text} (plain : Plain caseId ∧ nul ∉ text surface) (plain' : Plain caseId' ∧ nul ∉ text surface')
    (taken : previewHash rules caseId surface content = .ok hash)
    (taken' : previewHash rules caseId' surface' content' = .ok hash) :
    caseId = caseId' ∧ surface = surface' ∧ content = content' := by
  simp only [previewHash, bind_eq_ok, present_eq_ok, pure, Except.pure, Except.ok.injEq] at taken taken'
  obtain ⟨bytes, encoded, rfl⟩ := taken
  obtain ⟨bytes', encoded', same⟩ := taken'
  rw [injective same] at encoded'
  have whole := CanonicalInjective.encodeUtf8_injective (scalar_of_encoded encoded) (scalar_of_encoded encoded')
    (encoded.trans encoded'.symm)
  rw [List.append_assoc, List.append_assoc] at whole
  -- The first NUL ends the case id, the next one the surface; the content may hold more.
  obtain ⟨cases_, rest⟩ := split_nul plain.1 plain'.1 whole
  obtain ⟨surfaces, contents⟩ := split_nul plain.2 plain'.2 rest
  exact ⟨text_injective cases_, text_injective surfaces, contents⟩

/-- Whatever messages, confirmations, deliveries, failures and crashes do: what is displayed of a message that was
confirmed is what every preview with the confirmed hash was of. -/
theorem displayed_as_confirmed {rules : Rules} (injective : Function.Injective rules.sha256Hex) {s : State}
    (empty : s.messages = []) {actions : List Action} (plain : ∀ a ∈ actions, PlainCase a)
    {c : Confirmation} (confirmed : c ∈ (run (step rules) ⟨s, [], [], []⟩ actions).confirmations)
    {e : Display} (displayed : e ∈ (run (step rules) ⟨s, [], [], []⟩ actions).displays) (same : e.messageId = c.messageId)
    {caseId surface : String} {content : Text} {preview : MessagePreview} (plainCase : Plain caseId)
    (previewed : previewMessage rules caseId surface content = .ok preview) (agreed : preview.previewHash = c.previewHash) :
    actionSubject e.action = (caseId, surface, preview.content) := by
  have faithful := @run_faithful rules s empty actions plain
  obtain ⟨m, found, shown⟩ := faithful.displayed e displayed
  obtain ⟨m', found', known⟩ := faithful.confirmed c confirmed
  rw [same, found'] at found
  cases found
  have bound := faithful.bound m (List.mem_of_getElem? found')
  obtain ⟨onSurface, hashed⟩ := previewMessage_ok previewed
  have taken : previewHash rules m.caseId m.surface m.content = .ok preview.previewHash := by
    rw [bound.hash, agreed, ← known]
    rfl
  obtain ⟨sameCase, sameSurface, sameContent⟩ := previewHash_binds injective
    ⟨bound.caseId, plain_surface _ bound.surface⟩ ⟨plainCase, plain_surface _ onSurface⟩ taken hashed
  rw [← shown, ← sameCase, ← sameSurface, ← sameContent]
  rfl

/-! A sensitive message that is previewed, created, confirmed and displayed. -/

def sampleRules : Rules := ⟨fun _ => false, fun _ => true, CanonicalInjective.sampleDigest⟩

def sampleHash : Text := ((previewHash sampleRules sampleCase "DECOY_WEB_CHAT" (text "hello")).toOption).getD []

def confirmedRun : List Action :=
  [.createMessage { hello with suppliedPreviewHash := sampleHash }, .confirmMessage 1 sampleCase "analyst" sampleHash 0 false,
    .deliver 0, .lock 0, .display 0]

theorem hello_displayed : ∃ e ∈ (run (step sampleRules) ⟨engaged .engaging, [], [], []⟩ confirmedRun).displays,
    actionSubject e.action = (sampleCase, "DECOY_WEB_CHAT", text "hello") := by
  have shown : (run (step sampleRules) ⟨engaged .engaging, [], [], []⟩ confirmedRun).displays.map (·.messageId) = [0] := by
    decide +kernel
  have agreed : (run (step sampleRules) ⟨engaged .engaging, [], [], []⟩ confirmedRun).confirmations.map
      (fun c => (c.messageId, c.previewHash)) = [(0, sampleHash)] := by
    decide +kernel
  have previewed : previewMessage sampleRules sampleCase "DECOY_WEB_CHAT" (text " hello") =
      .ok ⟨text "hello", sampleHash, true⟩ := by
    rfl
  obtain ⟨e, displays, here⟩ := List.map_eq_singleton_iff.mp shown
  obtain ⟨c, confirmations, known⟩ := List.map_eq_singleton_iff.mp agreed
  have plain : ∀ a ∈ confirmedRun, PlainCase a := by
    simp [confirmedRun, PlainCase, Plain, hello]
    decide
  refine ⟨e, by rw [displays]; exact List.mem_singleton_self e, ?_⟩
  exact (displayed_as_confirmed CanonicalInjective.sampleDigest_injective rfl plain (c := c)
    (by rw [confirmations]; exact List.mem_singleton_self c) (by rw [displays]; exact List.mem_singleton_self e)
    (here.trans (Prod.mk.inj known).1.symm) (show nul ∉ text sampleCase by decide) previewed (Prod.mk.inj known).2.symm)

end Mirage.DisplayedMessages
