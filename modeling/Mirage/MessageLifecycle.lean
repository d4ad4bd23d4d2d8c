import Mirage.MessageDelivery

/-! What is displayed of a message, and which statuses stand. The row of a message that is
displayed is locked until its delivery is committed, so what matters is how a delivery
ends that has displayed its message. -/

namespace Mirage.MessageLifecycle
open EventRun AnalystMessages MessageDelivery PythonText

def final : MessageStatus → Bool
  | .delivered | .cancelled | .failed => true
  | _ => false

/-- A message is displayed while it is approved and the channel is enabled, behind the
confirmation of its author where one is required, and at most once; and what was displayed is
not recorded as FAILED, BLOCKED or CANCELLED. -/
structure Sound (w : World) : Prop where
  allowed : ∀ e ∈ w.displays, e.row.status = .approved ∧ e.disabled = false
  content : ∀ e ∈ w.displays, e.action.content = e.row.content ∧ e.action.surface = e.row.surface
  confirmed : ∀ e ∈ w.displays, e.row.confirmationRequired →
    ⟨e.messageId, e.row.authorId, e.row.previewHash⟩ ∈ w.confirmations
  once : w.displays.Pairwise (·.messageId ≠ ·.messageId)
  recorded : ∀ e ∈ w.displays, ∀ row ∈ w.state.messages[e.messageId]?,
    row.status ∉ [MessageStatus.failed, .blocked, .cancelled]

def rowOf (x : Delivery) : Option Message :=
  match x.phase with
  | .holding row _ => some row
  | _ => none

def live (x : Delivery) : Bool := (rowOf x).any fun row => row.status = .sent || row.status = .delivered

def isWaiting (x : Delivery) : Bool :=
  match x.phase with
  | .holding _ .waiting => true
  | _ => false

def isAnswered (x : Delivery) : Bool :=
  match x.phase with
  | .holding _ (.answered _) => true
  | _ => false

def writtenRow (x : Delivery) : Option Message :=
  match x.phase with
  | .holding row .written => some row
  | _ => none

def Response.succeeds : Response → Bool
  | .success _ => true
  | _ => false

/-- A display comes while its delivery is under way and the channel is enabled. -/
@[reducible] def Admits (w : World) : Action → Prop
  | .display delivery => ∀ x ∈ w.deliveries[delivery]?, x.action.isSome → displayedBy w delivery = false →
      live x ∧ ∀ row ∈ w.state.messages[x.messageId]?, channelDisabled w.state row.caseId = false
  | .answer delivery response => ∀ x ∈ w.deliveries[delivery]?, isWaiting x → displayedBy w delivery →
      Response.succeeds response
  | .collect delivery evidenceId _ => ∀ x ∈ w.deliveries[delivery]?, isAnswered x → displayedBy w delivery →
      evidenceId.isSome
  | .finish delivery true => ∀ x ∈ w.deliveries[delivery]?, ∀ row ∈ writtenRow x, row.status = .blocked →
      ∀ before ∈ w.state.messages[x.messageId]?, final before.status = false
  | .finish delivery false => ∀ x ∈ w.deliveries[delivery]?, (writtenRow x).isSome → displayedBy w delivery = false
  | .crash delivery => ∀ x ∈ w.deliveries[delivery]?, x.holds → displayedBy w delivery = false
  | _ => True

instance (w : World) : (a : Action) → Decidable (Admits w a)
  | .display _ | .answer _ _ | .collect _ _ _ | .finish _ true | .finish _ false | .crash _
  | .createMessage _ | .confirmMessage _ _ _ _ _ _ | .cancelMessage _ _ _ | .setChannelControl _ _
  | .surroundings _ | .deliver _ | .lock _ => inferInstance

/-! What holds of the deliveries under way. -/

def fitting : Stage → MessageStatus → Bool
  | .written, .failed | .written, .delivered | .written, .blocked => true
  | .waiting, .sent | .answered _, .sent => true
  | _, _ => false

def Held (x : Delivery) (m : Message) : Prop :=
  ∀ row stage, x.phase = .holding row stage → fitting stage row.status ∧
    (row.status ≠ .blocked → m.status = .approved ∧
      ∀ action ∈ x.action, action.content = m.content ∧ action.surface = m.surface)

theorem held_of_not_holds {x : Delivery} (free : x.holds = false) (m : Message) : Held x m := by
  intro row stage holding
  rw [Delivery.holds, holding] at free
  cases free

theorem approved_of_live {x : Delivery} {m : Message} (held : Held x m) (alive : live x) : m.status = .approved := by
  unfold live rowOf at alive
  split at alive
  · rename_i row stage holding
    refine ((held row stage holding).2 fun blocked => ?_).1
    simp [blocked] at alive
  · cases alive

theorem holds_of_live {x : Delivery} (alive : live x) : x.holds := by
  cases phase : x.phase with
  | holding row stage => simp [Delivery.holds, phase]
  | _ => simp [live, rowOf, phase] at alive

structure Inv (w : World) : Prop where
  held : ∀ (d : ℕ) (x : Delivery), w.deliveries[d]? = some x → ∃ m : Message, w.state.messages[x.messageId]? = some m ∧ Held x m
  apart : ∀ (d d' : ℕ) (x x' : Delivery), w.deliveries[d]? = some x → w.deliveries[d']? = some x' → x.holds → x'.holds →
    x.messageId = x'.messageId → d = d'
  displayed : ∀ e ∈ w.displays, (∃ x : Delivery, w.deliveries[e.delivery]? = some x ∧ x.messageId = e.messageId ∧ live x) ∨
    ∃ m : Message, w.state.messages[e.messageId]? = some m ∧ m.status = .delivered
  authored : ∀ (i : ℕ) (m : Message), w.state.messages[i]? = some m → m.status = .approved → m.confirmationRequired →
    ⟨i, m.authorId, m.previewHash⟩ ∈ w.confirmations
  allowed : ∀ e ∈ w.displays, e.row.status = .approved ∧ e.disabled = false
  content : ∀ e ∈ w.displays, e.action.content = e.row.content ∧ e.action.surface = e.row.surface
  confirmed : ∀ e ∈ w.displays, e.row.confirmationRequired →
    ⟨e.messageId, e.row.authorId, e.row.previewHash⟩ ∈ w.confirmations
  once : w.displays.Pairwise (·.messageId ≠ ·.messageId)

theorem sound_of_inv {w : World} (inv : Inv w) : Sound w := by
  refine ⟨inv.allowed, inv.content, inv.confirmed, inv.once, fun e mem row found => ?_⟩
  rw [Option.mem_def] at found
  rcases inv.displayed e mem with ⟨x, here, same, alive⟩ | ⟨m, here, delivered⟩
  · obtain ⟨m, row', held⟩ := inv.held e.delivery x here
    rw [same, found] at row'
    cases row'
    simp [approved_of_live held alive]
  · rw [found] at here
    cases here
    simp [delivered]

section
variable {w : World} {d : ℕ} {x x' : Delivery}

theorem free_of_not_locked {messageId : ℕ} (free : locked w messageId = false)
    (found : w.deliveries[d]? = some x) (own : x.messageId = messageId) : x.holds = false := by
  by_contra holds
  rw [locked, ← Bool.not_eq_true, List.any_eq_true] at free
  exact free ⟨x, List.mem_of_getElem? found, by simp [own, Bool.of_not_eq_false holds]⟩

theorem put_get {d' : ℕ} {y : Delivery} (found : (w.put d x').deliveries[d']? = some y) :
    (d' = d ∧ y = x') ∨ (d' ≠ d ∧ w.deliveries[d']? = some y) := set_cases found

theorem put_self (found : w.deliveries[d]? = some x) : (w.put d x').deliveries[d]? = some x' := by
  have bound := (List.getElem?_eq_some_iff.mp found).1
  simp [World.put, bound]

theorem put_other {d' : ℕ} (other : d' ≠ d) : (w.put d x').deliveries[d']? = w.deliveries[d']? := by
  simp [World.put, List.getElem?_set_ne (Ne.symm other)]

/-- A delivery goes on: it fits its row, it holds the row only if nobody else does, and it stays live if it
has displayed its message. -/
theorem inv_put (inv : Inv w) (found : w.deliveries[d]? = some x) (same : x'.messageId = x.messageId)
    (fits : ∀ m, w.state.messages[x.messageId]? = some m → Held x m → Held x' m)
    (free : x'.holds → x.holds ∨ locked w x.messageId = false)
    (stays : displayedBy w d → live x → live x') : Inv (w.put d x') := by
  refine { inv with held := fun d' y foundY => ?_, apart := ?_, displayed := fun e mem => ?_ }
  · rcases put_get foundY with ⟨rfl, rfl⟩ | ⟨-, before⟩
    · obtain ⟨m, row, held⟩ := inv.held d' x found
      exact ⟨m, by rw [same]; exact row, fits m row held⟩
    · exact inv.held d' y before
  · have other (d' : ℕ) (y : Delivery) (before : w.deliveries[d']? = some y) (holds : x'.holds) (holdsY : y.holds)
        (one : x'.messageId = y.messageId) : d = d' := by
      rcases free holds with holdsX | unlocked
      · exact inv.apart d d' x y found before holdsX holdsY (same.symm.trans one)
      · rw [free_of_not_locked unlocked before (one.symm.trans same)] at holdsY
        cases holdsY
    intro d₁ d₂ x₁ x₂ found₁ found₂ holds₁ holds₂ one
    rcases put_get found₁ with ⟨rfl, rfl⟩ | ⟨-, before₁⟩ <;> rcases put_get found₂ with ⟨rfl, rfl⟩ | ⟨-, before₂⟩
    · rfl
    · exact other d₂ x₂ before₂ holds₁ holds₂ one
    · exact (other d₁ x₁ before₁ holds₂ holds₁ one.symm).symm
    · exact inv.apart d₁ d₂ x₁ x₂ before₁ before₂ holds₁ holds₂ one
  · rcases inv.displayed e mem with ⟨y, foundY, own, alive⟩ | delivered
    · left
      by_cases here : e.delivery = d
      · rw [here] at foundY ⊢
        cases found.symm.trans foundY
        have shown : displayedBy w d := by
          rw [displayedBy, List.any_eq_true]
          exact ⟨e, mem, by simp [here]⟩
        exact ⟨x', put_self found, same.trans own, stays shown alive⟩
      · exact ⟨y, (put_other here).trans foundY, own, alive⟩
    · exact .inr delivered

theorem inv_write {deliveries : List Delivery} {confirmations : List Confirmation} {i : ℕ} {row row' : Message}
    (inv : Inv w) (found : w.state.messages[i]? = some row)
    (old : ∀ (d : ℕ) (x : Delivery), deliveries[d]? = some x → w.deliveries[d]? = some x ∨
      x.holds = false ∧ x.messageId < w.state.messages.length)
    (free : ∀ (d : ℕ) (x : Delivery), deliveries[d]? = some x → x.messageId = i → x.holds = false)
    (others : ∀ (d : ℕ) (x : Delivery), w.deliveries[d]? = some x → x.messageId ≠ i → deliveries[d]? = some x)
    (delivered : (∃ e ∈ w.displays, e.messageId = i) → row'.status = .delivered)
    (grown : ∀ c ∈ w.confirmations, c ∈ confirmations)
    (authored : row'.status = .approved → row'.confirmationRequired →
      ⟨i, row'.authorId, row'.previewHash⟩ ∈ confirmations) :
    Inv { w.write i row' with deliveries := deliveries, confirmations := confirmations } := by
  have bound := (List.getElem?_eq_some_iff.mp found).1
  have self : (w.state.messages.set i row')[i]? = some row' := by simp [bound]
  have apartRow {j : ℕ} (other : j ≠ i) : (w.state.messages.set i row')[j]? = w.state.messages[j]? :=
    List.getElem?_set_ne (Ne.symm other)
  refine ⟨fun d x foundX => ?_, ?_, fun e mem => ?_, fun j m foundM approved required => ?_,
    inv.allowed, inv.content, fun e mem required => grown _ (inv.confirmed e mem required), inv.once⟩
  · by_cases own : x.messageId = i
    · exact ⟨row', by rw [own]; exact self, held_of_not_holds (free d x foundX own) row'⟩
    · rcases old d x foundX with before | ⟨notHolding, here⟩
      · obtain ⟨m, foundM, held⟩ := inv.held d x before
        exact ⟨m, (apartRow own).trans foundM, held⟩
      · exact ⟨_, (apartRow own).trans (List.getElem?_eq_getElem here), held_of_not_holds notHolding _⟩
  · intro d₁ d₂ x₁ x₂ found₁ found₂ holds₁ holds₂ one
    rcases old d₁ x₁ found₁ with before₁ | ⟨no₁, -⟩
    · rcases old d₂ x₂ found₂ with before₂ | ⟨no₂, -⟩
      · exact inv.apart d₁ d₂ x₁ x₂ before₁ before₂ holds₁ holds₂ one
      · rw [no₂] at holds₂
        cases holds₂
    · rw [no₁] at holds₁
      cases holds₁
  · by_cases own : e.messageId = i
    · exact .inr ⟨row', by rw [own]; exact self, delivered ⟨e, mem, own⟩⟩
    · rcases inv.displayed e mem with ⟨x, foundX, same, alive⟩ | ⟨m, foundM, isDelivered⟩
      · exact .inl ⟨x, others e.delivery x foundX (by rw [same]; exact own), same, alive⟩
      · exact .inr ⟨m, (apartRow own).trans foundM, isDelivered⟩
  · by_cases own : j = i
    · subst own
      cases self.symm.trans foundM
      exact authored approved required
    · exact grown _ (inv.authored j m ((apartRow own).symm.trans foundM) approved required)

theorem inv_display (inv : Inv w) (found : w.deliveries[d]? = some x) (admits : Admits w (.display d)) :
    Inv (displayRow w d x) := by
  unfold displayRow
  split
  · rename_i action row posted here
    split
    · exact inv
    · rename_i fresh
      have fresh := Bool.of_not_eq_true fresh
      obtain ⟨alive, enabled⟩ := admits x found (by rw [posted]; rfl) fresh
      obtain ⟨m, foundM, held⟩ := inv.held d x found
      cases here.symm.trans foundM
      have approved := approved_of_live held alive
      have same : action.content = row.content ∧ action.surface = row.surface := by
        unfold live rowOf at alive
        split at alive
        · rename_i written stage holding
          refine ((held written stage holding).2 fun blocked => ?_).2 action posted
          simp [blocked] at alive
        · cases alive
      have only : ∀ e ∈ w.displays, e.messageId ≠ x.messageId := by
        intro e mem one
        rcases inv.displayed e mem with ⟨y, foundY, own, aliveY⟩ | ⟨m, foundM, delivered⟩
        · have one : e.delivery = d := inv.apart e.delivery d y x foundY found (holds_of_live aliveY)
            (holds_of_live alive) (own.trans one)
          have shown : displayedBy w d := List.any_eq_true.mpr ⟨e, mem, by simp [one]⟩
          rw [fresh] at shown
          cases shown
        · rw [one, here] at foundM
          cases foundM
          rw [approved] at delivered
          cases delivered
      refine { inv with
        displayed := fun e mem => ?_, allowed := fun e mem => ?_, content := fun e mem => ?_,
        confirmed := fun e mem => ?_, once := ?_ }
      · rcases List.mem_append.mp mem with before | new
        · exact inv.displayed e before
        · cases List.mem_singleton.mp new
          exact .inl ⟨x, found, rfl, alive⟩
      · rcases List.mem_append.mp mem with before | new
        · exact inv.allowed e before
        · cases List.mem_singleton.mp new
          exact ⟨approved, enabled row here⟩
      · rcases List.mem_append.mp mem with before | new
        · exact inv.content e before
        · cases List.mem_singleton.mp new
          exact same
      · rcases List.mem_append.mp mem with before | new
        · exact inv.confirmed e before
        · cases List.mem_singleton.mp new
          exact inv.authored x.messageId row here approved
      · refine List.pairwise_append.mpr ⟨inv.once, List.pairwise_singleton _ _, fun e mem new isNew => ?_⟩
        cases List.mem_singleton.mp isNew
        exact only e mem
  · exact inv

theorem target_posts {s : State} {row : Message} {action : SandboxAction} {decision : String}
    (found : target s row = some (action, decision)) : action.content = row.content ∧ action.surface = row.surface := by
  simp only [target, bind, Option.bind_eq_some_iff, pure, Option.some.injEq, Prod.mk.injEq] at found
  obtain ⟨_, -, _, -, _, -, _, -, rfl, -⟩ := found
  exact ⟨rfl, rfl⟩

theorem not_live_of_not_holds (free : x.holds = false) : ¬ live x := fun alive => by
  rw [holds_of_live alive] at free
  cases free

theorem inv_lockRow (inv : Inv w) (found : w.deliveries[d]? = some x) (free : x.holds = false) {row : Message}
    (here : w.state.messages[x.messageId]? = some row) (disabled : Bool) :
    Inv (lockRow w d x.messageId disabled row) := by
  have quits : Inv (w.put d ⟨x.messageId, .over, none⟩) :=
    inv_put inv found rfl (fun m _ _ => held_of_not_holds rfl m) (fun holds => (by cases holds))
      (fun _ alive => absurd alive (not_live_of_not_holds free))
  have blocks (unlocked : locked w x.messageId = false) :
      Inv (w.put d ⟨x.messageId, .holding { row with status := .blocked } .written, none⟩) := by
    refine inv_put inv found rfl (fun m _ _ => ?_) (fun _ => .inr unlocked)
      (fun _ alive => absurd alive (not_live_of_not_holds free))
    intro row' stage holding
    cases holding
    exact ⟨rfl, fun other => absurd rfl other⟩
  unfold lockRow
  split
  · split
    · exact inv
    · rename_i unlocked
      exact blocks (Bool.of_not_eq_true unlocked)
  · split
    · exact quits
    · rename_i approved
      split
      · exact inv
      · rename_i unlocked
        split
        · exact quits
        · rename_i action decision posted
          split
          · refine inv_put inv found rfl (fun m foundM _ => ?_) (fun _ => .inr (Bool.of_not_eq_true unlocked))
              (fun _ alive => absurd alive (not_live_of_not_holds free))
            cases here.symm.trans foundM
            intro row' stage holding
            cases holding
            refine ⟨rfl, fun _ => ⟨not_not.mp approved, fun a isAction => ?_⟩⟩
            cases isAction
            exact target_posts posted
          · exact blocks (Bool.of_not_eq_true unlocked)

theorem inv_rewrite (inv : Inv w) (found : w.deliveries[d]? = some x) {row row' : Message} {stage stage' : Stage}
    (holding : x.phase = .holding row stage) (open_ : row.status ≠ .blocked) (fits : fitting stage' row'.status)
    (stays : displayedBy w d → row'.status = .sent ∨ row'.status = .delivered) :
    Inv (w.put d { x with phase := .holding row' stage' }) := by
  refine inv_put inv found rfl (fun m _ held => ?_) (fun _ => .inl (by rw [Delivery.holds, holding]))
    (fun shown _ => by simpa [live, rowOf] using stays shown)
  intro row'' stage'' same
  cases same
  exact ⟨fits, fun _ => (held row stage holding).2 open_⟩

theorem fitting_of_holding {row : Message} (inv : Inv w) (found : w.deliveries[d]? = some x)
    {stage : Stage} (holding : x.phase = .holding row stage) : fitting stage row.status := by
  obtain ⟨m, -, held⟩ := inv.held d x found
  exact (held row stage holding).1

theorem inv_answer (inv : Inv w) (found : w.deliveries[d]? = some x) (response : Response)
    (admits : Admits w (.answer d response)) : Inv (stepDelivery w d x (.answer d response)) := by
  simp only [stepDelivery]
  split
  · rename_i row holding
    have waiting : isWaiting x := by rw [isWaiting, holding]
    have fits := fitting_of_holding inv found holding
    have sent : row.status = .sent := by
      cases status : row.status <;> rw [status] at fits <;> first | rfl | cases fits
    have succeeds := admits x found waiting
    cases response with
    | success actionId =>
      exact inv_rewrite inv found holding (by rw [sent]; decide) (by rw [sent]; rfl) fun _ => .inl sent
    | refusal actionId =>
      exact inv_rewrite inv found holding (by rw [sent]; decide) rfl fun shown => (by cases succeeds shown)
    | raised =>
      exact inv_rewrite inv found holding (by rw [sent]; decide) rfl fun shown => (by cases succeeds shown)
  · exact inv

theorem inv_collect (inv : Inv w) (found : w.deliveries[d]? = some x) (evidenceId : Option String) (now : ℕ)
    (admits : Admits w (.collect d evidenceId now)) : Inv (stepDelivery w d x (.collect d evidenceId now)) := by
  simp only [stepDelivery]
  split
  · rename_i row actionId holding
    have answered : isAnswered x := by rw [isAnswered, holding]
    have fits := fitting_of_holding inv found holding
    have sent : row.status = .sent := by
      cases status : row.status <;> rw [status] at fits <;> first | rfl | cases fits
    have acquired := admits x found answered
    cases evidenceId with
    | some evidenceId =>
      exact inv_rewrite inv found holding (by rw [sent]; decide) rfl fun _ => .inr rfl
    | none =>
      exact inv_rewrite inv found holding (by rw [sent]; decide) rfl fun shown => absurd (acquired shown) (by decide)
  · exact inv

theorem inv_roll_back (inv : Inv w) (found : w.deliveries[d]? = some x)
    (hidden : x.holds → displayedBy w d = false) : Inv (w.put d { x with phase := .over }) := by
  refine inv_put inv found rfl (fun m _ _ => held_of_not_holds rfl m) (fun holds => (by cases holds))
    (fun shown alive => ?_)
  rw [hidden (holds_of_live alive)] at shown
  cases shown

theorem inv_commit (inv : Inv w) (found : w.deliveries[d]? = some x) {row : Message}
    (holding : x.phase = .holding row .written)
    (admits : Admits w (.finish d true)) : Inv ((w.put d { x with phase := .over }).write x.messageId row) := by
  obtain ⟨m, foundM, held⟩ := inv.held d x found
  obtain ⟨fits, approved⟩ := held row .written holding
  have holds : x.holds := by rw [Delivery.holds, holding]
  show Inv { w.write x.messageId row with
    deliveries := (w.put d { x with phase := .over }).deliveries, confirmations := w.confirmations }
  refine inv_write inv foundM (fun d' y foundY => ?_)
    (fun d' y foundY own => ?_) (fun d' y foundY other => ?_) (fun ⟨e, mem, own⟩ => ?_) (fun _ mem => mem)
    (fun isApproved _ => ?_)
  · rcases put_get foundY with ⟨rfl, rfl⟩ | ⟨-, before⟩
    · exact .inr ⟨rfl, (List.getElem?_eq_some_iff.mp foundM).1⟩
    · exact .inl before
  · rcases put_get foundY with ⟨rfl, rfl⟩ | ⟨other, before⟩
    · rfl
    · by_contra holdsY
      exact other (inv.apart d' d y x before found (Bool.of_not_eq_false holdsY) holds own)
  · rw [put_other]
    · exact foundY
    · rintro rfl
      cases found.symm.trans foundY
      exact other rfl
  · -- what was displayed is delivered by this transaction, or stands as DELIVERED
    rcases inv.displayed e mem with ⟨y, foundY, same, alive⟩ | ⟨m', foundM', delivered⟩
    · cases inv.apart e.delivery d y x foundY found (holds_of_live alive) holds (same.trans own)
      cases found.symm.trans foundY
      simp only [live, rowOf, holding, Option.any_some, Bool.or_eq_true, decide_eq_true_eq] at alive
      rcases alive with sent | delivered
      · rw [sent] at fits
        cases fits
      · exact delivered
    · rw [own, foundM] at foundM'
      cases foundM'
      by_cases blocked : row.status = .blocked
      · have open_ := admits x found row (by rw [writtenRow, holding]; rfl) blocked m foundM
        rw [delivered] at open_
        cases open_
      · rw [(approved blocked).1] at delivered
        cases delivered
  · rw [isApproved] at fits
    cases fits

theorem update_eq_some {messageId : ℕ} {asks : Message → Bool} {f : Message → Message} {after : World}
    (h : update w messageId asks f = some after) :
    ∃ row, w.state.messages[messageId]? = some row ∧ asks row ∧ locked w messageId = false ∧
      after = w.write messageId (f row) := by
  unfold update at h
  split at h
  · rename_i row found
    split at h
    · rename_i both
      rw [Bool.and_eq_true, Bool.not_eq_true'] at both
      cases h
      exact ⟨row, found, both.1, both.2, rfl⟩
    · cases h
  · cases h

theorem not_displayed_of_unlocked (inv : Inv w) {i : ℕ} {row : Message} (found : w.state.messages[i]? = some row)
    (unlocked : locked w i = false) (undelivered : row.status ≠ .delivered) : ¬ ∃ e ∈ w.displays, e.messageId = i := by
  rintro ⟨e, mem, own⟩
  rcases inv.displayed e mem with ⟨y, foundY, same, alive⟩ | ⟨m, foundM, delivered⟩
  · exact not_live_of_not_holds (free_of_not_locked unlocked foundY (same.trans own)) alive
  · rw [own, found] at foundM
    cases foundM
    exact undelivered delivered

theorem inv_update (inv : Inv w) {i : ℕ} {row row' : Message} {confirmations : List Confirmation}
    (found : w.state.messages[i]? = some row)
    (unlocked : locked w i = false) (undelivered : row.status ≠ .delivered)
    (grown : ∀ c ∈ w.confirmations, c ∈ confirmations)
    (authored : row'.status = .approved → ⟨i, row'.authorId, row'.previewHash⟩ ∈ confirmations) :
    Inv { w.write i row' with confirmations := confirmations } :=
  inv_write inv found (fun _ _ before => .inl before) (fun _ _ before own => free_of_not_locked unlocked before own)
    (fun _ _ before _ => before) (fun shown => absurd shown (not_displayed_of_unlocked inv found unlocked undelivered))
    grown (fun approved _ => authored approved)

theorem confirmable_spec {caseId authorId : String} {hash : Text} {row : Message}
    (asks : confirmable caseId authorId hash row) :
    row.authorId = authorId ∧ row.previewHash = hash ∧ row.status = .pendingConfirmation := by
  simp only [confirmable, Bool.and_eq_true, decide_eq_true_eq] at asks
  obtain ⟨⟨⟨-, author⟩, pending⟩, hashed⟩ := asks
  exact ⟨author, hashed, pending⟩

theorem cancellable_spec {caseId authorId : String} {row : Message} (asks : cancellable caseId authorId row) :
    final row.status = false := by
  simp only [cancellable, Bool.and_eq_true, decide_eq_true_eq] at asks
  have listed := asks.2
  simp only [List.mem_cons, List.not_mem_nil, or_false] at listed
  rcases listed with status | status | status | status <;> rw [status] <;> rfl

theorem inv_frame (inv : Inv w) {s : State} (same : s.messages = w.state.messages) : Inv { w with state := s } := by
  refine ⟨fun d x found => ?_, inv.apart, fun e mem => ?_, fun i m found => ?_, inv.allowed, inv.content,
    inv.confirmed, inv.once⟩
  · simp only [same]
    exact inv.held d x found
  · simp only [same]
    exact inv.displayed e mem
  · simp only [same] at found
    exact inv.authored i m found

theorem createMessage_state (rules : Rules) (s : State) (r : Creation) :
    (createMessage rules s r).1 = s ∨ ∃ preview decision,
      (createMessage rules s r).1 = { s with messages := s.messages ++ [newMessage preview decision r] } := by
  unfold createMessage
  split
  · exact .inl rfl
  split
  · exact .inl rfl
  split
  · exact .inr ⟨_, _, rfl⟩
  · exact .inl rfl

theorem inv_createMessage (inv : Inv w) (rules : Rules) (r : Creation) :
    Inv { w with state := (createMessage rules w.state r).1 } := by
  obtain kept | ⟨preview, decision, added⟩ := createMessage_state rules w.state r
  · rw [kept]
    exact inv
  · rw [added]
    refine ⟨fun d x found => ?_, inv.apart, fun e mem => ?_, fun i m found approved required => ?_, inv.allowed,
      inv.content, inv.confirmed, inv.once⟩
    · obtain ⟨m, before, held⟩ := inv.held d x found
      exact ⟨m, concat_old before, held⟩
    · rcases inv.displayed e mem with inFlight | ⟨m, before, delivered⟩
      · exact .inl inFlight
      · exact .inr ⟨m, concat_old before, delivered⟩
    · rcases concat_cases found with before | ⟨-, rfl⟩
      · exact inv.authored i m before approved required
      · simp only [newMessage] at approved required
        rw [if_pos required] at approved
        cases approved

theorem setChannelControl_messages (s : State) (caseId : Option String) (disabled : Bool) :
    (setChannelControl s caseId disabled).messages = s.messages := by
  unfold setChannelControl
  repeat' split
  all_goals rfl

theorem inv_deliver (inv : Inv w) {messageId : ℕ} {row : Message} (found : w.state.messages[messageId]? = some row)
    (disabled : Bool) :
    Inv { w with deliveries := w.deliveries ++ [⟨messageId, .checked disabled, none⟩] } := by
  refine { inv with held := fun d x foundX => ?_, apart := ?_, displayed := fun e mem => ?_ }
  · rcases concat_cases foundX with before | ⟨-, rfl⟩
    · exact inv.held d x before
    · exact ⟨row, found, held_of_not_holds rfl row⟩
  · intro d₁ d₂ x₁ x₂ found₁ found₂ holds₁ holds₂ one
    rcases concat_cases found₁ with before₁ | ⟨-, rfl⟩
    · rcases concat_cases found₂ with before₂ | ⟨-, rfl⟩
      · exact inv.apart d₁ d₂ x₁ x₂ before₁ before₂ holds₁ holds₂ one
      · cases holds₂
    · cases holds₁
  · rcases inv.displayed e mem with ⟨x, before, own, alive⟩ | delivered
    · exact .inl ⟨x, concat_old before, own, alive⟩
    · exact .inr delivered

theorem inv_stepDelivery (inv : Inv w) (found : w.deliveries[d]? = some x) {a : Action}
    (own : a.delivery? = some d) (admits : Admits w a) : Inv (stepDelivery w d x a) := by
  cases a with
  | lock delivery =>
    simp only [stepDelivery]
    split
    · rename_i disabled row checked here
      exact inv_lockRow inv found (by rw [Delivery.holds, checked]) here disabled
    · exact inv
  | display delivery =>
    cases own
    exact inv_display inv found admits
  | answer delivery response =>
    cases own
    exact inv_answer inv found response admits
  | collect delivery evidenceId now =>
    cases own
    exact inv_collect inv found evidenceId now admits
  | finish delivery commit =>
    cases own
    simp only [stepDelivery]
    split
    · rename_i row holding
      cases commit with
      | true => exact inv_commit inv found holding admits
      | false => exact inv_roll_back inv found fun _ => admits x found (by rw [writtenRow, holding]; rfl)
    · exact inv
  | crash delivery =>
    cases own
    exact inv_roll_back inv found (admits x found)
  | _ => exact inv

theorem step_eq_stepDelivery {rules : Rules} {a : Action} (own : a.delivery? = some d)
    (found : w.deliveries[d]? = some x) : step rules w a = stepDelivery w d x a := by
  cases a with
  | lock | display | answer | collect | finish | crash =>
    cases own
    simp only [step, Action.delivery?, found, Option.elim]
  | _ => cases own

theorem step_eq_self {rules : Rules} {a : Action} (own : a.delivery? = some d)
    (unknown : w.deliveries[d]? = none) : step rules w a = w := by
  cases a with
  | lock | display | answer | collect | finish | crash =>
    cases own
    simp only [step, Action.delivery?, unknown, Option.elim]
  | _ => cases own

theorem inv_step (rules : Rules) {a : Action} (inv : Inv w) (admits : Admits w a) : Inv (step rules w a) := by
  cases delivery : a.delivery? with
  | some d =>
    cases found : w.deliveries[d]? with
    | some x =>
      rw [step_eq_stepDelivery delivery found]
      exact inv_stepDelivery inv found delivery admits
    | none =>
      rw [step_eq_self delivery found]
      exact inv
  | none =>
    cases a with
    | createMessage r => exact inv_createMessage inv rules r
    | confirmMessage now caseId authorId hash messageId disabled =>
      simp only [step]
      split
      · exact inv
      split
      · rename_i after updated
        obtain ⟨row, found, asks, unlocked, rfl⟩ := update_eq_some updated
        obtain ⟨author, hashed, pending⟩ := confirmable_spec asks
        refine inv_update inv found unlocked (by rw [pending]; decide)
          (fun _ mem => List.mem_append_left _ mem) (fun _ => ?_)
        rw [confirmed, author, hashed]
        exact List.mem_append_right _ (List.mem_singleton_self _)
      · exact inv
    | cancelMessage caseId authorId messageId =>
      simp only [step]
      cases updated : update w messageId (cancellable caseId authorId) cancelled with
      | none => exact inv
      | some after =>
        obtain ⟨row, found, asks, unlocked, rfl⟩ := update_eq_some updated
        have open_ := cancellable_spec asks
        exact inv_update inv found unlocked (fun delivered => by rw [delivered] at open_; cases open_)
          (fun _ mem => mem) (fun approved => by cases approved)
    | setChannelControl caseId disabled => exact inv_frame inv (setChannelControl_messages w.state caseId disabled)
    | surroundings now => exact inv_frame inv rfl
    | deliver messageId =>
      simp only [step]
      split
      · rename_i row found
        exact inv_deliver inv found _
      · exact inv
    | _ => cases delivery

theorem write_status {i : ℕ} {row row' m : Message} (found : w.state.messages[i]? = some row)
    (open_ : final row.status = false) {j : ℕ} (foundM : w.state.messages[j]? = some m) (isFinal : final m.status) :
    (w.write i row').state.messages[j]? = some m := by
  by_cases same : i = j
  · subst same
    cases found.symm.trans foundM
    rw [open_] at isFinal
    cases isFinal
  · exact (List.getElem?_set_ne same).trans foundM

theorem lockRow_messages (disabled : Bool) (i : ℕ) (row : Message) :
    (lockRow w d i disabled row).state.messages = w.state.messages := by
  unfold lockRow
  repeat' split
  all_goals rfl

theorem displayRow_messages : (displayRow w d x).state.messages = w.state.messages := by
  unfold displayRow
  repeat' split
  all_goals rfl

theorem final_step {rules : Rules} {a : Action} (inv : Inv w) (admits : Admits w a) {j : ℕ} {m : Message}
    (foundM : w.state.messages[j]? = some m) (isFinal : final m.status) :
    (step rules w a).state.messages[j]? = some m := by
  have before := (List.getElem?_eq_some_iff.mp foundM).1
  cases delivery : a.delivery? with
  | some d =>
    cases found : w.deliveries[d]? with
    | none =>
      rw [step_eq_self delivery found]
      exact foundM
    | some x =>
      rw [step_eq_stepDelivery delivery found]
      cases a with
      | lock =>
        simp only [stepDelivery]
        split
        · rw [lockRow_messages]
          exact foundM
        · exact foundM
      | display =>
        simp only [stepDelivery]
        rw [displayRow_messages]
        exact foundM
      | answer | collect =>
        simp only [stepDelivery]
        split
        · exact foundM
        · exact foundM
      | finish target commit =>
        cases delivery
        simp only [stepDelivery]
        split
        · rename_i row holding
          cases commit with
          | false => exact foundM
          | true =>
            obtain ⟨held, foundHeld, fits⟩ := inv.held d x found
            refine write_status (w := w.put d { x with phase := .over }) foundHeld ?_ foundM isFinal
            by_cases blocked : row.status = .blocked
            · exact admits x found row (by rw [writtenRow, holding]; rfl) blocked held foundHeld
            · rw [((fits row .written holding).2 blocked).1]
              rfl
        · exact foundM
      | crash => exact foundM
      | _ => cases delivery
  | none =>
    cases a with
    | createMessage r =>
      simp only [step]
      obtain kept | ⟨preview, decision, added⟩ := createMessage_state rules w.state r
      · rw [kept]
        exact foundM
      · rw [added]
        exact (List.getElem?_append_left before).trans foundM
    | confirmMessage now caseId authorId hash messageId disabled =>
      simp only [step]
      split
      · exact foundM
      split
      · rename_i after updated
        obtain ⟨row, found, asks, -, rfl⟩ := update_eq_some updated
        exact write_status found (by rw [(confirmable_spec asks).2.2]; rfl) foundM isFinal
      · exact foundM
    | cancelMessage caseId authorId messageId =>
      simp only [step]
      cases updated : update w messageId (cancellable caseId authorId) cancelled with
      | none => exact foundM
      | some after =>
        obtain ⟨row, found, asks, -, rfl⟩ := update_eq_some updated
        exact write_status found (cancellable_spec asks) foundM isFinal
    | setChannelControl caseId disabled =>
      simp only [step]
      rw [setChannelControl_messages]
      exact foundM
    | surroundings now => exact foundM
    | deliver messageId =>
      simp only [step]
      split
      · exact foundM
      · exact foundM
    | _ => cases delivery

end

structure Opening (w : World) : Prop where
  messages : w.state.messages = []
  deliveries : w.deliveries = []
  displays : w.displays = []

theorem inv_opening {w : World} (opening : Opening w) : Inv w := by
  obtain ⟨noMessage, noDelivery, noDisplay⟩ := opening
  refine ⟨fun d x found => ?_, fun d d' x x' found => ?_, fun e mem => ?_, fun i m found => ?_, fun e mem => ?_,
    fun e mem => ?_, fun e mem => ?_, ?_⟩
  · rw [noDelivery] at found
    cases found
  · rw [noDelivery] at found
    cases found
  · rw [noDisplay] at mem
    cases mem
  · rw [noMessage] at found
    cases found
  · rw [noDisplay] at mem
    cases mem
  · rw [noDisplay] at mem
    cases mem
  · rw [noDisplay] at mem
    cases mem
  · rw [noDisplay]
    exact List.Pairwise.nil

theorem final_of_along {rules : Rules} {w : World} {actions : List Action} (inv : Inv w)
    (along : Along (step rules) Admits w actions) {j : ℕ} {m : Message}
    (foundM : w.state.messages[j]? = some m) (isFinal : final m.status) :
    (run (step rules) w actions).state.messages[j]? = some m := by
  induction actions generalizing w with
  | nil => exact foundM
  | cons a actions ih => exact ih (inv_step rules inv along.1) along.2 (final_step inv along.1 foundM isFinal)

/-- Along a run of admitted steps what is displayed and recorded is sound, and the row of a message stands
once its status is DELIVERED, CANCELLED or FAILED. -/
theorem messages_of_admitted {rules : Rules} {w : World} (opening : Opening w) {actions : List Action}
    (admitted : Along (step rules) Admits w actions) :
    Throughout (step rules) Sound w actions ∧
      ∀ front back, front ++ back <+: actions → ∀ (j : ℕ) (m : Message),
        (run (step rules) w front).state.messages[j]? = some m → final m.status →
        (run (step rules) w (front ++ back)).state.messages[j]? = some m := by
  refine ⟨throughout_of_along (I := Inv) (fun _ _ inv admits => inv_step rules inv admits) (fun _ inv => sound_of_inv inv)
    (inv_opening opening) admitted, fun front back reached j m foundM isFinal => ?_⟩
  obtain ⟨rest, rfl⟩ := reached
  obtain ⟨first, second⟩ := along_append_iff.mp (along_append_iff.mp admitted).1
  have inv := throughout_last (throughout_of_along (I := Inv) (P := Inv)
    (fun _ _ inv admits => inv_step rules inv admits) (fun _ inv => inv) (inv_opening opening) first)
  rw [run_append]
  exact final_of_along inv second foundM isFinal

/-! A message that is delivered, and deliveries that go wrong behind its display. -/

def openWorld : World := ⟨engaged .engaging, [], [], []⟩

def posted : List Action := [.createMessage hello, .deliver 0, .lock 0, .display 0]

theorem delivered_message :
    Sound (run (step sampleRules) openWorld
        (posted ++ [.answer 0 (.success (some "A")), .collect 0 (some "E") 1, .finish 0 true])) ∧
      ((run (step sampleRules) openWorld (posted ++ [.answer 0 (.success (some "A")), .collect 0 (some "E") 1,
        .finish 0 true])).state.messages.map (·.status) = [.delivered]) := by
  have admitted : Along (step sampleRules) Admits openWorld
      (posted ++ [.answer 0 (.success (some "A")), .collect 0 (some "E") 1, .finish 0 true]) := by
    exact ⟨trivial, trivial, trivial, by decide +kernel, by decide +kernel, by decide +kernel, by decide +kernel, trivial⟩
  exact ⟨throughout_last (messages_of_admitted ⟨rfl, rfl, rfl⟩ admitted).1, by decide +kernel⟩

/-- A message is displayed and then recorded as FAILED because its evidence is not acquired; the delivery is
rolled back and the message displayed again; it is displayed when the channel has been disabled behind the check; and
a delivery while the channel is disabled blocks a message that was delivered. -/
theorem message_lifecycle_broken :
    ((run (step sampleRules) openWorld (posted ++ [.answer 0 (.success none), .collect 0 none 1, .finish 0 true])).state
        |>.messages.map (·.status)) = [.failed] ∧
      ((run (step sampleRules) openWorld (posted ++ [.answer 0 .raised, .finish 0 false, .deliver 0, .lock 1,
        .display 1])).displays.map (·.messageId)) = [0, 0] ∧
      ((run (step sampleRules) openWorld [.createMessage hello, .deliver 0, .lock 0, .setChannelControl none true,
        .display 0]).displays.map (·.disabled)) = [true] ∧
      ((run (step sampleRules) openWorld (posted ++ [.answer 0 (.success none), .collect 0 (some "E") 1, .finish 0 true,
        .setChannelControl none true, .deliver 0, .lock 1, .finish 1 true])).state.messages.map (·.status)) = [.blocked] := by
  decide +kernel

end Mirage.MessageLifecycle
