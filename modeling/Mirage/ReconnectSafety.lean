import Mirage.CommandSerialisation

/-! Reconnects at the gateway. The live websocket of a sandbox is replaced by identity,
but the futures of its commands are kept for the sandbox and not for the websocket. -/

namespace Mirage.ReconnectSafety
open SandboxActions SandboxGateway CommandSerialisation

def Disconnected (sockets : List Socket) (ws : ℕ) : Prop :=
  ∃ socket, sockets[ws]? = some socket ∧ socket.connected = false

/-- The command of request `i` is failed with a disconnect error: its future
is, or its dispatch returned that error or one of sending. -/
def Failed (g : Gateway) (i : ℕ) (r : Request) : Prop :=
  g.futures i = .disconnected ∨ r.phase.outcome = some .disconnected ∨
    ∃ detail, r.phase.outcome = some (.sendFailed detail)

/-- A command fails only with the websocket its frame was sent on, and a
command without an answer is still registered. -/
structure Isolated (g : Gateway) : Prop where
  failed : ∀ (i : ℕ) r, g.requests[i]? = some r → Failed g i r →
    ∃ ws, r.sentOn = some ws ∧ Disconnected g.sockets ws
  kept : ∀ (i : ℕ) r, g.requests[i]? = some r → r.phase.inFlight = true → g.futures i = .pending →
    (r.action.actionId, i) ∈ g.pendingBySandbox r.action.sandboxId

def Leaves (g : Gateway) (e : SandboxGateway.Event) (ws : ℕ) (socket : Socket) : Prop :=
  g.sockets[ws]? = some socket ∧ socket.serving = true ∧
    ((e = .leave ws ∧ socket.connected = false) ∨
      ∃ text, e = .frame ws text ∧ readFrame text = .exception)

/-- When a handler leaves, every unanswered command of its sandbox was sent on
its own websocket or on one that is gone too. -/
def Admitted (g : Gateway) (e : SandboxGateway.Event) : Prop :=
  ∀ ws socket, Leaves g e ws socket → ∀ actionId i r,
    (actionId, i) ∈ g.pendingBySandbox socket.sandboxId → g.futures i = .pending →
    g.requests[i]? = some r → ∃ ws', r.sentOn = some ws' ∧ (ws' = ws ∨ Disconnected g.sockets ws')

structure Registered (g : Gateway) : Prop where
  entry : ∀ sandboxId actionId i, (actionId, i) ∈ g.pendingBySandbox sandboxId → ∃ r,
    g.requests[i]? = some r ∧ r.action.sandboxId = sandboxId ∧ r.action.actionId = actionId ∧
    r.phase.inFlight = true
  kept : ∀ (i : ℕ) r, g.requests[i]? = some r → r.phase.inFlight = true → g.futures i = .pending →
    (r.action.actionId, i) ∈ g.pendingBySandbox r.action.sandboxId
  sent : ∀ (i : ℕ) r, g.requests[i]? = some r → r.phase.inFlight = true → ∃ ws, r.sentOn = some ws
  unsent : ∀ i : ℕ, (∀ r, g.requests[i]? = some r → r.sentOn = none) → g.futures i = .pending
  lost : ∀ (i : ℕ) r, g.requests[i]? = some r → r.phase.outcome = some .disconnected →
    g.futures i = .disconnected
  broken : ∀ (i : ℕ) r detail, g.requests[i]? = some r →
    r.phase.outcome = some (.sendFailed detail) → ∃ ws, r.sentOn = some ws ∧ Disconnected g.sockets ws

theorem disconnected_set {sockets : List Socket} {ws ws' : ℕ} {socket new : Socket}
    (found : sockets[ws]? = some socket) (gone : new.connected = false) :
    Disconnected (sockets.set ws new) ws' ↔ ws' = ws ∨ Disconnected sockets ws' := by
  have bound : ws < sockets.length := (List.getElem?_eq_some_iff.mp found).1
  unfold Disconnected
  rw [List.getElem?_set]
  by_cases here : ws = ws'
  · subst here
    simp [bound, gone]
  · simp [here, Ne.symm here]

theorem disconnected_append {sockets : List Socket} {ws : ℕ} (new : List Socket)
    (gone : Disconnected sockets ws) : Disconnected (sockets ++ new) ws := by
  obtain ⟨socket, found, closed⟩ := gone
  exact ⟨socket, by rw [List.getElem?_append_left (List.getElem?_eq_some_iff.mp found).1, found],
    closed⟩

theorem mem_popPending {pending : String → List (String × ℕ)} {sandboxId actionId : String}
    {s id : String} {i : ℕ} : (id, i) ∈ popPending pending sandboxId actionId s ↔
      (id, i) ∈ pending s ∧ (s = sandboxId → id ≠ actionId) := by
  unfold popPending
  by_cases here : s = sandboxId
  · subst here
    simp
  · simp [here]

section
variable {g : Gateway}

theorem registered_sockets (registered : Registered g) {sockets : List Socket} (db : Database)
    (live : String → Option ℕ) (gone : ∀ ws, Disconnected g.sockets ws → Disconnected sockets ws) :
    Registered { g with db, sockets, liveConnections := live } := by
  refine ⟨registered.entry, registered.kept, registered.sent, registered.unsent, registered.lost,
    fun i r detail h has => ?_⟩
  obtain ⟨ws, sentOn, closed⟩ := registered.broken i r detail h has
  exact ⟨ws, sentOn, gone ws closed⟩

theorem registered_opened (registered : Registered g) (db : Database) (a : PendingAction) :
    Registered { g with db, requests := g.requests ++ [⟨a, none, .opened⟩] } := by
  refine ⟨fun s id i listed => ?_, fun i r h flight pending => ?_, fun i r h flight => ?_,
    fun i nowhere => registered.unsent i fun r h => nowhere r (get_append.mpr (.inl h)),
    fun i r h has => ?_, fun i r detail h has => ?_⟩
  · obtain ⟨r, h, rest⟩ := registered.entry s id i listed
    exact ⟨r, get_append.mpr (.inl h), rest⟩
  · rcases get_append.mp h with old | ⟨-, rfl⟩
    · exact registered.kept i r old flight pending
    · cases flight
  · rcases get_append.mp h with old | ⟨-, rfl⟩
    · exact registered.sent i r old flight
    · cases flight
  · rcases get_append.mp h with old | ⟨-, rfl⟩
    · exact registered.lost i r old has
    · cases has
  · rcases get_append.mp h with old | ⟨-, rfl⟩
    · exact registered.broken i r detail old has
    · cases has

theorem registered_phase {i : ℕ} {r r' : Request} (registered : Registered g) (db : Database)
    (found : g.requests[i]? = some r) (action : r'.action = r.action) (sentOn : r'.sentOn = r.sentOn)
    (flight : r'.phase.inFlight = r.phase.inFlight)
    (lost : r'.phase.outcome = some .disconnected → r.phase.outcome = some .disconnected)
    (broken : ∀ detail, r'.phase.outcome = some (.sendFailed detail) →
      r.phase.outcome = some (.sendFailed detail)) :
    Registered { g with db, requests := g.requests.set i r' } := by
  refine ⟨fun s id j listed => ?_, fun j s h inFlight pending => ?_, fun j s h inFlight => ?_,
    fun j nowhere => registered.unsent j fun s h => ?_, fun j s h has => ?_,
    fun j s detail h has => ?_⟩
  · obtain ⟨s', h, sandbox, id', inFlight⟩ := registered.entry s id j listed
    by_cases here : j = i
    · subst here
      rw [found] at h
      cases h
      exact ⟨r', (get_set found).mpr (.inl ⟨rfl, rfl⟩), by rw [action, sandbox], by rw [action, id'],
        by rw [flight, inFlight]⟩
    · exact ⟨s', (get_set found).mpr (.inr ⟨here, h⟩), sandbox, id', inFlight⟩
  · rcases (get_set found).mp h with ⟨rfl, rfl⟩ | ⟨-, old⟩
    · rw [action]
      exact registered.kept j r found (by rw [← flight, inFlight]) pending
    · exact registered.kept j s old inFlight pending
  · rcases (get_set found).mp h with ⟨rfl, rfl⟩ | ⟨-, old⟩
    · rw [sentOn]
      exact registered.sent j r found (by rw [← flight, inFlight])
    · exact registered.sent j s old inFlight
  · by_cases here : j = i
    · subst here
      rw [found] at h
      cases h
      rw [← sentOn]
      exact nowhere r' ((get_set found).mpr (.inl ⟨rfl, rfl⟩))
    · exact nowhere s ((get_set found).mpr (.inr ⟨here, h⟩))
  · rcases (get_set found).mp h with ⟨rfl, rfl⟩ | ⟨-, old⟩
    · exact registered.lost j r found (lost has)
    · exact registered.lost j s old has
  · rcases (get_set found).mp h with ⟨rfl, rfl⟩ | ⟨-, old⟩
    · rw [sentOn]
      exact registered.broken j r detail found (broken detail has)
    · exact registered.broken j s detail old has

theorem registered_endDispatch {i : ℕ} {r : Request} {phase : Phase} {f : ℕ → Future}
    (registered : Registered g) (distinct : Distinct PendingAction.actionId g.requests)
    (found : g.requests[i]? = some r)
    (flight : r.phase.inFlight = true) (landed : phase.inFlight = false)
    (others : ∀ j, j ≠ i → f j = g.futures j)
    (own : g.futures i = .disconnected → f i = .disconnected)
    (lost : phase.outcome = some .disconnected → f i = .disconnected)
    (broken : ∀ detail, phase.outcome = some (.sendFailed detail) →
      ∃ ws, r.sentOn = some ws ∧ Disconnected g.sockets ws) :
    Registered { endDispatch g i r phase with futures := f } := by
  refine ⟨fun s id j listed => ?_, fun j s h inFlight pending => ?_, fun j s h inFlight => ?_,
    fun j nowhere => ?_, fun j s h has => ?_, fun j s detail h has => ?_⟩
  · obtain ⟨listed, apart⟩ := mem_popPending.mp listed
    obtain ⟨s', h, sandbox, id', inFlight⟩ := registered.entry s id j listed
    refine ⟨s', (get_set found).mpr (.inr ⟨fun here => ?_, h⟩), sandbox, id', inFlight⟩
    rw [here, found] at h
    cases h
    exact apart sandbox.symm id'.symm
  · rcases (get_set found).mp h with ⟨-, rfl⟩ | ⟨apart, old⟩
    · rw [landed] at inFlight
      cases inFlight
    · have waits : g.futures j = .pending := (others j apart).symm.trans pending
      refine mem_popPending.mpr ⟨registered.kept j s old inFlight waits, fun _ same => ?_⟩
      exact apart (distinct j i s r old found same)
  · rcases (get_set found).mp h with ⟨-, rfl⟩ | ⟨-, old⟩
    · rw [landed] at inFlight
      cases inFlight
    · exact registered.sent j s old inFlight
  · by_cases here : j = i
    · subst here
      obtain ⟨ws, sentOn⟩ := registered.sent j r found flight
      have unsent : r.sentOn = none :=
        nowhere { r with phase } ((get_set found).mpr (.inl ⟨rfl, rfl⟩))
      rw [sentOn] at unsent
      cases unsent
    · show f j = .pending
      rw [others j here]
      exact registered.unsent j fun s h => nowhere s ((get_set found).mpr (.inr ⟨here, h⟩))
  · rcases (get_set found).mp h with ⟨rfl, rfl⟩ | ⟨apart, old⟩
    · exact lost has
    · exact (others j apart).trans (registered.lost j s old has)
  · rcases (get_set found).mp h with ⟨rfl, rfl⟩ | ⟨-, old⟩
    · exact broken detail has
    · exact registered.broken j s detail old has

theorem registered_dispatched {i ws : ℕ} {action : PendingAction} {sentOn : Option ℕ}
    (registered : Registered g) (distinct : Distinct PendingAction.actionId g.requests)
    (found : g.requests[i]? = some ⟨action, sentOn, .opened⟩) :
    Registered { settle g i ⟨action, some ws, .opened⟩ .sending with
      pendingBySandbox := Function.update g.pendingBySandbox action.sandboxId
        ((g.pendingBySandbox action.sandboxId).filter (fun entry => entry.1 ≠ action.actionId) ++
          [(action.actionId, i)])
      futures := Function.update g.futures i .pending } := by
  have mine : (g.requests.set i ⟨action, some ws, .sending⟩)[i]? = some ⟨action, some ws, .sending⟩ :=
    (get_set found).mpr (.inl ⟨rfl, rfl⟩)
  have still : ∀ s id j, (id, j) ∈ g.pendingBySandbox s → ∃ r,
      (g.requests.set i ⟨action, some ws, .sending⟩)[j]? = some r ∧ r.action.sandboxId = s ∧
      r.action.actionId = id ∧ r.phase.inFlight = true := by
    intro s id j listed
    obtain ⟨r, h, sandbox, id', inFlight⟩ := registered.entry s id j listed
    refine ⟨r, (get_set found).mpr (.inr ⟨fun here => ?_, h⟩), sandbox, id', inFlight⟩
    rw [here, found] at h
    cases h
    cases inFlight
  refine ⟨fun s id j listed => ?_, fun j s h inFlight pending => ?_, fun j s h inFlight => ?_,
    fun j nowhere => ?_, fun j s h has => ?_, fun j s detail h has => ?_⟩
  · by_cases here : s = action.sandboxId
    · subst here
      simp only [Function.update_self, List.mem_append, List.mem_filter, List.mem_singleton,
        Prod.mk.injEq] at listed
      rcases listed with ⟨old, -⟩ | ⟨rfl, rfl⟩
      · exact still _ id j old
      · exact ⟨_, mine, rfl, rfl, rfl⟩
    · simp only [Function.update_of_ne here] at listed
      exact still s id j listed
  · rcases (get_set found).mp h with ⟨rfl, rfl⟩ | ⟨apart, old⟩
    · simp
    · have waits : g.futures j = .pending := by
        simpa [Function.update_of_ne apart] using pending
      have listed := registered.kept j s old inFlight waits
      by_cases here : s.action.sandboxId = action.sandboxId
      · have other : s.action.actionId ≠ action.actionId := fun same =>
          apart (distinct j i s _ old found same)
        rw [here] at listed
        simp [here, listed, other]
      · simpa [Function.update_of_ne here] using listed
  · rcases (get_set found).mp h with ⟨rfl, rfl⟩ | ⟨-, old⟩
    · exact ⟨ws, rfl⟩
    · exact registered.sent j s old inFlight
  · by_cases here : j = i
    · subst here
      have none' := nowhere _ mine
      cases none'
    · show Function.update g.futures i .pending j = .pending
      rw [Function.update_of_ne here]
      exact registered.unsent j fun s h => nowhere s ((get_set found).mpr (.inr ⟨here, h⟩))
  · rcases (get_set found).mp h with ⟨rfl, rfl⟩ | ⟨apart, old⟩
    · cases has
    · show Function.update g.futures i .pending j = .disconnected
      rw [Function.update_of_ne apart]
      exact registered.lost j s old has
  · rcases (get_set found).mp h with ⟨rfl, rfl⟩ | ⟨-, old⟩
    · cases has
    · exact registered.broken j s detail old has

theorem registered_delivered (registered : Registered g) (distinct : Distinct PendingAction.actionId g.requests)
    (sandboxId actionId : String) (value : Json) :
    Registered (deliver g sandboxId actionId value) := by
  unfold deliver
  split
  · exact registered
  · rename_i id i hit
    have named : id = actionId := by simpa using List.find?_some hit
    subst named
    obtain ⟨r, found, sandbox, action, flight⟩ :=
      registered.entry sandboxId id i (List.mem_of_find?_eq_some hit)
    have futures : ∀ j, (if (g.futures i).done then g.futures
        else Function.update g.futures i (.result value)) j =
        if j = i ∧ (g.futures i).done = false then .result value else g.futures j := by
      intro j
      by_cases here : j = i
      · subst here
        cases (g.futures j).done <;> simp
      · cases (g.futures i).done <;> simp [here]
    refine ⟨fun s a j listed => ?_, fun j s h inFlight pending => ?_, registered.sent,
      fun j nowhere => ?_, fun j s h has => ?_, registered.broken⟩
    · exact registered.entry s a j (mem_popPending.mp listed).1
    · change (if (g.futures i).done then _ else _ : ℕ → Future) j = .pending at pending
      rw [futures] at pending
      split at pending
      · cases pending
      · rename_i other
        refine mem_popPending.mpr ⟨registered.kept j s h inFlight pending, fun _ same => ?_⟩
        have here := distinct j i s r h found (same.trans action.symm)
        subst here
        exact other ⟨rfl, Future.done_eq_false.mpr pending⟩
    · change (if (g.futures i).done then _ else _ : ℕ → Future) j = .pending
      rw [futures]
      split
      · rename_i own
        obtain ⟨ws, sentOn⟩ := registered.sent i r found flight
        rw [own.1] at nowhere
        rw [nowhere r found] at sentOn
        cases sentOn
      · exact registered.unsent j nowhere
    · change (if (g.futures i).done then _ else _ : ℕ → Future) j = .disconnected
      rw [futures]
      have gone := registered.lost j s h has
      split
      · rename_i own
        rw [own.1, Future.done_eq_false.mp own.2] at gone
        cases gone
      · exact gone

theorem cleanUp_futures (ws : ℕ) (socket : Socket) (i : ℕ) :
    ((∃ id, (id, i) ∈ g.pendingBySandbox socket.sandboxId) ∧ g.futures i = .pending ∧
      (cleanUp g ws socket).futures i = .disconnected) ∨
    (¬ ((∃ id, (id, i) ∈ g.pendingBySandbox socket.sandboxId) ∧ g.futures i = .pending) ∧
      (cleanUp g ws socket).futures i = g.futures i) := by
  have listed : i ∈ (g.pendingBySandbox socket.sandboxId).map Prod.snd ↔
      ∃ id, (id, i) ∈ g.pendingBySandbox socket.sandboxId := by
    simp [List.mem_map]
  simp only [cleanUp, ← listed, ← Future.done_eq_false]
  split
  · rename_i hit
    simp only [Bool.and_eq_true, decide_eq_true_eq, Bool.not_eq_true'] at hit
    exact .inl ⟨hit.1, hit.2, rfl⟩
  · rename_i miss
    simp only [Bool.and_eq_true, decide_eq_true_eq, Bool.not_eq_true'] at miss
    exact .inr ⟨miss, rfl⟩

theorem registered_cleanUp {ws : ℕ} {socket : Socket} (registered : Registered g)
    (served : g.sockets[ws]? = some socket) : Registered (cleanUp g ws socket) := by
  refine ⟨fun s id i listed => ?_, fun i r h inFlight pending => ?_, registered.sent,
    fun i nowhere => ?_, fun i r h has => ?_, fun i r detail h has => ?_⟩
  · by_cases here : s = socket.sandboxId
    · subst here
      simp [cleanUp] at listed
    · exact registered.entry s id i (by simpa [cleanUp, here] using listed)
  · obtain ⟨-, -, gone⟩ | ⟨spared, same⟩ := cleanUp_futures (g := g) ws socket i
    · rw [gone] at pending
      cases pending
    · rw [same] at pending
      have listed := registered.kept i r h inFlight pending
      have elsewhere : r.action.sandboxId ≠ socket.sandboxId := by
        intro here
        rw [here] at listed
        exact spared ⟨⟨_, listed⟩, pending⟩
      simpa [cleanUp, elsewhere] using listed
  · obtain ⟨⟨id, listed⟩, -, -⟩ | ⟨-, same⟩ := cleanUp_futures (g := g) ws socket i
    · obtain ⟨r, found, -, -, flight⟩ := registered.entry _ id i listed
      obtain ⟨ws', sentOn⟩ := registered.sent i r found flight
      rw [nowhere r found] at sentOn
      cases sentOn
    · rw [same]
      exact registered.unsent i nowhere
  · obtain ⟨-, -, gone⟩ | ⟨-, same⟩ := cleanUp_futures (g := g) ws socket i
    · exact gone
    · rw [same]
      exact registered.lost i r h has
  · obtain ⟨ws', sentOn, gone⟩ := registered.broken i r detail h has
    exact ⟨ws', sentOn, (disconnected_set served rfl).mpr (.inr gone)⟩

theorem registered_recordOutcome {cfg : Config} {i : ℕ} {r : Request} {outcome : Outcome}
    (registered : Registered g) (found : g.requests[i]? = some r)
    (returned : r.phase = .returned outcome) (eventId now : String) (stored : Bool) :
    Registered (recordOutcome cfg g i r outcome eventId now stored) := by
  have has : r.phase.outcome = some outcome := by rw [returned]; rfl
  have flight : r.phase.inFlight = false := by rw [returned]; rfl
  have settled : ∀ (db : Database) (phase : Phase), phase.outcome = some outcome →
      phase.inFlight = false → Registered { settle g i r phase with db } := by
    intro db phase same landed
    exact registered_phase registered db found rfl rfl (by rw [flight]; exact landed)
      (fun h => by rw [has, ← same]; exact h) fun detail h => by rw [has, ← same]; exact h
  unfold recordOutcome
  split
  · exact settled g.db (.raised (some outcome)) rfl rfl
  · split
    · exact settled _ (.recorded outcome) rfl rfl
    · exact settled g.db (.raised (some outcome)) rfl rfl

theorem afterResult_cases (value : Json) : (afterResult value).inFlight = false ∧
    (afterResult value).outcome ≠ some .disconnected ∧
    ∀ detail, (afterResult value).outcome ≠ some (.sendFailed detail) := by
  unfold afterResult
  split <;> simp [Phase.inFlight, Phase.outcome]

theorem step_registered {cfg : Config} (e : SandboxGateway.Event) (registered : Registered g)
    (distinct : Distinct PendingAction.actionId g.requests) : Registered (step cfg g e) := by
  cases e with
  | connect sandboxId handshake stored accepted =>
    simp only [step]
    split
    · split
      · split
        · exact registered_sockets registered _ _ fun ws gone => disconnected_append _ gone
        · exact registered_sockets registered _ g.liveConnections fun ws gone => gone
      · exact registered
    · exact registered
  | frame ws text =>
    simp only [step]
    split
    · rename_i socket served
      split
      · split
        · exact registered_delivered registered distinct _ _ _
        · exact registered
        · exact registered_cleanUp registered served
      · exact registered
    · exact registered
  | disconnect ws =>
    simp only [step]
    split
    · rename_i socket served
      exact registered_sockets registered g.db g.liveConnections
        fun ws' gone => (disconnected_set served rfl).mpr (.inr gone)
    · exact registered
  | leave ws =>
    simp only [step]
    split
    · rename_i socket served
      split
      · exact registered_cleanUp registered served
      · exact registered
    · exact registered
  | issue caseId body drawn =>
    simp only [step]
    split
    · exact registered
    · split
      · exact registered_opened registered _ _
      · exact registered
  | dispatch i =>
    simp only [step]
    split
    · rename_i action sentOn found
      split
      · exact registered_phase registered g.db found rfl rfl rfl (fun h => by cases h)
          fun detail h => by cases h
      · exact registered_dispatched registered distinct found
    · exact registered
  | sent i =>
    simp only [step]
    split
    · rename_i action sentOn found
      exact registered_phase registered g.db found rfl rfl rfl (fun h => by cases h)
        fun detail h => by cases h
    · exact registered
  | sendFailed i caught =>
    simp only [step]
    split
    · rename_i action ws found
      split
      · rename_i closed
        obtain ⟨socket, served, gone⟩ := (Option.any_eq_true _ _).mp closed
        refine registered_endDispatch (f := g.futures) registered distinct found rfl ?_
          (fun _ _ => rfl) (fun h => h) (fun h => ?_)
          fun detail h => ⟨ws, rfl, socket, served, by simpa using gone⟩
        · cases caught <;> rfl
        · cases caught <;> cases h
      · exact registered
    · exact registered
  | wake i =>
    simp only [step]
    split
    · rename_i action sentOn found
      split
      · rename_i value future
        obtain ⟨landed, kept, whole⟩ := afterResult_cases value
        exact registered_endDispatch (f := g.futures) registered distinct found rfl landed
          (fun _ _ => rfl) (fun h => h) (fun h => absurd h kept) fun detail h => absurd h (whole detail)
      · rename_i future
        exact registered_endDispatch (f := g.futures) registered distinct found rfl rfl
          (fun _ _ => rfl) (fun h => h) (fun _ => future) fun detail h => by cases h
      · exact registered
      · exact registered
    · exact registered
  | timeout i =>
    simp only [step]
    split
    · rename_i action sentOn found
      refine registered_endDispatch registered distinct found rfl rfl (fun j apart => ?_) (fun gone => ?_)
        (fun h => by cases h) fun detail h => by cases h
      · split
        · rfl
        · exact Function.update_of_ne apart _ _
      · rw [gone]
        exact gone
    · exact registered
  | record i eventId now stored =>
    obtain ⟨r, outcome, found, returned, same⟩ | ⟨-, same⟩ := record_cases cfg g i eventId now stored
    · rw [same]
      exact registered_recordOutcome registered found returned eventId now stored
    · rw [same]
      exact registered

end

def Confined (g : Gateway) : Prop :=
  ∀ (i : ℕ) r, g.requests[i]? = some r → g.futures i = .disconnected →
    ∃ ws, r.sentOn = some ws ∧ Disconnected g.sockets ws

structure Quiet (g g' : Gateway) : Prop where
  gone : ∀ ws, Disconnected g.sockets ws → Disconnected g'.sockets ws
  failed : ∀ (i : ℕ) r', g'.requests[i]? = some r' → g'.futures i = .disconnected → ∃ r,
    g.requests[i]? = some r ∧ r.sentOn = r'.sentOn ∧ g.futures i = .disconnected

section
variable {cfg : Config} {g : Gateway}

theorem isolated_iff_confined (registered : Registered g) : Isolated g ↔ Confined g := by
  constructor
  · intro isolated i r found gone
    exact isolated.failed i r found (.inl gone)
  · intro confined
    refine ⟨fun i r found failed => ?_, registered.kept⟩
    rcases failed with gone | returned | ⟨detail, returned⟩
    · exact confined i r found gone
    · exact confined i r found (registered.lost i r found returned)
    · exact registered.broken i r detail found returned

theorem confined_quiet {g' : Gateway} (confined : Confined g) (quiet : Quiet g g') : Confined g' := by
  intro i r' found' gone'
  obtain ⟨r, found, sentOn, gone⟩ := quiet.failed i r' found' gone'
  obtain ⟨ws, sent, closed⟩ := confined i r found gone
  exact ⟨ws, by rw [← sentOn, sent], quiet.gone ws closed⟩

theorem quiet_same {g' : Gateway} (requests : g'.requests = g.requests)
    (futures : g'.futures = g.futures)
    (gone : ∀ ws, Disconnected g.sockets ws → Disconnected g'.sockets ws) : Quiet g g' := by
  refine ⟨gone, fun i r' found' gone' => ⟨r', ?_, rfl, ?_⟩⟩
  · rw [← requests, found']
  · rw [← futures, gone']

theorem quiet_set {g' : Gateway} {i : ℕ} {r r' : Request} (found : g.requests[i]? = some r)
    (requests : g'.requests = g.requests.set i r') (sentOn : r'.sentOn = r.sentOn)
    (sockets : g'.sockets = g.sockets)
    (futures : ∀ j, g'.futures j = .disconnected → g.futures j = .disconnected) : Quiet g g' := by
  refine ⟨fun ws gone => by rw [sockets]; exact gone, fun j s found' gone' => ?_⟩
  rw [requests] at found'
  rcases (get_set found).mp found' with ⟨rfl, rfl⟩ | ⟨-, old⟩
  · exact ⟨r, found, sentOn.symm, futures j gone'⟩
  · exact ⟨s, old, rfl, futures j gone'⟩

theorem quiet_opened (registered : Registered g) (db : Database) (a : PendingAction) :
    Quiet g { g with db, requests := g.requests ++ [⟨a, none, .opened⟩] } := by
  refine ⟨fun ws gone => gone, fun i r' found' gone' => ?_⟩
  rcases get_append.mp found' with old | ⟨last, rfl⟩
  · exact ⟨r', old, rfl, gone'⟩
  · have absent : g.requests[i]? = none := by
      rw [last]
      exact List.getElem?_eq_none (le_refl _)
    have pending := registered.unsent i fun r h => by
      rw [absent] at h
      cases h
    have gone : g.futures i = .disconnected := gone'
    rw [pending] at gone
    cases gone

theorem quiet_delivered (sandboxId actionId : String) (value : Json) :
    Quiet g (deliver g sandboxId actionId value) := by
  unfold deliver
  split
  · exact quiet_same rfl rfl fun ws gone => gone
  · rename_i id i hit
    refine ⟨fun ws gone => gone, fun j r' found' gone' => ⟨r', found', rfl, ?_⟩⟩
    change (if (g.futures i).done then _ else _ : ℕ → Future) j = .disconnected at gone'
    split at gone'
    · exact gone'
    · by_cases here : j = i
      · subst here
        rw [Function.update_self] at gone'
        cases gone'
      · rwa [Function.update_of_ne here] at gone'

theorem quiet_dispatched {i ws : ℕ} {action : PendingAction} {sentOn : Option ℕ}
    (found : g.requests[i]? = some ⟨action, sentOn, .opened⟩)
    (pending : String → List (String × ℕ)) :
    Quiet g { settle g i ⟨action, some ws, .opened⟩ .sending with
      pendingBySandbox := pending
      futures := Function.update g.futures i .pending } := by
  refine ⟨fun ws gone => gone, fun j s found' gone' => ?_⟩
  change Function.update g.futures i .pending j = .disconnected at gone'
  rcases (get_set found).mp found' with ⟨rfl, rfl⟩ | ⟨apart, old⟩
  · rw [Function.update_self] at gone'
    cases gone'
  · rw [Function.update_of_ne apart] at gone'
    exact ⟨s, old, rfl, gone'⟩

theorem step_quiet (e : SandboxGateway.Event) (registered : Registered g)
    (stays : ∀ ws socket, ¬ Leaves g e ws socket) : Quiet g (step cfg g e) := by
  have idle : Quiet g g := quiet_same rfl rfl fun ws gone => gone
  cases e with
  | connect sandboxId handshake stored accepted =>
    simp only [step]
    split
    · split
      · split
        · exact quiet_same rfl rfl fun ws gone => disconnected_append _ gone
        · exact quiet_same rfl rfl fun ws gone => gone
      · exact idle
    · exact idle
  | frame ws text =>
    simp only [step]
    split
    · rename_i socket served
      split
      · rename_i serving
        split
        · exact quiet_delivered _ _ _
        · exact idle
        · rename_i failed
          exact absurd ⟨served, serving, .inr ⟨text, rfl, failed⟩⟩ (stays ws socket)
      · exact idle
    · exact idle
  | disconnect ws =>
    simp only [step]
    split
    · rename_i socket served
      exact quiet_same rfl rfl fun ws' gone => (disconnected_set served rfl).mpr (.inr gone)
    · exact idle
  | leave ws =>
    simp only [step]
    split
    · rename_i socket served
      split
      · rename_i leaves
        simp only [Bool.and_eq_true, Bool.not_eq_true'] at leaves
        exact absurd ⟨served, leaves.1, .inl ⟨rfl, leaves.2⟩⟩ (stays ws socket)
      · exact idle
    · exact idle
  | issue caseId body drawn =>
    simp only [step]
    split
    · exact idle
    · split
      · exact quiet_opened registered _ _
      · exact idle
  | dispatch i =>
    simp only [step]
    split
    · rename_i action sentOn found
      split
      · exact quiet_set found rfl rfl rfl fun j gone => gone
      · exact quiet_dispatched found _
    · exact idle
  | sent i =>
    simp only [step]
    split
    · rename_i found
      exact quiet_set found rfl rfl rfl fun j gone => gone
    · exact idle
  | sendFailed i caught =>
    simp only [step]
    split
    · rename_i found
      split
      · exact quiet_set found rfl rfl rfl fun j gone => gone
      · exact idle
    · exact idle
  | wake i =>
    simp only [step]
    split
    · rename_i found
      split
      · exact quiet_set found rfl rfl rfl fun j gone => gone
      · exact quiet_set found rfl rfl rfl fun j gone => gone
      · exact idle
      · exact idle
    · exact idle
  | timeout i =>
    simp only [step]
    split
    · rename_i found
      refine quiet_set found rfl rfl rfl fun j gone => ?_
      change (if (g.futures i).done then _ else _ : ℕ → Future) j = .disconnected at gone
      split at gone
      · exact gone
      · by_cases here : j = i
        · subst here
          rw [Function.update_self] at gone
          cases gone
        · rwa [Function.update_of_ne here] at gone
    · exact idle
  | record i eventId now stored =>
    obtain ⟨r, outcome, found, returned, same⟩ | ⟨-, same⟩ := record_cases cfg g i eventId now stored
    · rw [same]
      unfold recordOutcome
      split
      · exact quiet_set found rfl rfl rfl fun j gone => gone
      · split <;> exact quiet_set found rfl rfl rfl fun j gone => gone
    · rw [same]
      exact idle

theorem step_leaves {e : SandboxGateway.Event} {ws : ℕ} {socket : Socket}
    (leaves : Leaves g e ws socket) : step cfg g e = cleanUp g ws socket := by
  obtain ⟨served, serving, ⟨rfl, gone⟩ | ⟨text, rfl, failed⟩⟩ := leaves
  · simp [step, served, serving, gone]
  · simp [step, served, serving, failed]

theorem cleanUp_confined_iff {e : SandboxGateway.Event} {ws : ℕ} {socket : Socket}
    (confined : Confined g) (leaves : Leaves g e ws socket) :
    Confined (cleanUp g ws socket) ↔ Admitted g e := by
  have gone : ∀ ws', Disconnected (cleanUp g ws socket).sockets ws' ↔
      ws' = ws ∨ Disconnected g.sockets ws' := fun ws' => disconnected_set leaves.1 rfl
  have only : ∀ ws' socket', Leaves g e ws' socket' → ws' = ws ∧ socket' = socket := by
    intro ws' socket' leaves'
    have same : ws' = ws := by
      obtain ⟨-, -, ⟨rfl, -⟩ | ⟨text, rfl, -⟩⟩ := leaves
      · obtain ⟨-, -, ⟨equal, -⟩ | ⟨_, equal, -⟩⟩ := leaves' <;> cases equal
        rfl
      · obtain ⟨-, -, ⟨equal, -⟩ | ⟨_, equal, -⟩⟩ := leaves' <;> cases equal
        rfl
    have equal := leaves'.1
    rw [same, leaves.1] at equal
    exact ⟨same, (Option.some.inj equal).symm⟩
  constructor
  · intro after ws' socket' leaves' actionId i r listed pending found
    obtain ⟨rfl, rfl⟩ := only ws' socket' leaves'
    have failed : (cleanUp g ws' socket').futures i = .disconnected := by
      obtain ⟨-, -, failed⟩ | ⟨spared, -⟩ := cleanUp_futures (g := g) ws' socket' i
      · exact failed
      · exact absurd ⟨⟨actionId, listed⟩, pending⟩ spared
    obtain ⟨own, sentOn, closed⟩ := after i r found failed
    exact ⟨own, sentOn, (gone own).mp closed⟩
  · intro admitted i r found failed
    obtain ⟨⟨id, listed⟩, pending, -⟩ | ⟨-, same⟩ := cleanUp_futures (g := g) ws socket i
    · obtain ⟨own, sentOn, closed⟩ := admitted ws socket leaves id i r listed pending found
      exact ⟨own, sentOn, (gone own).mpr closed⟩
    · rw [same] at failed
      obtain ⟨own, sentOn, closed⟩ := confined i r found failed
      exact ⟨own, sentOn, (gone own).mpr (.inr closed)⟩

theorem step_confined_iff (e : SandboxGateway.Event) (registered : Registered g)
    (confined : Confined g) : Confined (step cfg g e) ↔ Admitted g e := by
  by_cases someone : ∃ ws socket, Leaves g e ws socket
  · obtain ⟨ws, socket, leaves⟩ := someone
    rw [step_leaves leaves]
    exact cleanUp_confined_iff confined leaves
  · have stays : ∀ ws socket, ¬ Leaves g e ws socket := fun ws socket h => someone ⟨ws, socket, h⟩
    refine iff_of_true (confined_quiet confined (step_quiet e registered stays)) ?_
    exact fun ws socket leaves => absurd leaves (stays ws socket)

end

theorem start_registered (db₀ : Database) : Registered (start db₀) := by
  have empty : ∀ (i : ℕ) r, (start db₀).requests[i]? ≠ some r := by
    intro i r h
    cases h
  refine ⟨fun s id i listed => (by cases listed), fun i r h => absurd h (empty i r),
    fun i r h => absurd h (empty i r), fun i _ => rfl, fun i r h => absurd h (empty i r),
    fun i r detail h => absurd h (empty i r)⟩

/-- In a run commands fail only with their own websockets exactly if its steps
are admitted. -/
theorem isolated_iff_admitted (cfg : Config) (db₀ : Database) (es : List SandboxGateway.Event) :
    EventRun.Throughout (step cfg) Isolated (start db₀) es ↔
      EventRun.Along (step cfg) Admitted (start db₀) es := by
  refine EventRun.throughout_iff_along
    (I := fun g => Tracked db₀ g.db g.requests ∧ Registered g)
    (fun g e h => ⟨step_tracked e h.1, step_registered e h.2 h.1.actions⟩)
    (fun g e h isolated => ?_) ⟨start_tracked db₀, start_registered db₀⟩ ?_ es
  · rw [isolated_iff_confined (step_registered e h.2 h.1.actions)]
    exact step_confined_iff e h.2 ((isolated_iff_confined h.2).mp isolated)
  · rw [isolated_iff_confined (start_registered db₀)]
    exact fun i r h => by cases h

/-- A controller reconnects, a command is sent on the new websocket, and only
then the end of the old one is noticed. -/
def lateCleanup : List SandboxGateway.Event :=
  [sampleConnect, .disconnect 0, sampleConnect, firstIssue, .dispatch 0, .sent 0, .leave 0, .wake 0]

def lost : Option SandboxGateway.Outcome → Bool
  | some .disconnected => true
  | _ => false

theorem lateCleanup_failed :
    ¬ EventRun.Throughout (step sampleConfig) Isolated (start sampleDatabase) lateCleanup := by
  intro throughout
  have isolated := EventRun.throughout_last throughout
  have failed : (EventRun.run (step sampleConfig) (start sampleDatabase) lateCleanup).requests.any
      (fun r => r.sentOn = some 1 && lost r.phase.outcome) = true := by decide +kernel
  have open' : ((EventRun.run (step sampleConfig) (start sampleDatabase)
      lateCleanup).sockets[1]?).all (fun socket => socket.connected) = true := by decide +kernel
  obtain ⟨r, listed, facts⟩ := List.any_eq_true.mp failed
  obtain ⟨i, found⟩ := List.mem_iff_getElem?.mp listed
  rw [Bool.and_eq_true, decide_eq_true_eq] at facts
  have returned : r.phase.outcome = some .disconnected := by
    have outcome := facts.2
    unfold lost at outcome
    split at outcome
    · assumption
    · cases outcome
  obtain ⟨ws, sentOn, socket, known, gone⟩ := isolated.failed i r found (.inr (.inl returned))
  rw [facts.1] at sentOn
  cases sentOn
  rw [known, Option.all_some, gone] at open'
  cases open'

end Mirage.ReconnectSafety
