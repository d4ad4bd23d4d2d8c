import Mirage.EventRun

/-! The dashboard's client of one case: the reducer of realtime.ts, the hook of
useRealtime.ts that feeds it, and the server behind them. -/

namespace Mirage.RealtimeClient
open EventRun

structure Update where
  sequence : ℕ
  updateId : String
  updateType : String

structure Model where
  updates : ℕ

inductive ConnectionStatus where
  | connecting
  | connected
  | reconnecting
  | stale
  deriving DecidableEq

/-- `seenUpdateIds` lists the set in the order of insertion. -/
structure RealtimeState where
  model : Option Model
  lastSequence : ℕ
  seenUpdateIds : List String
  connection : ConnectionStatus
  needsRefresh : Bool

inductive RealtimeAction where
  | model (m : Model)
  | status (c : ConnectionStatus)
  | update (u : Update)

def initialRealtimeState : RealtimeState := ⟨none, 0, [], .connecting, false⟩

def sequenceGap (s : RealtimeState) (sequence : ℕ) : Bool :=
  0 < s.lastSequence && sequence ≠ s.lastSequence + 1

def fullRefresh (u : Update) : Bool := u.updateType = "FULL_REFRESH_REQUIRED"

/-- `while (seen.size > 1000) seen.delete(…)`, from the front. -/
def newest (seen : List String) : List String := seen.drop (seen.length - 1000)

def realtimeReducer (s : RealtimeState) : RealtimeAction → RealtimeState
  | .model m => { s with model := some m, needsRefresh := false }
  | .status c => { s with connection := c }
  | .update u =>
    if u.updateId ∈ s.seenUpdateIds then s
    else
      { s with
        lastSequence := max s.lastSequence u.sequence
        seenUpdateIds := newest (s.seenUpdateIds ++ [u.updateId])
        connection := .connected
        needsRefresh := s.needsRefresh || sequenceGap s u.sequence || fullRefresh u }

structure Fetch where
  initial : Bool
  served : Option Model

structure World where
  committed : List Update
  client : RealtimeState
  fetches : List Fetch
  /-- The first fetch has returned, and the hook goes on to connect. -/
  loaded : Bool
  streaming : Bool
  /-- The positions of the updates that were delivered, and the first position behind them. -/
  delivered : List ℕ
  next : ℕ

def start : World := ⟨[], initialRealtimeState, [⟨true, none⟩], false, false, [], 0⟩

inductive Event where
  | commit (u : Update)
  | serve (k : ℕ)
  | respond (k : ℕ)
  | fail (k : ℕ)
  | connect (again : Bool)
  | open
  | close
  | lose
  /-- The update at a position, or the frame that stands for a stretch that ends there. -/
  | deliver (i : ℕ) (overflow : Bool)

/-- An action and the effect on `needsRefresh`, which requests a model when the flag is raised. -/
def dispatch (w : World) (a : RealtimeAction) : World :=
  let client := realtimeReducer w.client a
  { w with
    client
    fetches := if !w.client.needsRefresh && client.needsRefresh then w.fetches ++ [⟨false, none⟩] else w.fetches }

def frameOf (u : Update) (overflow : Bool) : Update :=
  if overflow then { u with updateType := "FULL_REFRESH_REQUIRED" } else u

def deliverable (w : World) (i : ℕ) : Option Update :=
  if w.streaming && w.next ≤ i then w.committed[i]? else none

def step (w : World) : Event → World
  | .commit u =>
    if w.committed.all fun v => v.sequence < u.sequence && v.updateId ≠ u.updateId then
      { w with committed := w.committed ++ [u] }
    else w
  | .serve k => match w.fetches[k]? with
    | some f => { w with fetches := w.fetches.set k { f with served := some ⟨w.committed.length⟩ } }
    | none => w
  | .respond k => match w.fetches[k]? with
    | some ⟨initial, some m⟩ =>
      dispatch { w with fetches := w.fetches.eraseIdx k, loaded := w.loaded || initial } (.model m)
    | _ => w
  | .fail k => match w.fetches[k]? with
    | some _ => dispatch { w with fetches := w.fetches.eraseIdx k } (.status .stale)
    | none => w
  | .connect again =>
    if w.loaded && !w.streaming then dispatch w (.status (if again then .reconnecting else .connecting)) else w
  | .open =>
    if w.loaded && !w.streaming then dispatch { w with streaming := true } (.status .connected) else w
  | .close => { w with streaming := false }
  | .lose => if w.loaded then dispatch { w with streaming := false } (.status .reconnecting) else w
  | .deliver i overflow => match deliverable w i with
    | some u =>
      dispatch { w with delivered := w.delivered ++ [i], next := i + 1 } (.update (frameOf u overflow))
    | none => w

def Reflects (model : Option Model) (delivered : List ℕ) : Prop :=
  ∀ i ∈ delivered, ∃ m, model = some m ∧ i < m.updates

def NotSilentlyStale (w : World) : Prop :=
  w.client.connection = .connected → w.fetches = [] →
    w.client.needsRefresh = true ∨ Reflects w.client.model w.delivered

/-- Where no fetch is in flight: a delivered update asks for a refresh or is in the model with all before
it, the model that arrives last has every update delivered before, and so has the one that is held when a
stream opens, unless a refresh is wanted. -/
def admitted (w : World) : Event → Prop
  | .deliver i overflow => ∀ u, deliverable w i = some u → w.fetches = [] →
      w.client.needsRefresh = true ∨ sequenceGap w.client u.sequence = true ∨
        fullRefresh (frameOf u overflow) = true ∨ Reflects w.client.model (w.delivered ++ [i])
  | .respond k => ∀ f m, w.fetches[k]? = some f → f.served = some m → w.fetches.eraseIdx k = [] →
      w.client.connection = .connected → Reflects (some m) w.delivered
  | .open => w.loaded = true → w.streaming = false → w.fetches = [] →
      w.client.needsRefresh = true ∨ Reflects w.client.model w.delivered
  | _ => True

structure Inv (w : World) : Prop where
  distinct : ∀ (i j : ℕ) (u v : Update), w.committed[i]? = some u → w.committed[j]? = some v → u.updateId = v.updateId → i = j
  seen : ∀ id ∈ w.client.seenUpdateIds, ∃ (i : ℕ) (u : Update), i < w.next ∧ w.committed[i]? = some u ∧ u.updateId = id

section
variable {w : World}

theorem frameOf_updateId (u : Update) (overflow : Bool) : (frameOf u overflow).updateId = u.updateId := by
  cases overflow <;> rfl

theorem frameOf_sequence (u : Update) (overflow : Bool) : (frameOf u overflow).sequence = u.sequence := by
  cases overflow <;> rfl

theorem deliverable_eq_some {i : ℕ} {u : Update} (found : deliverable w i = some u) :
    w.next ≤ i ∧ w.committed[i]? = some u := by
  unfold deliverable at found
  split at found
  · rename_i open_
    rw [Bool.and_eq_true, decide_eq_true_eq] at open_
    exact ⟨open_.2, found⟩
  · cases found

theorem Inv.unseen (inv : Inv w) {i : ℕ} {u : Update} (found : deliverable w i = some u) :
    u.updateId ∉ w.client.seenUpdateIds := by
  intro seen
  obtain ⟨behind, at_⟩ := deliverable_eq_some found
  obtain ⟨j, v, early, there, same⟩ := inv.seen _ seen
  have := inv.distinct j i v u there at_ same
  omega

theorem seen_update {s : RealtimeState} {u : Update} {id : String}
    (mem : id ∈ (realtimeReducer s (.update u)).seenUpdateIds) : id ∈ s.seenUpdateIds ∨ id = u.updateId := by
  by_cases before : u.updateId ∈ s.seenUpdateIds
  · rw [realtimeReducer, if_pos before] at mem
    exact .inl mem
  · rw [realtimeReducer, if_neg before] at mem
    simp only [newest] at mem
    rcases List.mem_append.mp (List.mem_of_mem_drop mem) with old | new
    · exact .inl old
    · exact .inr (List.mem_singleton.mp new)

theorem Inv.change (inv : Inv w) {w' : World} (committed : w'.committed = w.committed) (next : w'.next = w.next)
    (seen : w'.client.seenUpdateIds = w.client.seenUpdateIds) : Inv w' :=
  ⟨by rw [committed]; exact inv.distinct, by rw [committed, next, seen]; exact inv.seen⟩

theorem step_inv (inv : Inv w) (e : Event) : Inv (step w e) := by
  cases e with
  | commit u =>
    rw [step]
    split
    · rename_i new
      have apart : ∀ (j : ℕ) (v : Update), w.committed[j]? = some v → v.updateId ≠ u.updateId := by
        intro j v there same
        have facts := List.all_eq_true.mp new v (List.mem_of_getElem? there)
        rw [Bool.and_eq_true, decide_eq_true_eq, decide_eq_true_eq] at facts
        exact facts.2 same
      constructor
      · intro i j v v' here there same
        rcases concat_cases here with old | ⟨last, rfl⟩
        · rcases concat_cases there with old' | ⟨last', rfl⟩
          · exact inv.distinct i j v v' old old' same
          · exact absurd same (apart i v old)
        · rcases concat_cases there with old' | ⟨last', rfl⟩
          · exact absurd same.symm (apart j v' old')
          · rw [last, last']
      · intro id mem
        obtain ⟨i, v, early, there, same⟩ := inv.seen id mem
        exact ⟨i, v, early, concat_old there, same⟩
    · exact inv
  | serve k =>
    rw [step]
    split
    · exact inv.change rfl rfl rfl
    · exact inv
  | respond k =>
    rw [step]
    split
    · exact inv.change rfl rfl rfl
    · exact inv
  | fail k =>
    rw [step]
    split
    · exact inv.change rfl rfl rfl
    · exact inv
  | connect again =>
    rw [step]
    split
    · exact inv.change rfl rfl rfl
    · exact inv
  | «open» =>
    rw [step]
    split
    · exact inv.change rfl rfl rfl
    · exact inv
  | close => exact inv.change rfl rfl rfl
  | lose =>
    rw [step]
    split
    · exact inv.change rfl rfl rfl
    · exact inv
  | deliver i overflow =>
    rw [step]
    split
    · rename_i u found
      refine ⟨inv.distinct, fun id mem => ?_⟩
      obtain ⟨behind, at_⟩ := deliverable_eq_some found
      rcases seen_update mem with old | new
      · obtain ⟨j, v, early, there, same⟩ := inv.seen id old
        exact ⟨j, v, Nat.lt_succ_of_lt (Nat.lt_of_lt_of_le early behind), there, same⟩
      · exact ⟨i, u, Nat.lt_succ_self i, at_, by rw [new, frameOf_updateId]⟩
    · exact inv

theorem start_inv : Inv start :=
  ⟨fun i j u v here => (by cases here), fun id mem => (by cases mem)⟩

theorem start_fresh : NotSilentlyStale start := fun connected => (by cases connected)

theorem dispatch_fetches (w : World) (a : RealtimeAction) : (dispatch w a).fetches = [] ↔
    w.fetches = [] ∧ ¬ (w.client.needsRefresh = false ∧ (realtimeReducer w.client a).needsRefresh = true) := by
  change (if (!w.client.needsRefresh && (realtimeReducer w.client a).needsRefresh) = true then _ else _) = _ ↔ _
  cases w.client.needsRefresh <;> cases (realtimeReducer w.client a).needsRefresh <;> simp

theorem fresh_same {w' : World} (client : w'.client = w.client) (fetches : w'.fetches = [] ↔ w.fetches = [])
    (delivered : w'.delivered = w.delivered) : NotSilentlyStale w' ↔ NotSilentlyStale w := by
  rw [NotSilentlyStale, NotSilentlyStale, client, fetches, delivered]

theorem respond_exact (k : ℕ) (fresh : NotSilentlyStale w) :
    NotSilentlyStale (step w (.respond k)) ↔ admitted w (.respond k) := by
  rw [step, admitted]
  split
  · rename_i initial m found
    constructor
    · intro after f m' found' served last connected
      cases found.symm.trans found'
      cases served
      refine (after connected ?_).resolve_left fun wanted => (by cases wanted)
      rw [dispatch_fetches]
      exact ⟨last, fun raised => (by cases raised.2)⟩
    · intro ok connected none
      rw [dispatch_fetches] at none
      exact .inr (ok _ m found rfl none.1 connected)
  · rename_i other
    refine ⟨fun _ f m found served => ?_, fun _ => fresh⟩
    obtain ⟨initial, served'⟩ := f
    cases served
    exact absurd found (other initial m)

theorem open_exact (fresh : NotSilentlyStale w) : NotSilentlyStale (step w .open) ↔ admitted w .open := by
  rw [step, admitted]
  split
  · rename_i enabled
    rw [Bool.and_eq_true, Bool.not_eq_true'] at enabled
    constructor
    · intro after _ _ none
      refine after rfl ?_
      rw [dispatch_fetches]
      exact ⟨none, fun raised => (by cases raised.1.symm.trans raised.2)⟩
    · intro ok _ none
      rw [dispatch_fetches] at none
      exact ok enabled.1 enabled.2 none.1
  · rename_i disabled
    refine ⟨fun _ loaded streaming => absurd ?_ disabled, fun _ => fresh⟩
    rw [loaded, streaming]
    rfl

theorem reducer_new {s : RealtimeState} {u : Update} (unseen : u.updateId ∉ s.seenUpdateIds) :
    (realtimeReducer s (.update u)).connection = .connected ∧ (realtimeReducer s (.update u)).model = s.model ∧
      (realtimeReducer s (.update u)).needsRefresh =
        (s.needsRefresh || sequenceGap s u.sequence || fullRefresh u) := by
  rw [realtimeReducer, if_neg unseen]
  exact ⟨rfl, rfl, rfl⟩

theorem deliver_exact (inv : Inv w) (i : ℕ) (overflow : Bool) (fresh : NotSilentlyStale w) :
    NotSilentlyStale (step w (.deliver i overflow)) ↔ admitted w (.deliver i overflow) := by
  rw [step, admitted]
  split
  · rename_i u found
    have unseen : (frameOf u overflow).updateId ∉ w.client.seenUpdateIds := by
      rw [frameOf_updateId]
      exact inv.unseen found
    obtain ⟨connected, model, needs⟩ := reducer_new unseen
    rw [frameOf_sequence] at needs
    have quiet : ∀ w' : World, w'.client = w.client → w'.fetches = w.fetches →
        ((dispatch w' (.update (frameOf u overflow))).fetches = [] ↔ w.fetches = [] ∧
          ¬ (w.client.needsRefresh = false ∧
            (w.client.needsRefresh || sequenceGap w.client u.sequence || fullRefresh (frameOf u overflow)) = true)) := by
      intro w' client fetches
      rw [dispatch_fetches, client, fetches, needs]
    constructor
    · intro after u' found' none
      cases found.symm.trans found'
      by_cases asks : (sequenceGap w.client u.sequence || fullRefresh (frameOf u overflow)) = true
      · rw [Bool.or_eq_true] at asks
        exact .inr (asks.elim .inl fun full => .inr (.inl full))
      · rw [Bool.not_eq_true] at asks
        have still := after connected ((quiet _ rfl rfl).mpr ⟨none, by
          rw [Bool.or_assoc, asks, Bool.or_false]
          exact fun raised => (by cases raised.1.symm.trans raised.2)⟩)
        rcases still with wanted | reflects
        · change (realtimeReducer w.client _).needsRefresh = true at wanted
          rw [needs, Bool.or_assoc, asks, Bool.or_false] at wanted
          exact .inl wanted
        · change Reflects (realtimeReducer w.client _).model _ at reflects
          rw [model] at reflects
          exact .inr (.inr (.inr reflects))
    · intro ok _ none
      obtain ⟨none, still⟩ := (quiet _ rfl rfl).mp none
      change (realtimeReducer w.client _).needsRefresh = true ∨ Reflects (realtimeReducer w.client _).model _
      rw [needs, model]
      rcases ok u found none with wanted | gap | full | reflects
      · rw [wanted]
        exact .inl rfl
      · rw [gap]
        simp
      · rw [full]
        simp
      · exact .inr reflects
  · rename_i other
    refine ⟨fun _ u found => ?_, fun _ => fresh⟩
    rw [other] at found
    cases found

theorem step_exact (inv : Inv w) (e : Event) (fresh : NotSilentlyStale w) :
    NotSilentlyStale (step w e) ↔ admitted w e := by
  cases e with
  | respond k => exact respond_exact k fresh
  | «open» => exact open_exact fresh
  | deliver i overflow => exact deliver_exact inv i overflow fresh
  | commit u =>
    refine iff_of_true ?_ trivial
    rw [step]
    split
    · exact (fresh_same rfl Iff.rfl rfl).mpr fresh
    · exact fresh
  | serve k =>
    refine iff_of_true ?_ trivial
    rw [step]
    split
    · refine (fresh_same ?_ ?_ ?_).mpr fresh
      · rfl
      · exact List.set_eq_nil_iff _ _
      · rfl
    · exact fresh
  | fail k =>
    refine iff_of_true ?_ trivial
    rw [step]
    split
    · exact fun connected => (by cases connected)
    · exact fresh
  | connect again =>
    refine iff_of_true ?_ trivial
    rw [step]
    split
    · intro connected
      change (if again = true then ConnectionStatus.reconnecting else .connecting) = .connected at connected
      cases again <;> cases connected
    · exact fresh
  | close => exact iff_of_true ((fresh_same rfl Iff.rfl rfl).mpr fresh) trivial
  | lose =>
    refine iff_of_true ?_ trivial
    rw [step]
    split
    · exact fun connected => (by cases connected)
    · exact fresh

/-- No connected client is silently stale in a run exactly if every step of the run is admitted. -/
theorem not_silently_stale_iff (events : List Event) :
    Throughout step NotSilentlyStale start events ↔ Along step admitted start events :=
  throughout_iff_along (I := Inv) (fun _ e inv => step_inv inv e) (fun _ e inv fresh => step_exact inv e fresh)
    start_inv start_fresh events

end

def firstUpdateRun : List Event :=
  [.serve 0, .respond 0, .connect false, .open, .commit ⟨1, "01ARZ3NDEKTSV4RRFFQ69G5FAV", "CASE_UPDATED"⟩,
    .deliver 0 false]

/-- The update is not in the model, and nothing asks for another one. -/
theorem firstUpdate_silent : ¬ Throughout step NotSilentlyStale start firstUpdateRun := by
  intro throughout
  rcases throughout_last throughout rfl rfl with wanted | reflects
  · exact absurd wanted (by decide)
  · obtain ⟨m, held, contains⟩ := reflects 0 (List.mem_singleton.mpr rfl)
    cases held
    exact absurd contains (by decide)

end Mirage.RealtimeClient
