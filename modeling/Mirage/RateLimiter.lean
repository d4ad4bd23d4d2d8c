import Mirage.EventRun
import Mathlib.Data.List.Induction
import Mathlib.Data.List.Nodup
import Mathlib.Algebra.Order.Group.Int
import Mathlib.Logic.Function.Basic

/-! `SlidingWindowRateLimiter` of analyst.py. -/

namespace Mirage.RateLimiter
open EventRun

/-- A dimension and its value in a call. -/
abbrev Key := String × String

structure Limiter where
  limits : List (String × ℤ)
  window : ℤ

/-- The arguments of `consume`; `dimensions` is a dictionary. -/
structure Call where
  dimensions : List Key
  distinct : (dimensions.map Prod.fst).Nodup
  now : ℤ

/-- `_events`, oldest first. -/
abbrev Events := Key → List ℤ

inductive Raised where
  | keyError (dimension : String)
  deriving DecidableEq

section
variable (limiter : Limiter)

/-- `while queue and now - queue[0] >= self.window: queue.popleft()`. -/
def evict (now : ℤ) : List ℤ → List ℤ
  | [] => []
  | first :: queue => if limiter.window ≤ now - first then evict now queue else first :: queue

def check (now : ℤ) : List Key → Events → Except Raised Bool × Events
  | [], events => (.ok true, events)
  | key :: rest, events =>
    let events := Function.update events key (evict limiter now (events key))
    match limiter.limits.lookup key.1 with
    | none => (.error (.keyError key.1), events)
    | some limit => if limit ≤ (events key).length then (.ok false, events) else check now rest events

def append (now : ℤ) (keys : List Key) (events : Events) : Events :=
  keys.foldl (fun events key => Function.update events key (events key ++ [now])) events

def passes : Except Raised Bool → Bool
  | .ok answer => answer
  | .error _ => false

def consume (events : Events) (call : Call) : Except Raised Bool × Events :=
  let (verdict, events) := check limiter call.now call.dimensions events
  (verdict, if passes verdict then append call.now call.dimensions events else events)

structure History where
  events : Events
  accepted : List Call

def step (h : History) (call : Call) : History :=
  let (verdict, events) := consume limiter h.events call
  ⟨events, if passes verdict then h.accepted ++ [call] else h.accepted⟩

def fresh : History := ⟨fun _ => [], []⟩

def after (calls : List Call) : History := run (step limiter) fresh calls

def verdict (before : List Call) (call : Call) : Except Raised Bool :=
  (consume limiter (after limiter before).events call).1

def times (key : Key) (calls : List Call) : List ℤ :=
  (calls.filter fun call => key ∈ call.dimensions).map Call.now

def live (now : ℤ) (key : Key) (calls : List Call) : ℕ :=
  (times key calls).countP fun t => now - t < limiter.window

def Exhausted (key : Key) (count : ℕ) : Prop := ∃ limit, limiter.limits.lookup key.1 = some limit ∧ limit ≤ count

def Known (call : Call) : Prop := ∀ key ∈ call.dimensions, (limiter.limits.lookup key.1).isSome

end

section
variable {limiter : Limiter}

theorem evict_split (now : ℤ) (queue : List ℤ) :
    ∃ gone, queue = gone ++ evict limiter now queue ∧ ∀ t ∈ gone, limiter.window ≤ now - t := by
  induction queue with
  | nil => exact ⟨[], rfl, fun t mem => (by cases mem)⟩
  | cons first queue ih =>
    rw [evict]
    split
    next expired =>
      obtain ⟨gone, parts, all⟩ := ih
      exact ⟨first :: gone, congrArg (first :: ·) parts, List.forall_mem_cons.mpr ⟨expired, all⟩⟩
    next => exact ⟨[], rfl, fun t mem => (by cases mem)⟩

theorem evict_evict (now : ℤ) (queue : List ℤ) :
    evict limiter now (evict limiter now queue) = evict limiter now queue := by
  induction queue with
  | nil => rfl
  | cons first queue ih =>
    rw [evict]
    split
    next => exact ih
    next stays => rw [evict, if_neg stays]

theorem evict_length {now : ℤ} {queue : List ℤ} (ordered : queue.Pairwise (· ≤ ·)) :
    (evict limiter now queue).length = queue.countP fun t => now - t < limiter.window := by
  induction queue with
  | nil => rfl
  | cons first queue ih =>
    rw [List.pairwise_cons] at ordered
    rw [evict]
    split
    next expired =>
      rw [ih ordered.2, List.countP_cons_of_neg]
      simpa using expired
    next stays =>
      refine (List.countP_eq_length.mpr ?_).symm
      intro t mem
      have behind : first ≤ t := (List.mem_cons.mp mem).elim (fun same => same ▸ le_refl first) (ordered.1 t)
      rw [decide_eq_true_eq]
      omega

def Trimmed (limiter : Limiter) (now : ℤ) (events events' : Events) : Prop :=
  ∀ key, events' key = events key ∨ events' key = evict limiter now (events key)

theorem Trimmed.evict_eq {now : ℤ} {events events' : Events} (trimmed : Trimmed limiter now events events') (key : Key) :
    evict limiter now (events' key) = evict limiter now (events key) := by
  rcases trimmed key with same | same
  · rw [same]
  · rw [same, evict_evict]

theorem Trimmed.trans {now : ℤ} {e₁ e₂ e₃ : Events} (first : Trimmed limiter now e₁ e₂)
    (second : Trimmed limiter now e₂ e₃) : Trimmed limiter now e₁ e₃ := by
  intro key
  rcases second key with same | same
  · rw [same]
    exact first key
  · rw [same, first.evict_eq]
    exact .inr rfl

theorem trimmed_update (now : ℤ) (events : Events) (key : Key) :
    Trimmed limiter now events (Function.update events key (evict limiter now (events key))) := by
  intro other
  by_cases same : other = key
  · subst same
    exact .inr (Function.update_self ..)
  · exact .inl (Function.update_of_ne same ..)

theorem check_trimmed (now : ℤ) (keys : List Key) (events : Events) :
    Trimmed limiter now events (check limiter now keys events).2 := by
  induction keys generalizing events with
  | nil => exact fun key => .inl rfl
  | cons key rest ih =>
    have looked : Trimmed limiter now events _ := trimmed_update now events key
    rw [check]
    split
    next => exact looked
    next =>
      split
      next => exact looked
      next => exact looked.trans (ih _)

theorem check_cases {now : ℤ} {keys : List Key} (known : ∀ key ∈ keys, (limiter.limits.lookup key.1).isSome)
    (events : Events) :
    (∃ key ∈ keys, Exhausted limiter key (evict limiter now (events key)).length) ∧
        (check limiter now keys events).1 = .ok false ∨
      (∀ key ∈ keys, ¬ Exhausted limiter key (evict limiter now (events key)).length) ∧
        (check limiter now keys events).1 = .ok true := by
  induction keys generalizing events with
  | nil => exact .inr ⟨fun key mem => (by cases mem), rfl⟩
  | cons key rest ih =>
    rw [List.forall_mem_cons] at known
    obtain ⟨limit, limited⟩ := Option.isSome_iff_exists.mp known.1
    simp only [check, limited, Function.update_self]
    by_cases full : limit ≤ (evict limiter now (events key)).length
    · rw [if_pos full]
      exact .inl ⟨⟨key, List.mem_cons_self, limit, limited, full⟩, rfl⟩
    · have room : ¬ Exhausted limiter key (evict limiter now (events key)).length := by
        rintro ⟨_, same, reached⟩
        rw [limited, Option.some.injEq] at same
        exact full (same ▸ reached)
      have looked : Trimmed limiter now events _ := trimmed_update now events key
      rw [if_neg full]
      refine (ih known.2 (Function.update events key (evict limiter now (events key)))).imp ?_ ?_
      · rintro ⟨⟨other, mem, reached⟩, refused⟩
        rw [looked.evict_eq] at reached
        exact ⟨⟨other, List.mem_cons_of_mem _ mem, reached⟩, refused⟩
      · rintro ⟨rooms, passed⟩
        refine ⟨List.forall_mem_cons.mpr ⟨room, fun other mem => ?_⟩, passed⟩
        rw [← looked.evict_eq other]
        exact rooms other mem

theorem append_eq {now : ℤ} {keys : List Key} (distinct : keys.Nodup) (events : Events) (key : Key) :
    append now keys events key = if key ∈ keys then events key ++ [now] else events key := by
  induction keys generalizing events with
  | nil => rfl
  | cons other rest ih =>
    rw [List.nodup_cons] at distinct
    rw [append, List.foldl_cons, ← append, ih distinct.2]
    by_cases same : key = other
    · subst same
      rw [if_neg distinct.1, if_pos List.mem_cons_self, Function.update_self]
    · simp only [Function.update_of_ne same, List.mem_cons, same, false_or]

theorem times_concat (key : Key) (calls : List Call) (call : Call) :
    times key (calls ++ [call]) = times key calls ++ if key ∈ call.dimensions then [call.now] else [] := by
  rw [times, List.filter_append, List.map_append, ← times, List.filter_singleton]
  by_cases mem : key ∈ call.dimensions <;> simp [mem]

/-! The queues against the accepted calls. -/

/-- Each queue is what follows after times that have left the window; no time is ahead of `now`. -/
structure Inv (limiter : Limiter) (h : History) (now : ℤ) : Prop where
  queues : ∀ key, ∃ gone, times key h.accepted = gone ++ h.events key ∧ ∀ t ∈ gone, limiter.window ≤ now - t
  ordered : (h.accepted.map Call.now).Pairwise (· ≤ ·)
  past : ∀ t ∈ h.accepted.map Call.now, t ≤ now

theorem times_sublist (key : Key) (calls : List Call) : (times key calls).Sublist (calls.map Call.now) :=
  List.filter_sublist.map _

theorem Inv.later {h : History} {now later : ℤ} (inv : Inv limiter h now) (passes : now ≤ later) :
    Inv limiter h later where
  queues key := by
    obtain ⟨gone, parts, left⟩ := inv.queues key
    exact ⟨gone, parts, fun t mem => le_trans (left t mem) (Int.sub_le_sub_right passes t)⟩
  ordered := inv.ordered
  past t mem := le_trans (inv.past t mem) passes

theorem Inv.live_eq {h : History} {now : ℤ} (inv : Inv limiter h now) (key : Key) :
    (evict limiter now (h.events key)).length = live limiter now key h.accepted := by
  obtain ⟨gone, parts, left⟩ := inv.queues key
  have ordered := inv.ordered.sublist (times_sublist key h.accepted)
  rw [parts, List.pairwise_append] at ordered
  have none : gone.countP (fun t => now - t < limiter.window) = 0 :=
    List.countP_eq_zero.mpr fun t mem inside => not_le.mpr (of_decide_eq_true inside) (left t mem)
  rw [evict_length ordered.2.1, live, parts, List.countP_append, none, Nat.zero_add]

theorem Inv.consume_cases {h : History} {call : Call} (inv : Inv limiter h call.now) (known : Known limiter call) :
    (∃ key ∈ call.dimensions, Exhausted limiter key (live limiter call.now key h.accepted)) ∧
        (consume limiter h.events call).1 = .ok false ∧ (step limiter h call).accepted = h.accepted ∨
      (∀ key ∈ call.dimensions, ¬ Exhausted limiter key (live limiter call.now key h.accepted)) ∧
        (consume limiter h.events call).1 = .ok true ∧ (step limiter h call).accepted = h.accepted ++ [call] := by
  have cases := @check_cases _ call.now _ known h.events
  simp only [inv.live_eq] at cases
  refine cases.imp ?_ ?_
  · rintro ⟨full, refused⟩
    refine ⟨full, refused, ?_⟩
    change (if passes (check limiter call.now call.dimensions h.events).1 then _ else _) = _
    rw [refused]
    rfl
  · rintro ⟨room, passed⟩
    refine ⟨room, passed, ?_⟩
    change (if passes (check limiter call.now call.dimensions h.events).1 then _ else _) = _
    rw [passed]
    rfl

theorem step_inv {h : History} {call : Call} (inv : Inv limiter h call.now) (known : Known limiter call) :
    Inv limiter (step limiter h call) call.now := by
  have trimmed : Trimmed limiter call.now h.events _ := check_trimmed call.now call.dimensions h.events
  have queues (key : Key) : ∃ gone, times key h.accepted =
      gone ++ (check limiter call.now call.dimensions h.events).2 key ∧ ∀ t ∈ gone, limiter.window ≤ call.now - t := by
    obtain ⟨gone, parts, left⟩ := inv.queues key
    rcases trimmed key with same | same
    · exact ⟨gone, same ▸ parts, left⟩
    · obtain ⟨more, split, expired⟩ := @evict_split limiter call.now (h.events key)
      refine ⟨gone ++ more, ?_, fun t mem => (List.mem_append.mp mem).elim (left t) (expired t)⟩
      rw [same, List.append_assoc, ← split, parts]
  rcases inv.consume_cases known with ⟨_, refused, same⟩ | ⟨_, passed, counted⟩
  · have events : (step limiter h call).events = (check limiter call.now call.dimensions h.events).2 := by
      change (if passes (consume limiter h.events call).1 then _ else _) = _
      rw [refused]
      rfl
    refine ⟨fun key => ?_, same ▸ inv.ordered, same ▸ inv.past⟩
    rw [same, events]
    exact queues key
  · have events : (step limiter h call).events =
        append call.now call.dimensions (check limiter call.now call.dimensions h.events).2 := by
      change (if passes (consume limiter h.events call).1 then _ else _) = _
      rw [passed]
      rfl
    refine ⟨fun key => ?_, ?_, ?_⟩
    · obtain ⟨gone, parts, left⟩ := queues key
      refine ⟨gone, ?_, left⟩
      rw [counted, events, times_concat, append_eq call.distinct.of_map, parts]
      split
      next => rw [List.append_assoc]
      next => rw [List.append_nil]
    · rw [counted, List.map_append, List.pairwise_append]
      refine ⟨inv.ordered, List.pairwise_singleton _ _, fun t mem now last => ?_⟩
      rw [List.mem_singleton.mp last]
      exact inv.past t mem
    · intro t mem
      rw [counted, List.map_append, List.mem_append] at mem
      exact mem.elim (inv.past t) fun last => (List.mem_singleton.mp last).le

structure Regular (limiter : Limiter) (calls : List Call) : Prop where
  ordered : calls.Pairwise fun a b => a.now ≤ b.now
  known : ∀ call ∈ calls, Known limiter call

theorem run_inv {h : History} {now : ℤ} (inv : Inv limiter h now) {calls : List Call} (regular : Regular limiter calls)
    (ahead : ∀ call ∈ calls, now ≤ call.now) {last : ℤ} (passes : now ≤ last) (reached : ∀ call ∈ calls, call.now ≤ last) :
    Inv limiter (run (step limiter) h calls) last := by
  induction calls generalizing h now with
  | nil => exact inv.later passes
  | cons call calls ih =>
    obtain ⟨ordered, known⟩ := regular
    rw [List.pairwise_cons] at ordered
    rw [List.forall_mem_cons] at known ahead reached
    exact ih (step_inv (inv.later ahead.1) known.1) ⟨ordered.2, known.2⟩ ordered.1 reached.1 reached.2

theorem fresh_inv (now : ℤ) : Inv limiter fresh now where
  queues _ := ⟨[], rfl, fun t mem => (by cases mem)⟩
  ordered := .nil
  past t mem := (by cases mem)

theorem before_inv {before rest : List Call} {call : Call} (regular : Regular limiter (before ++ call :: rest)) :
    Inv limiter (after limiter before) call.now ∧ Known limiter call := by
  have ordered := List.pairwise_append.mp regular.ordered
  have known (c : Call) (mem : c ∈ before) := regular.known c (List.mem_append_left _ mem)
  have reached (c : Call) (mem : c ∈ before) := ordered.2.2 c mem call List.mem_cons_self
  refine ⟨?_, regular.known call (List.mem_append_right _ List.mem_cons_self)⟩
  cases before with
  | nil => exact fresh_inv _
  | cons first before =>
    refine run_inv (fresh_inv first.now) ⟨ordered.1, known⟩ ?_ (reached first List.mem_cons_self) reached
    exact List.forall_mem_cons.mpr ⟨le_refl _, (List.pairwise_cons.mp ordered.1).1⟩

def Bounded (limiter : Limiter) (calls : List Call) : Prop :=
  ∀ key limit, limiter.limits.lookup key.1 = some limit → ∀ start,
    ((times key calls).countP fun t => start ≤ t ∧ t < start + limiter.window) ≤ limit.toNat

theorem step_bounded {h : History} {call : Call} (inv : Inv limiter h call.now) (known : Known limiter call)
    (bounded : Bounded limiter h.accepted) : Bounded limiter (step limiter h call).accepted := by
  rcases inv.consume_cases known with ⟨_, _, same⟩ | ⟨room, _, counted⟩
  · exact same ▸ bounded
  · intro key limit limited start
    rw [counted, times_concat, List.countP_append]
    by_cases mem : key ∈ call.dimensions
    · have below : (live limiter call.now key h.accepted : ℤ) < limit :=
        not_le.mp fun reached => room key mem ⟨limit, limited, reached⟩
      rw [if_pos mem, List.countP_singleton]
      split
      next inside =>
        rw [decide_eq_true_eq] at inside
        -- whoever shares the window with this call is still in the window that ends now
        have sharing : ((times key h.accepted).countP fun t => start ≤ t ∧ t < start + limiter.window) ≤
            live limiter call.now key h.accepted := by
          refine List.countP_mono_left fun t _ shares => ?_
          rw [decide_eq_true_eq] at shares ⊢
          omega
        omega
      next => exact bounded key limit limited start
    · rw [if_neg mem]
      exact bounded key limit limited start

theorem run_bounded {calls : List Call} (regular : Regular limiter calls) :
    Bounded limiter (after limiter calls).accepted := by
  induction calls using List.reverseRecOn with
  | nil => exact fun key limit _ start => Nat.zero_le _
  | append_singleton before call ih =>
    obtain ⟨inv, known⟩ := @before_inv _ _ [] _ regular
    have earlier : Regular limiter before :=
      ⟨(List.pairwise_append.mp regular.ordered).1, fun c mem => regular.known c (List.mem_append_left _ mem)⟩
    rw [after, run_append]
    exact step_bounded inv known (ih earlier)

theorem same_step {h h' : History} {call : Call} (inv : Inv limiter h call.now) (inv' : Inv limiter h' call.now)
    (same : h.accepted = h'.accepted) (known : Known limiter call) :
    (consume limiter h.events call).1 = (consume limiter h'.events call).1 ∧
      (step limiter h call).accepted = (step limiter h' call).accepted := by
  have other := inv'.consume_cases known
  rw [← same] at other
  rcases inv.consume_cases known with ⟨⟨key, mem, full⟩, refused, kept⟩ | ⟨room, passed, counted⟩
  · rcases other with ⟨_, refused', kept'⟩ | ⟨room, _⟩
    · exact ⟨refused.trans refused'.symm, kept.trans kept'.symm⟩
    · exact absurd full (room key mem)
  · rcases other with ⟨⟨key, mem, full⟩, _⟩ | ⟨_, passed', counted'⟩
    · exact absurd full (room key mem)
    · exact ⟨passed.trans passed'.symm, counted.trans counted'.symm⟩

theorem same_verdict {h h' : History} {now : ℤ} (inv : Inv limiter h now) (inv' : Inv limiter h' now)
    (same : h.accepted = h'.accepted) {calls : List Call} {call : Call} (regular : Regular limiter (calls ++ [call]))
    (ahead : ∀ c ∈ calls ++ [call], now ≤ c.now) :
    (consume limiter (run (step limiter) h calls).events call).1 =
      (consume limiter (run (step limiter) h' calls).events call).1 := by
  induction calls generalizing h h' now with
  | nil =>
    have reached := ahead call List.mem_cons_self
    exact (same_step (inv.later reached) (inv'.later reached) same (regular.known call List.mem_cons_self)).1
  | cons first calls ih =>
    obtain ⟨ordered, known⟩ := regular
    rw [List.cons_append, List.pairwise_cons] at ordered
    rw [List.cons_append, List.forall_mem_cons] at known ahead
    have here := inv.later ahead.1
    have here' := inv'.later ahead.1
    exact ih (step_inv here known.1) (step_inv here' known.1) (same_step here here' same known.1).2
      ⟨ordered.2, known.2⟩ ordered.1

end

/-- For calls in the order of time. No window of either kind has more accepted calls of a dimension's value
than its limit; a call is refused exactly for a value that has as many within the last window; and
without a refused call all later calls are answered as with it. -/
theorem rate_limited (limiter : Limiter) (calls : List Call) (ordered : calls.Pairwise fun a b => a.now ≤ b.now)
    (known : ∀ call ∈ calls, ∀ key ∈ call.dimensions, (limiter.limits.lookup key.1).isSome) :
    (∀ dimension value limit start, limiter.limits.lookup dimension = some limit →
      ((times (dimension, value) (after limiter calls).accepted).countP fun t =>
        start ≤ t ∧ t < start + limiter.window) ≤ limit.toNat ∧
      ((times (dimension, value) (after limiter calls).accepted).countP fun t =>
        start < t ∧ t ≤ start + limiter.window) ≤ limit.toNat) ∧
    ∀ before call rest, calls = before ++ call :: rest →
      (verdict limiter before call = .ok false ∨ verdict limiter before call = .ok true) ∧
      (verdict limiter before call = .ok false ↔ ∃ key ∈ call.dimensions, ∃ limit,
        limiter.limits.lookup key.1 = some limit ∧
          limit ≤ ((times key (after limiter before).accepted).countP fun t => call.now - t < limiter.window)) ∧
      (verdict limiter before call = .ok false → ∀ between later, between ++ [later] <+: rest →
        verdict limiter (before ++ call :: between) later = verdict limiter (before ++ between) later) := by
  have regular : Regular limiter calls := ⟨ordered, known⟩
  refine ⟨fun dimension value limit start limited => ?_, fun before call rest parts => ?_⟩
  · have bounded := run_bounded regular (dimension, value) limit limited
    refine ⟨bounded start, le_of_eq_of_le (List.countP_congr fun t _ => ?_) (bounded (start + 1))⟩
    rw [decide_eq_true_eq, decide_eq_true_eq]
    omega
  · subst parts
    obtain ⟨inv, here⟩ := before_inv regular
    have cases := inv.consume_cases here
    refine ⟨cases.imp (fun c => c.2.1) fun c => c.2.1, ⟨fun refused => ?_, fun full => ?_⟩, ?_⟩
    · exact (cases.resolve_right fun c => by cases refused.symm.trans c.2.1).1
    · exact (cases.resolve_right fun c => by
        obtain ⟨key, mem, limited⟩ := full
        exact c.1 key mem limited).2.1
    · rintro refused between later ⟨more, rfl⟩
      obtain ⟨_, _, kept⟩ := cases.resolve_right fun c => by cases refused.symm.trans c.2.1
      have ordered := (List.pairwise_append.mp regular.ordered).2.1
      rw [List.pairwise_cons] at ordered
      have later_known (c : Call) (mem : c ∈ between ++ [later]) : Known limiter c :=
        known c (List.mem_append_right _ (List.mem_cons_of_mem _ (List.mem_append_left _ mem)))
      rw [verdict, verdict, after, after, run_append, run_append, run_cons]
      exact same_verdict (step_inv inv here) inv kept
        ⟨ordered.2.sublist (List.sublist_append_left _ _), later_known⟩
        fun c mem => ordered.1 c (List.mem_append_left _ mem)

def twoPerMinute : Limiter := ⟨[("analyst", 2)], 60000000⟩

def callAt (now : ℤ) : Call := ⟨[("analyst", "a")], List.nodup_singleton _, now⟩

def noneAllowed : Limiter := ⟨[("analyst", -1)], 60000000⟩

theorem noneAllowed_exceeds : noneAllowed.limits.lookup "analyst" = some (-1) ∧
    ¬ (((times ("analyst", "a") (after noneAllowed [callAt 0]).accepted).countP fun t =>
      0 ≤ t ∧ t < 0 + noneAllowed.window : ℕ) : ℤ) ≤ -1 := by
  exact ⟨rfl, by decide⟩

/-- The third call comes too early, and leaves the fourth as it is. -/
theorem twoPerMinute_limited :
    verdict twoPerMinute [callAt 0, callAt 1] (callAt 2) = .ok false ∧
      verdict twoPerMinute [callAt 0, callAt 1, callAt 2] (callAt 60000000) =
        verdict twoPerMinute [callAt 0, callAt 1] (callAt 60000000) := by
  have answers := (rate_limited twoPerMinute [callAt 0, callAt 1, callAt 2, callAt 60000000] (by decide)
    (by decide)).2 [callAt 0, callAt 1] (callAt 2) [callAt 60000000] rfl
  have refused : verdict twoPerMinute [callAt 0, callAt 1] (callAt 2) = .ok false := by rfl
  exact ⟨refused, answers.2.2 refused [] (callAt 60000000) (List.prefix_refl _)⟩

end Mirage.RateLimiter
