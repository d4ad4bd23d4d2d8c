import Mirage.EventRun
import Mathlib.Data.List.Sort
import Mathlib.Algebra.Group.Nat.Defs

/-! Routing decisions of routing.py: `write_routing_decision` statement by statement, so
that the transactions of several analysts may interleave, and `resolve_route`. -/

namespace Mirage.Routing
open EventRun

def buildMatchKey (protocol listenerId sourceIp principal : String) : String :=
  protocol ++ "|" ++ listenerId ++ "|" ++ sourceIp ++ "|" ++ principal

def defaultTarget : String := "ENDPOINT"

/-- A row of `routing_decisions`. -/
structure RoutingRow where
  caseId : String
  matchKey : String
  target : String
  validFrom : Int
  validUntil : Option Int
  version : ℕ
  createdBy : String

/-- A `steering.decision_recorded` event. -/
structure SteeringEvent where
  decisionId : String
  caseId : String
  protocol : String
  matchKey : String
  target : String
  decisionVersion : ℕ
  action : String
  sequence : ℕ
  actorType : String
  envelopeCaseId : Option String

structure AuditEntry where
  actor : String
  action : String
  target : String
  correlationId : String
  detail : String

structure Decision where
  row : RoutingRow
  created : SteeringEvent
  audit : AuditEntry

structure WriteCall where
  caseId : String
  matchKey : String
  protocol : String
  target : String
  createdBy : String
  validFrom : Option Int
  validUntil : Option Int
  decisionId : String
  /-- The case exists, and the event meets its contract. -/
  stored : Bool

inductive Phase where
  | opened
  | numbered (version : ℕ)
  | inserted (d : Decision)
  | over

/-- A transaction and its `now()`. -/
structure Writer where
  call : WriteCall
  now : Int
  phase : Phase

structure Answer where
  matchKey : String
  now : Int
  target : String
  event : SteeringEvent
  /-- The decisions that were committed then. -/
  seen : List Decision

structure World where
  decisions : List Decision
  writers : List Writer
  answers : List Answer
  identifiers : List String

def start : World := ⟨[], [], [], []⟩

structure ResolveCall where
  matchKey : String
  protocol : String
  now : Int
  decisionId : String
  caseId : String
  stored : Bool

inductive Event where
  | opens (call : WriteCall) (now : Int)
  | numbers (i : ℕ)
  | inserts (i : ℕ)
  | commits (i : ℕ)
  | aborts (i : ℕ)
  | resolve (call : ResolveCall)

def RoutingRow.validAt (r : RoutingRow) (t : Int) : Bool :=
  r.validFrom ≤ t && r.validUntil.all fun u => t < u

def startsBefore (r s : RoutingRow) : Bool := s.validUntil.all fun u => r.validFrom < u

def conflicts (r s : RoutingRow) : Bool := r.matchKey = s.matchKey && startsBefore r s && startsBefore s r

/-- `SELECT COALESCE(MAX(version), 0) + 1 … WHERE match_key = key`. -/
def nextVersion (decisions : List Decision) (key : String) : ℕ :=
  ((decisions.filter fun d => d.row.matchKey = key).map fun d => d.row.version).foldr max 0 + 1

def decisionOf (call : WriteCall) (now : Int) (version : ℕ) : Decision where
  row := ⟨call.caseId, call.matchKey, call.target, call.validFrom.getD now, call.validUntil, version,
    call.createdBy⟩
  created := ⟨call.decisionId, call.caseId, call.protocol, call.matchKey, call.target, version, "CREATED",
    version, "ANALYST", some call.caseId⟩
  audit := ⟨call.createdBy, "routing.decision_approved", call.caseId, call.decisionId,
    "match_key=" ++ call.matchKey ++ " target=" ++ call.target⟩

def acceptable (call : WriteCall) (d : Decision) : Bool :=
  (call.target = "ENDPOINT" || call.target = "SANDBOX") && d.row.version < 2 ^ 31 &&
    (d.row.validUntil.all fun u => d.row.validFrom < u) && call.stored

def inFlight (writers : List Writer) : List Decision :=
  writers.filterMap fun x => match x.phase with
    | .inserted d => some d
    | _ => none

def World.put (w : World) (i : ℕ) (x : Writer) (phase : Phase) : World :=
  { w with writers := w.writers.set i { x with phase } }

/-- The `INSERT`: refused by a check or a committed row in its way, and waiting for a row in its way that
may still be committed. -/
def insert (w : World) (i : ℕ) (x : Writer) (d : Decision) : World :=
  if !acceptable x.call d || w.decisions.any fun e => conflicts d.row e.row then w.put i x .over
  else if (inFlight w.writers).any fun e => conflicts d.row e.row then w
  else w.put i x (.inserted d)

/-- `… WHERE match_key = key AND valid_from <= now() AND (valid_until IS NULL OR valid_until > now())
ORDER BY valid_from DESC LIMIT 1`. -/
def selectRoute (decisions : List Decision) (key : String) (now : Int) : Option Decision :=
  ((decisions.filter fun d => d.row.matchKey = key && d.row.validAt now).insertionSort
    fun a b => b.row.validFrom ≤ a.row.validFrom).head?

def resolveRoute (decisions : List Decision) (call : ResolveCall) : String × SteeringEvent :=
  match selectRoute decisions call.matchKey call.now with
  | none => (defaultTarget, ⟨call.decisionId, call.caseId, call.protocol, call.matchKey, defaultTarget, 1,
      "FAILSAFE_DEFAULT", 1, "SYSTEM", none⟩)
  | some d => (d.row.target, ⟨call.decisionId, if d.row.caseId = "" then call.caseId else d.row.caseId,
      call.protocol, call.matchKey, d.row.target, max d.row.version 1, "SELECTED", max d.row.version 1, "SYSTEM",
      some d.row.caseId⟩)

def answerOf (decisions : List Decision) (call : ResolveCall) : Answer :=
  let (target, event) := resolveRoute decisions call
  ⟨call.matchKey, call.now, target, event, decisions⟩

def step (w : World) : Event → World
  | .opens call now =>
    if call.decisionId ∈ w.identifiers then w
    else { w with writers := w.writers ++ [⟨call, now, .opened⟩], identifiers := call.decisionId :: w.identifiers }
  | .numbers i => match w.writers[i]? with
    | some x => match x.phase with
      | .opened => w.put i x (.numbered (nextVersion w.decisions x.call.matchKey))
      | _ => w
    | none => w
  | .inserts i => match w.writers[i]? with
    | some x => match x.phase with
      | .numbered version => insert w i x (decisionOf x.call x.now version)
      | _ => w
    | none => w
  | .commits i => match w.writers[i]? with
    | some x => match x.phase with
      | .inserted d => { w.put i x .over with decisions := w.decisions ++ [d] }
      | _ => w
    | none => w
  | .aborts i => match w.writers[i]? with
    | some x => w.put i x .over
    | none => w
  | .resolve call =>
    if call.stored && call.decisionId ∉ w.identifiers then
      { w with
        answers := w.answers ++ [answerOf w.decisions call]
        identifiers := call.decisionId :: w.identifiers }
    else w

def validDecisions (decisions : List Decision) (key : String) (now : Int) : List Decision :=
  decisions.filter fun d => d.row.matchKey = key && d.row.validAt now

def RoutesRight (a : Answer) : Prop :=
  (validDecisions a.seen a.matchKey a.now = [] ∧ a.target = "ENDPOINT") ∨
    ∃ d, validDecisions a.seen a.matchKey a.now = [d] ∧ a.target = d.row.target

def Traceable (a : Answer) : Prop :=
  a.event.action = "SELECTED" → ∃ d ∈ validDecisions a.seen a.matchKey a.now, d.created.action = "CREATED" ∧
    a.event.decisionId = d.created.decisionId ∧ a.event.decisionVersion = d.created.decisionVersion ∧
    a.event.caseId = d.created.caseId

structure Sound (w : World) : Prop where
  routes : ∀ a ∈ w.answers, RoutesRight a
  versions : w.decisions.Pairwise fun a b => a.row.matchKey = b.row.matchKey → a.row.version < b.row.version
  traceable : ∀ a ∈ w.answers, Traceable a

def admitted (w : World) : Event → Prop
  | .commits i => ∀ x d, w.writers[i]? = some x → x.phase = .inserted d →
      ∀ e ∈ w.decisions, e.row.matchKey = d.row.matchKey → e.row.version < d.row.version
  | .resolve call => call.stored = true → call.decisionId ∉ w.identifiers →
      validDecisions w.decisions call.matchKey call.now = []
  | _ => True

structure Fits (w : World) (x : Writer) : Prop where
  called : x.call.decisionId ∈ w.identifiers
  named : ∀ d, x.phase = .inserted d → d.created.decisionId ∈ w.identifiers
  free : ∀ d, x.phase = .inserted d → ∀ e ∈ w.decisions, conflicts d.row e.row = false

structure Inv (w : World) : Prop where
  apart : w.decisions.Pairwise fun a b => conflicts a.row b.row = false
  known : ∀ d ∈ w.decisions, d.created.decisionId ∈ w.identifiers
  fits : ∀ x ∈ w.writers, Fits w x
  flight : ∀ (i j : ℕ) (x y : Writer) (d e : Decision), w.writers[i]? = some x → w.writers[j]? = some y →
    x.phase = .inserted d → y.phase = .inserted e → i ≠ j → conflicts d.row e.row = false

theorem start_inv : Inv start :=
  ⟨.nil, fun d mem => (by cases mem), fun x mem => (by cases mem), fun i j x y d e here => (by cases here)⟩

theorem start_sound : Sound start :=
  ⟨fun a mem => (by cases mem), .nil, fun a mem => (by cases mem)⟩

theorem conflicts_comm (r s : RoutingRow) : conflicts r s = conflicts s r := by
  rw [conflicts, conflicts, Bool.and_right_comm, decide_eq_decide.mpr (eq_comm (a := r.matchKey))]

theorem conflicts_of_valid {r s : RoutingRow} {t : Int} (key : r.matchKey = s.matchKey)
    (first : r.validAt t = true) (second : s.validAt t = true) : conflicts r s = true := by
  rw [RoutingRow.validAt, Bool.and_eq_true, decide_eq_true_eq, Option.all_eq_true] at first second
  have before : ∀ {a b : RoutingRow}, a.validFrom ≤ t → (∀ u, b.validUntil = some u → decide (t < u) = true) →
      startsBefore a b = true := by
    intro a b starts ends
    rw [startsBefore, Option.all_eq_true]
    intro u found
    have behind := of_decide_eq_true (ends u found)
    exact decide_eq_true (by omega)
  rw [conflicts, before first.1 second.2, before second.1 first.2, decide_eq_true key]
  rfl

section
variable {w : World}

theorem Inv.unique (inv : Inv w) (key : String) (now : Int) :
    validDecisions w.decisions key now = [] ∨ ∃ d, validDecisions w.decisions key now = [d] := by
  have apart := inv.apart.sublist (List.filter_sublist (p := fun d => d.row.matchKey = key && d.row.validAt now))
  have valid : ∀ d ∈ validDecisions w.decisions key now, d.row.matchKey = key ∧ d.row.validAt now = true := by
    intro d mem
    have found := (List.mem_filter.mp mem).2
    rwa [Bool.and_eq_true, decide_eq_true_eq] at found
  rw [← validDecisions] at apart
  revert apart valid
  cases validDecisions w.decisions key now with
  | nil => exact fun _ _ => .inl rfl
  | cons d rest =>
    intro apart valid
    cases rest with
    | nil => exact .inr ⟨d, rfl⟩
    | cons e rest =>
      have here := valid d List.mem_cons_self
      have there := valid e (List.mem_cons_of_mem d List.mem_cons_self)
      have clash := conflicts_of_valid (here.1.trans there.1.symm) here.2 there.2
      rw [(List.pairwise_cons.mp apart).1 e List.mem_cons_self] at clash
      cases clash

theorem selectRoute_eq (decisions : List Decision) (key : String) (now : Int) : selectRoute decisions key now =
    ((validDecisions decisions key now).insertionSort fun a b => b.row.validFrom ≤ a.row.validFrom).head? := rfl

theorem Inv.routesRight (inv : Inv w) (call : ResolveCall) : RoutesRight (answerOf w.decisions call) := by
  rw [RoutesRight, answerOf, resolveRoute, selectRoute_eq]
  rcases inv.unique call.matchKey call.now with none | ⟨d, one⟩
  · exact .inl ⟨none, by rw [none]; rfl⟩
  · exact .inr ⟨d, one, by rw [one]; rfl⟩

theorem Inv.traceable_iff (inv : Inv w) {call : ResolveCall} (new : call.decisionId ∉ w.identifiers) :
    Traceable (answerOf w.decisions call) ↔ validDecisions w.decisions call.matchKey call.now = [] := by
  rw [Traceable, answerOf, resolveRoute, selectRoute_eq]
  rcases inv.unique call.matchKey call.now with none | ⟨d, one⟩
  · rw [none]
    refine iff_of_true (fun selected => ?_) rfl
    change "FAILSAFE_DEFAULT" = "SELECTED" at selected
    exact absurd selected (by decide)
  · rw [one]
    refine iff_of_false (fun traced => ?_) (fun none => (by cases none))
    obtain ⟨e, mem, -, same, -⟩ := traced rfl
    have listed : e ∈ validDecisions w.decisions call.matchKey call.now := by
      rw [one]
      exact mem
    have named : call.decisionId = e.created.decisionId := same
    rw [named] at new
    exact new (inv.known e (List.mem_filter.mp listed).1)

theorem Inv.put (inv : Inv w) {i : ℕ} {x : Writer} (found : w.writers[i]? = some x) {phase : Phase}
    (fits : Fits w { x with phase })
    (flight : ∀ (j : ℕ) (y : Writer) (d e : Decision), w.writers[j]? = some y → phase = .inserted d →
      y.phase = .inserted e → j ≠ i → conflicts d.row e.row = false) : Inv (w.put i x phase) := by
  refine ⟨inv.apart, inv.known, fun y mem => ?_, fun j k y z d e here there wrote wrote' other => ?_⟩
  · obtain ⟨j, at_⟩ := List.mem_iff_getElem?.mp mem
    rcases set_cases at_ with ⟨-, rfl⟩ | ⟨-, old⟩
    · exact ⟨fits.called, fits.named, fits.free⟩
    · have old := inv.fits y (List.mem_of_getElem? old)
      exact ⟨old.called, old.named, old.free⟩
  · rcases set_cases here with ⟨rfl, rfl⟩ | ⟨apart, old⟩
    · rcases set_cases there with ⟨rfl, rfl⟩ | ⟨apart', old'⟩
      · exact absurd rfl other
      · exact flight k z d e old' wrote wrote' apart'
    · rcases set_cases there with ⟨rfl, rfl⟩ | ⟨apart', old'⟩
      · rw [conflicts_comm]
        exact flight j y e d old wrote' wrote apart
      · exact inv.flight j k y z d e old old' wrote wrote' other

theorem Inv.quiet (inv : Inv w) {i : ℕ} {x : Writer} (found : w.writers[i]? = some x) {phase : Phase}
    (none : ∀ d, phase ≠ .inserted d) : Inv (w.put i x phase) := by
  refine inv.put found ⟨(inv.fits x (List.mem_of_getElem? found)).called, fun d wrote => ?_, fun d wrote => ?_⟩ ?_
  · exact absurd wrote (none d)
  · exact absurd wrote (none d)
  · exact fun j y d e _ wrote => absurd wrote (none d)

theorem insert_inv (inv : Inv w) {i : ℕ} {x : Writer} (version : ℕ) (found : w.writers[i]? = some x) : Inv (insert w i x (decisionOf x.call x.now version)) := by
  unfold insert
  split
  · exact inv.quiet found fun d wrote => (by cases wrote)
  rename_i accepted
  rw [Bool.or_eq_true, not_or, List.any_eq_true] at accepted
  split
  · exact inv
  rename_i noOther
  rw [List.any_eq_true] at noOther
  have called := (inv.fits x (List.mem_of_getElem? found)).called
  refine inv.put found ⟨called, fun d wrote => ?_, fun d wrote e mem => ?_⟩ fun j y d e there wrote wrote' other => ?_
  · cases wrote
    exact called
  · cases wrote
    exact Bool.eq_false_iff.mpr fun clash => accepted.2 ⟨e, mem, clash⟩
  · cases wrote
    refine Bool.eq_false_iff.mpr fun clash => noOther ⟨e, ?_, clash⟩
    exact List.mem_filterMap.mpr ⟨y, List.mem_of_getElem? there, by rw [wrote']⟩

theorem commit_inv (inv : Inv w) {i : ℕ} {x : Writer} {d : Decision} (found : w.writers[i]? = some x)
    (phase : x.phase = .inserted d) : Inv { w.put i x .over with decisions := w.decisions ++ [d] } := by
  have fits := inv.fits x (List.mem_of_getElem? found)
  refine ⟨?_, fun e mem => ?_, fun y mem => ?_, fun j k y z e e' here there wrote wrote' other => ?_⟩
  · refine List.pairwise_append.mpr ⟨inv.apart, List.pairwise_singleton _ d, fun e mem e' same => ?_⟩
    rw [List.mem_singleton.mp same, conflicts_comm]
    exact fits.free d phase e mem
  · rcases List.mem_append.mp mem with old | new
    · exact inv.known e old
    · rw [List.mem_singleton.mp new]
      exact fits.named d phase
  · obtain ⟨j, at_⟩ := List.mem_iff_getElem?.mp mem
    rcases set_cases at_ with ⟨-, rfl⟩ | ⟨apart, old⟩
    · exact ⟨fits.called, fun e wrote => (by cases wrote), fun e wrote => (by cases wrote)⟩
    · have other := inv.fits y (List.mem_of_getElem? old)
      refine ⟨other.called, other.named, fun e wrote e' mem => ?_⟩
      rcases List.mem_append.mp mem with before | same
      · exact other.free e wrote e' before
      · rw [List.mem_singleton.mp same]
        exact inv.flight j i y x e d old found wrote phase apart
  · rcases set_cases here with ⟨-, rfl⟩ | ⟨-, old⟩
    · cases wrote
    · rcases set_cases there with ⟨-, rfl⟩ | ⟨-, old'⟩
      · cases wrote'
      · exact inv.flight j k y z e e' old old' wrote wrote' other

theorem Fits.grow {w' : World} {x : Writer} (fits : Fits w x) (decisions : w'.decisions = w.decisions)
    (grows : ∀ id ∈ w.identifiers, id ∈ w'.identifiers) : Fits w' x :=
  ⟨grows _ fits.called, fun d wrote => grows _ (fits.named d wrote), by rw [decisions]; exact fits.free⟩

theorem step_inv (inv : Inv w) (e : Event) : Inv (step w e) := by
  cases e with
  | opens call now =>
    rw [step]
    split
    · exact inv
    refine ⟨inv.apart, fun d mem => List.mem_cons_of_mem _ (inv.known d mem), fun x mem => ?_,
      fun i j x y d e here there wrote wrote' other => ?_⟩
    · rcases List.mem_append.mp mem with old | new
      · exact (inv.fits x old).grow rfl fun id mem => List.mem_cons_of_mem _ mem
      · rw [List.mem_singleton.mp new]
        exact ⟨List.mem_cons_self, fun d wrote => (by cases wrote), fun d wrote => (by cases wrote)⟩
    · rcases concat_cases here with old | ⟨-, rfl⟩
      · rcases concat_cases there with old' | ⟨-, rfl⟩
        · exact inv.flight i j x y d e old old' wrote wrote' other
        · cases wrote'
      · cases wrote
  | numbers i =>
    rw [step]
    split
    · rename_i x found
      split
      · exact inv.quiet found fun d wrote => (by cases wrote)
      · exact inv
    · exact inv
  | inserts i =>
    rw [step]
    split
    · rename_i x found
      split
      · rename_i version _
        exact insert_inv inv version found
      · exact inv
    · exact inv
  | commits i =>
    rw [step]
    split
    · rename_i x found
      split
      · rename_i d phase
        exact commit_inv inv found phase
      · exact inv
    · exact inv
  | aborts i =>
    rw [step]
    split
    · rename_i x found
      exact inv.quiet found fun d wrote => (by cases wrote)
    · exact inv
  | resolve call =>
    rw [step]
    split
    · exact ⟨inv.apart, fun d mem => List.mem_cons_of_mem _ (inv.known d mem),
        fun x mem => (inv.fits x mem).grow rfl fun id mem => List.mem_cons_of_mem _ mem, inv.flight⟩
    · exact inv

theorem Sound.same {w' : World} (sound : Sound w) (decisions : w'.decisions = w.decisions)
    (answers : w'.answers = w.answers) : Sound w' :=
  ⟨by rw [answers]; exact sound.routes, by rw [decisions]; exact sound.versions,
    by rw [answers]; exact sound.traceable⟩

theorem commit_exact (sound : Sound w) {i : ℕ} {x : Writer} {d : Decision} :
    Sound { w.put i x .over with decisions := w.decisions ++ [d] } ↔
      ∀ e ∈ w.decisions, e.row.matchKey = d.row.matchKey → e.row.version < d.row.version := by
  constructor
  · intro after e mem
    exact (List.pairwise_append.mp after.versions).2.2 e mem d List.mem_cons_self
  · intro newest
    refine ⟨sound.routes, List.pairwise_append.mpr ⟨sound.versions, List.pairwise_singleton _ d, ?_⟩,
      sound.traceable⟩
    intro e mem e' same
    rw [List.mem_singleton.mp same]
    exact newest e mem

theorem resolve_exact (inv : Inv w) (sound : Sound w) {call : ResolveCall}
    (new : call.decisionId ∉ w.identifiers) :
    Sound { w with
      answers := w.answers ++ [answerOf w.decisions call]
      identifiers := call.decisionId :: w.identifiers } ↔
      validDecisions w.decisions call.matchKey call.now = [] := by
  rw [← inv.traceable_iff new]
  constructor
  · exact fun after => after.traceable _ (List.mem_append_right _ List.mem_cons_self)
  · intro traced
    refine ⟨fun a mem => ?_, sound.versions, fun a mem => ?_⟩
    · rcases List.mem_append.mp mem with old | same
      · exact sound.routes a old
      · rw [List.mem_singleton.mp same]
        exact inv.routesRight call
    · rcases List.mem_append.mp mem with old | same
      · exact sound.traceable a old
      · rw [List.mem_singleton.mp same]
        exact traced

theorem insert_sound (sound : Sound w) (i : ℕ) (x : Writer) (d : Decision) : Sound (insert w i x d) := by
  unfold insert
  split
  · exact sound.same rfl rfl
  · split
    · exact sound
    · exact sound.same rfl rfl

theorem step_exact (inv : Inv w) (sound : Sound w) (e : Event) : Sound (step w e) ↔ admitted w e := by
  cases e with
  | opens call now =>
    refine iff_of_true ?_ trivial
    rw [step]
    split
    · exact sound
    · exact sound.same rfl rfl
  | numbers i =>
    refine iff_of_true ?_ trivial
    rw [step]
    split
    · split
      · exact sound.same rfl rfl
      · exact sound
    · exact sound
  | inserts i =>
    refine iff_of_true ?_ trivial
    rw [step]
    split
    · split
      · exact insert_sound sound _ _ _
      · exact sound
    · exact sound
  | commits i =>
    rw [step, admitted]
    split
    · rename_i x found
      split
      · rename_i d phase
        rw [commit_exact sound]
        constructor
        · intro newest x' d' found' phase'
          cases found.symm.trans found'
          cases phase.symm.trans phase'
          exact newest
        · exact fun newest => newest x d found phase
      · rename_i other
        refine iff_of_true sound fun x' d found' phase => ?_
        cases found.symm.trans found'
        exact absurd phase (other d)
    · rename_i none
      refine iff_of_true sound fun x d found => ?_
      rw [none] at found
      cases found
  | aborts i =>
    refine iff_of_true ?_ trivial
    rw [step]
    split
    · exact sound.same rfl rfl
    · exact sound
  | resolve call =>
    rw [step, admitted]
    split
    · rename_i enabled
      rw [Bool.and_eq_true, decide_eq_true_eq] at enabled
      rw [resolve_exact inv sound enabled.2]
      exact ⟨fun none _ _ => none, fun none => none enabled.1 enabled.2⟩
    · rename_i disabled
      refine iff_of_true sound fun stored new => absurd ?_ disabled
      rw [Bool.and_eq_true, decide_eq_true_eq]
      exact ⟨stored, new⟩

end

end Mirage.Routing
