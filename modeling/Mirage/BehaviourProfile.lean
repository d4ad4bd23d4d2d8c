import Mathlib.Algebra.Order.Ring.Rat
import Mathlib.Data.Prod.Lex
import Mathlib.Data.String.Basic
import Mirage.AsciiJson
import Mirage.EvidenceAcquisition
import Mirage.KeyedTable

/-! Behaviour profiles. An update assesses every observation of the session, read back
from the table, so neither the order nor the split of the updates shows in it. -/

namespace Mirage.BehaviourProfile
open PythonText Raw AsciiJson EvidenceAcquisition

section Sorting
variable {α κ : Type} [LinearOrder κ] {key : α → κ}

def sortBy (key : α → κ) (items : List α) : List α := items.mergeSort fun a b => key a ≤ key b

theorem sortBy_perm (items : List α) : (sortBy key items).Perm items := List.mergeSort_perm _ _

theorem sortBy_sorted (items : List α) : (sortBy key items).Pairwise fun a b => key a ≤ key b := by
  have sorted := @List.pairwise_mergeSort α (fun a b => decide (key a ≤ key b))
    (fun a b c ab bc => by simp only [decide_eq_true_eq] at *; exact ab.trans bc)
    (fun a b => by simpa using le_total (key a) (key b)) items
  exact sorted.imp of_decide_eq_true

theorem sortBy_congr {items others : List α} (apart : ∀ a ∈ items, ∀ b ∈ items, key a = key b → a = b)
    (perm : items.Perm others) : sortBy key items = sortBy key others := by
  have same : (sortBy key items).Perm (sortBy key others) :=
    (sortBy_perm items).trans (perm.trans (sortBy_perm others).symm)
  refine same.eq_of_pairwise ?_ (sortBy_sorted items) (sortBy_sorted others)
  intro a b here there ab ba
  refine apart a ((sortBy_perm items).subset here) b ?_ (le_antisymm ab ba)
  exact perm.symm.subset ((sortBy_perm others).subset there)

end Sorting

/-! Assessments. Moments are microseconds and scores are exact. -/

structure BehaviourEvent where
  eventId : String
  caseId : String
  sessionId : String
  category : String
  behaviourType : String
  eventTime : ℤ
  summary : String
  confidence : ℚ
  evidenceStrength : ℚ
  attributes : Raw

inductive Band where
  | unknown | novice | intermediate | advanced | expert
deriving DecidableEq

def Band.name : Band → String
  | unknown => "UNKNOWN"
  | novice => "NOVICE"
  | intermediate => "INTERMEDIATE"
  | advanced => "ADVANCED"
  | expert => "EXPERT"

structure SkillAssessment where
  band : Band
  confidence : ℚ
  supportingEventIds : List String
  contradictoryEventIds : List String
  uncertainties : List String
  profileVersion : ℕ
  lastUpdated : ℤ
  summary : Text

def signalScores : List (String × ℚ) :=
  [("COMMAND_SYNTAX_ERROR", -2), ("REPEATED_BASIC_ERROR", -2), ("FAILED_WITHOUT_RECOVERY", -1),
   ("COMMAND_SYNTAX_ACCURATE", 1), ("ERROR_RECOVERY", 2), ("TOOL_CHAINING", 2), ("DISCOVERY_BREADTH", 3 / 2),
   ("PRIVILEGE_AWARENESS", 2), ("OPSEC_BEHAVIOUR", 2), ("SANDBOX_DETECTION_ATTEMPT", 2),
   ("NATIVE_TOOL_PROFICIENCY", 3 / 2), ("AUTOMATED_FRAMEWORK_USE", 3 / 2), ("PERSISTENCE_ATTEMPT", 1)]

def bandFor (score : ℚ) (count : ℕ) : Band :=
  if count < 3 then .unknown
  else if score < -1 / 4 then .novice
  else if score < 3 / 4 then .intermediate
  else if score < 3 / 2 then .advanced
  else .expert

def weighted (asOf : ℤ) (event : BehaviourEvent) : ℚ :=
  let base := (signalScores.lookup event.behaviourType).getD 0
  let ageDays : ℚ := max 0 ((asOf - event.eventTime) / (86400 * 1000000))
  base * event.confidence * event.evidenceStrength * max (1 / 4) (1 - ageDays / 90)

/-- `(event_time, event_id)`. -/
def moment (event : BehaviourEvent) : ℤ ×ₗ String := toLex (event.eventTime, event.eventId)

def scored (asOf : ℤ) (events : List BehaviourEvent) : List (ℚ × BehaviourEvent) :=
  ((sortBy moment events).map fun event => (weighted asOf event, event)).filter fun item => item.1 ≠ 0

def positives (items : List (ℚ × BehaviourEvent)) : List (ℚ × BehaviourEvent) :=
  sortBy (fun item => toLex (-item.1, moment item.2)) (items.filter fun item => 0 < item.1)

def negatives (items : List (ℚ × BehaviourEvent)) : List (ℚ × BehaviourEvent) :=
  sortBy (fun item => toLex (item.1, moment item.2)) (items.filter fun item => item.1 < 0)

def ids (items : List (ℚ × BehaviourEvent)) : List String := (items.take 8).map fun item => item.2.eventId

def texts (strings : List String) : Raw := .arr (strings.map fun s => .str (text s))

/-- The first of the shorter and shorter texts that fits, ids given from the last on; the
texts are ASCII, a byte for each character. -/
def fitted (write : List String → Text) : List String → Text
  | [] => write []
  | id :: rest => if 2048 < (write (id :: rest).reverse).length then fitted write rest else write (id :: rest).reverse

/-- `rounded` stands for the number `round(confidence, 4)` as JSON writes it. -/
def assessSkill (rounded : ℚ → Raw) (asOf : ℤ) (profileVersion : ℕ) (events : List BehaviourEvent) : SkillAssessment :=
  let scored := scored asOf events
  let total := (scored.map fun item => |item.1|).sum
  let denominator := if total = 0 then 1 else total
  let score := (scored.map Prod.fst).sum / max 1 (scored.length : ℚ)
  let likely := min (98 / 100) (denominator / (denominator + 4))
  let confidence := if scored.length < 3 then min likely (35 / 100) else likely
  let band := bandFor score scored.length
  let positives := positives scored
  let negatives := negatives scored
  let skilled := band = .intermediate ∨ band = .advanced ∨ band = .expert
  let supporting := ids (if skilled then positives else negatives)
  let contradictory := ids (if skilled then negatives else positives)
  let uncertainties :=
    (if scored.length < 3 then ["sparse evidence"] else []) ++
    (if positives ≠ [] ∧ negatives ≠ [] then ["contradictory operational indicators"] else []) ++
    if scored.any fun item => asOf < item.2.eventTime then
      ["future-dated telemetry excluded from temporal confidence"] else []
  let write := fun contradictory => dumpsAscii (.obj
    [(text "scope", .str (text "operational skill only; no human identity inference")),
     (text "band", .str (text band.name)), (text "confidence", rounded confidence),
     (text "signals_observed", .int scored.length), (text "supporting_event_ids", texts supporting),
     (text "contradictory_event_ids", texts contradictory), (text "uncertainties", texts uncertainties)])
  ⟨band, confidence, supporting, contradictory, uncertainties, profileVersion, asOf,
    fitted write contradictory.reverse⟩

structure Profile where
  caseId : String
  sessionId : String
  profileVersion : ℕ
  summary : Text
  lastEventTime : Option ℤ
  updatedAt : ℤ

/-- A profile's key is the session's. -/
structure Database where
  behaviourObservations : KeyedTable BehaviourEvent.eventId
  behaviourProfiles : KeyedTable fun row : Profile => (row.caseId, row.sessionId)
  skillAssessments : List (String × String × SkillAssessment)

/-- The checks of an observation's row. -/
structure Storable (event : BehaviourEvent) : Prop where
  id : isUlid event.eventId = true
  confidence : 0 ≤ event.confidence ∧ event.confidence ≤ 1
  evidenceStrength : 0 ≤ event.evidenceStrength ∧ event.evidenceStrength ≤ 1

instance (event : BehaviourEvent) : Decidable (Storable event) :=
  decidable_of_iff (isUlid event.eventId = true ∧ (0 ≤ event.confidence ∧ event.confidence ≤ 1) ∧
    0 ≤ event.evidenceStrength ∧ event.evidenceStrength ≤ 1) ⟨fun h => ⟨h.1, h.2.1, h.2.2⟩, fun h => ⟨h.1, h.2, h.3⟩⟩

/-- `INSERT … ON CONFLICT (observation_id) DO NOTHING`. -/
def observe (table : KeyedTable BehaviourEvent.eventId) (event : BehaviourEvent) :
    Except EvidenceAcquisition.Raised (KeyedTable BehaviourEvent.eventId) :=
  if Storable event then .ok ((table.insert event).getD table)
  else .error ⟨.other, "check_violation"⟩

def ofSession (caseId sessionId : String) (event : BehaviourEvent) : Bool :=
  event.caseId = caseId && event.sessionId = sessionId

/-- The rows of a session, in their order. -/
def observed (table : KeyedTable BehaviourEvent.eventId) (caseId sessionId : String) : List BehaviourEvent :=
  sortBy moment (table.rows.filter (ofSession caseId sessionId))

def updateProfile (rounded : ℚ → Raw) (asOf : ℤ) (db : Database) (events : List BehaviourEvent) :
    Except EvidenceAcquisition.Raised (SkillAssessment × Database) :=
  match events with
  | [] => .error ⟨.value, "at least one behaviour event is required"⟩
  | first :: _ =>
    if !events.all (ofSession first.caseId first.sessionId) then
      .error ⟨.value, "one profile update cannot mix cases or sessions"⟩
    else do
      let observations ← (sortBy moment events).foldlM observe db.behaviourObservations
      let effective := observed observations first.caseId first.sessionId
      let versionRow := db.behaviourProfiles.find (first.caseId, first.sessionId)
      let version := (versionRow.map Profile.profileVersion).getD 0 + 1
      let assessment := assessSkill rounded asOf version effective
      let profile : Profile := ⟨first.caseId, first.sessionId, version, assessment.summary,
        (effective.map BehaviourEvent.eventTime).max?, asOf⟩
      .ok (assessment, ⟨observations,
        db.behaviourProfiles.upsert profile
          (fun row => ⟨row.caseId, row.sessionId, version, profile.summary, profile.lastEventTime, asOf⟩) fun _ => rfl,
        db.skillAssessments ++ [(first.caseId, first.sessionId, assessment)]⟩)

/-- The updates one after the other, with the last assessment. -/
def updates (rounded : ℚ → Raw) (asOf : ℤ) : List (List BehaviourEvent) → Database →
    Except EvidenceAcquisition.Raised (Option SkillAssessment × Database)
  | [], db => .ok (none, db)
  | events :: rest, db => do
    let (assessment, db) ← updateProfile rounded asOf db events
    let (last, db) ← updates rounded asOf rest db
    .ok (last.or (some assessment), db)

/-! What an assessment depends on. -/

section Assessments
variable {rounded : ℚ → Raw} {asOf : ℤ} {version : ℕ} {events others : List BehaviourEvent}

theorem assessSkill_perm (unique : (events.map BehaviourEvent.eventId).Nodup) (perm : events.Perm others) :
    assessSkill rounded asOf version events = assessSkill rounded asOf version others := by
  have sorted : sortBy moment events = sortBy moment others := by
    refine sortBy_congr (fun a here b there same => ?_) perm
    exact List.inj_on_of_nodup_map unique here there (Prod.ext_iff.mp (toLex.injective same)).2
  have same : scored asOf events = scored asOf others := by rw [scored, scored, sorted]
  unfold assessSkill
  rw [same]

theorem of_scored {item : ℚ × BehaviourEvent} (mem : item ∈ scored asOf events) :
    item.2 ∈ events ∧ item.1 = weighted asOf item.2 := by
  obtain ⟨event, here, rfl⟩ := List.mem_map.mp (List.mem_filter.mp mem).1
  exact ⟨(sortBy_perm events).subset here, rfl⟩

theorem ids_disjoint (unique : (events.map BehaviourEvent.eventId).Nodup) :
    (ids (positives (scored asOf events))).Disjoint (ids (negatives (scored asOf events))) := by
  intro id plus minus
  obtain ⟨p, taken, rfl⟩ := List.mem_map.mp plus
  obtain ⟨n, taken', same⟩ := List.mem_map.mp minus
  have high := List.mem_filter.mp ((sortBy_perm _).subset (List.mem_of_mem_take taken))
  have low := List.mem_filter.mp ((sortBy_perm _).subset (List.mem_of_mem_take taken'))
  obtain ⟨here, weight⟩ := of_scored high.1
  obtain ⟨there, weight'⟩ := of_scored low.1
  have one : n.2 = p.2 := List.inj_on_of_nodup_map unique there here same
  have equal : n.1 = p.1 := by rw [weight', weight, one]
  have pos := of_decide_eq_true high.2
  have neg := of_decide_eq_true low.2
  rw [equal] at neg
  exact lt_asymm pos neg

theorem assessSkill_disjoint (unique : (events.map BehaviourEvent.eventId).Nodup) :
    (assessSkill rounded asOf version events).supportingEventIds.Disjoint
      (assessSkill rounded asOf version events).contradictoryEventIds := by
  unfold assessSkill
  dsimp only
  split
  · exact ids_disjoint unique
  · exact fun _ minus plus => ids_disjoint unique plus minus

theorem ids_length (items : List (ℚ × BehaviourEvent)) : (ids items).length ≤ 8 := by
  rw [ids, List.length_map]
  exact List.length_take_le 8 items

end Assessments

section Runs
variable {rounded : ℚ → Raw} {asOf : ℤ} {caseId sessionId : String} {whole seen : List BehaviourEvent} {n : ℕ}

/-- A finite set of events of one session that the table takes. -/
structure OneSession (whole : List BehaviourEvent) (caseId sessionId : String) : Prop where
  unique : (whole.map BehaviourEvent.eventId).Nodup
  storable : ∀ event ∈ whole, Storable event
  session : ∀ event ∈ whole, event.caseId = caseId ∧ event.sessionId = sessionId

/-- No row under an id of `whole` is another event. -/
def Own (table : KeyedTable BehaviourEvent.eventId) (whole : List BehaviourEvent) : Prop :=
  ∀ row ∈ table.rows, ∀ event ∈ whole, row.eventId = event.eventId → row = event

/-- The session's rows are the events seen, after `n` updates. -/
structure Holds (db : Database) (caseId sessionId : String) (whole seen : List BehaviourEvent) (n : ℕ) : Prop where
  rows : ∀ event, event ∈ db.behaviourObservations.rows ∧ ofSession caseId sessionId event = true ↔ event ∈ seen
  own : Own db.behaviourObservations whole
  version : ((db.behaviourProfiles.find (caseId, sessionId)).map Profile.profileVersion).getD 0 = n

theorem ofSession_iff {event : BehaviourEvent} :
    ofSession caseId sessionId event = true ↔ event.caseId = caseId ∧ event.sessionId = sessionId := by
  simp [ofSession]

theorem observe_ok {table : KeyedTable BehaviourEvent.eventId} {event : BehaviourEvent} (storable : Storable event)
    (own : ∀ row ∈ table.rows, row.eventId = event.eventId → row = event) :
    ∃ after, observe table event = .ok after ∧ ∀ e, e ∈ after.rows ↔ e ∈ table.rows ∨ e = event := by
  refine ⟨(table.insert event).getD table, if_pos storable, fun e => ?_⟩
  cases inserted : table.insert event with
  | some after =>
    rw [Option.getD_some, (KeyedTable.insert_eq_some inserted).2, List.mem_append, List.mem_singleton]
  | none =>
    have taken : event.eventId ∈ table.rows.map BehaviourEvent.eventId := by
      by_contra absent
      obtain ⟨after, some⟩ := KeyedTable.insert_isSome absent
      rw [inserted] at some
      cases some
    obtain ⟨row, here, same⟩ := List.mem_map.mp taken
    rw [own row here same] at here
    exact ⟨Or.inl, fun either => either.elim id fun same => same ▸ here⟩

theorem foldlM_observe (one : OneSession whole caseId sessionId) {items : List BehaviourEvent}
    (within : ∀ event ∈ items, event ∈ whole) {table : KeyedTable BehaviourEvent.eventId} (own : Own table whole) :
    ∃ after, items.foldlM observe table = .ok after ∧ Own after whole ∧
      ∀ e, e ∈ after.rows ↔ e ∈ table.rows ∨ e ∈ items := by
  induction items generalizing table with
  | nil => exact ⟨table, rfl, own, fun e => by simp⟩
  | cons event rest ih =>
    have here := within event (List.mem_cons_self ..)
    obtain ⟨next, first, rows⟩ := observe_ok (one.storable event here) fun row mem => own row mem event here
    have own' : Own next whole := by
      intro row mem other listed same
      rcases (rows row).mp mem with old | rfl
      · exact own row old other listed same
      · exact List.inj_on_of_nodup_map one.unique here listed same
    obtain ⟨after, later, own'', rows'⟩ := ih (fun e mem => within e (List.mem_cons_of_mem _ mem)) own'
    refine ⟨after, ?_, own'', fun e => ?_⟩
    · rw [List.foldlM_cons, first]
      exact later
    · rw [rows', rows, List.mem_cons, or_assoc]

theorem updateProfile_ok (one : OneSession whole caseId sessionId) {events : List BehaviourEvent}
    (within : ∀ event ∈ events, event ∈ whole) (filled : events ≠ []) {db : Database}
    (holds : Holds db caseId sessionId whole seen n) :
    ∃ effective after, updateProfile rounded asOf db events = .ok (assessSkill rounded asOf (n + 1) effective, after) ∧
      Holds after caseId sessionId whole (seen ++ events) (n + 1) ∧
      effective.Nodup ∧ ∀ event, event ∈ effective ↔ event ∈ seen ++ events := by
  obtain ⟨first, rest, rfl⟩ := List.exists_cons_of_ne_nil filled
  obtain ⟨caseEq, sessionEq⟩ := one.session first (within first (List.mem_cons_self ..))
  have alike : (first :: rest).all (ofSession caseId sessionId) = true :=
    List.all_eq_true.mpr fun event mem => ofSession_iff.mpr (one.session event (within event mem))
  have order : (sortBy moment (first :: rest)).Perm (first :: rest) := sortBy_perm _
  obtain ⟨observations, inserted, own, rows⟩ :=
    foldlM_observe one (fun event mem => within event (order.subset mem)) holds.own
  have listed : ∀ event, event ∈ observations.rows ∧ ofSession caseId sessionId event = true ↔
      event ∈ seen ++ first :: rest := by
    intro event
    rw [rows, order.mem_iff, List.mem_append, ← holds.rows, or_and_right]
    exact or_congr_right (and_iff_left_of_imp (List.all_eq_true.mp alike event))
  have stepped : ∃ after, updateProfile rounded asOf db (first :: rest) =
        .ok (assessSkill rounded asOf (n + 1) (observed observations caseId sessionId), after) ∧
      after.behaviourObservations = observations ∧
      ((after.behaviourProfiles.find (caseId, sessionId)).map Profile.profileVersion).getD 0 = n + 1 := by
    rw [← holds.version, updateProfile, caseEq, sessionEq, alike, inserted]
    refine ⟨_, rfl, rfl, ?_⟩
    rw [KeyedTable.find_upsert, if_pos rfl]
    cases db.behaviourProfiles.find (caseId, sessionId) <;> rfl
  obtain ⟨after, ran, rfl, version⟩ := stepped
  refine ⟨_, after, ran, ⟨listed, own, version⟩, ?_, fun event => ?_⟩
  · exact (sortBy_perm _).nodup_iff.mpr ((after.behaviourObservations.unique.of_map _).filter _)
  · exact ((sortBy_perm _).mem_iff.trans List.mem_filter).trans (listed event)

theorem updates_ok (one : OneSession whole caseId sessionId) {calls : List (List BehaviourEvent)}
    (some : calls ≠ []) (filled : ∀ events ∈ calls, events ≠ [])
    (within : ∀ events ∈ calls, ∀ event ∈ events, event ∈ whole) {db : Database}
    (holds : Holds db caseId sessionId whole seen n) :
    ∃ effective after, updates rounded asOf calls db =
        .ok (.some (assessSkill rounded asOf (n + calls.length) effective), after) ∧
      effective.Nodup ∧ ∀ event, event ∈ effective ↔ event ∈ seen ∨ ∃ events ∈ calls, event ∈ events := by
  induction calls generalizing db seen n with
  | nil => exact absurd rfl some
  | cons events rest ih =>
    obtain ⟨effective, next, ran, holds', nodup, members⟩ := @updateProfile_ok rounded asOf _ _ _ _ _ one events
      (within events (List.mem_cons_self ..)) (filled events (List.mem_cons_self ..)) _ holds
    rcases rest.eq_nil_or_concat with empty | more
    · subst empty
      refine ⟨effective, next, ?_, nodup, fun event => ?_⟩
      · rw [updates, ran]
        rfl
      · rw [members, List.mem_append]
        simp
    · have some' : rest ≠ [] := by
        obtain ⟨init, last, rfl⟩ := more
        simp
      obtain ⟨final, after, ran', nodup', members'⟩ := ih some' (fun e mem => filled e (List.mem_cons_of_mem _ mem))
        (fun e mem => within e (List.mem_cons_of_mem _ mem)) holds'
      refine ⟨final, after, ?_, nodup', fun event => ?_⟩
      · rw [updates, ran, List.length_cons, Nat.add_comm rest.length, ← Nat.add_assoc]
        simp only [bind, Except.bind, ran', Option.some_or]
      · rw [members', List.mem_append, or_assoc]
        simp

/-- However a session's events are split, ordered and repeated, the last update leaves the
assessment of the whole set, which no order of it changes. -/
theorem updates_agree (one : OneSession whole caseId sessionId) (some : whole ≠ []) {db : Database}
    (fresh : ∀ row ∈ db.behaviourObservations.rows, ¬ (row.caseId = caseId ∧ row.sessionId = sessionId) ∧
      ∀ event ∈ whole, row.eventId ≠ event.eventId)
    (unprofiled : db.behaviourProfiles.find (caseId, sessionId) = none) {calls : List (List BehaviourEvent)}
    (filled : ∀ events ∈ calls, events ≠ []) (cover : ∀ event, event ∈ whole ↔ ∃ events ∈ calls, event ∈ events) :
    let final := assessSkill rounded asOf calls.length whole
    (∃ after, updates rounded asOf calls db = .ok (.some final, after)) ∧
    (∀ others, whole.Perm others → assessSkill rounded asOf calls.length others = final) ∧
    final.supportingEventIds.Disjoint final.contradictoryEventIds ∧
    final.supportingEventIds.length ≤ 8 ∧ final.contradictoryEventIds.length ≤ 8 ∧
    final.profileVersion = calls.length := by
  intro final
  have start : Holds db caseId sessionId whole [] 0 := by
    refine ⟨fun event => ?_, fun row mem event listed same => absurd same ((fresh row mem).2 event listed), ?_⟩
    · exact ⟨fun ⟨mem, here⟩ => absurd (ofSession_iff.mp here) (fresh event mem).1, fun none => absurd none (by simp)⟩
    · rw [unprofiled]
      rfl
  have called : calls ≠ [] := by
    rintro rfl
    obtain ⟨event, mem⟩ := List.exists_mem_of_ne_nil whole some
    simpa using (cover event).mp mem
  obtain ⟨effective, after, ran, nodup, members⟩ := @updates_ok rounded asOf _ _ _ _ _ one calls called filled
    (fun events mem event here => (cover event).mpr ⟨events, mem, here⟩) _ start
  have perm : whole.Perm effective := by
    rw [List.perm_ext_iff_of_nodup (one.unique.of_map _) nodup]
    intro event
    rw [members, cover]
    simp
  refine ⟨⟨after, ?_⟩, fun others perm => (assessSkill_perm one.unique perm).symm, assessSkill_disjoint one.unique,
    ids_length _, ids_length _, rfl⟩
  rw [ran, Nat.zero_add, ← assessSkill_perm one.unique perm]

end Runs

def firstEvent : BehaviourEvent :=
  ⟨"01ARZ3NDEKTSV4RRFFQ69G5FAV", "case", "session", "recon", "TOOL_CHAINING", 0, "", 1, 1, .null⟩

def secondEvent : BehaviourEvent :=
  ⟨"01ARZ3NDEKTSV4RRFFQ69G5FAW", "case", "session", "recon", "REPEATED_BASIC_ERROR", 1, "", 1, 1, .null⟩

theorem two_events_agree : ∃ after, updates (fun _ => .null) 2 [[secondEvent], [secondEvent, firstEvent]]
    ⟨.empty, .empty, []⟩ = .ok (some (assessSkill (fun _ => .null) 2 2 [firstEvent, secondEvent]), after) := by
  have one : OneSession [firstEvent, secondEvent] "case" "session" := by
    refine ⟨by decide +kernel, fun event mem => ?_, fun event mem => ?_⟩ <;>
      (rcases List.mem_pair.mp mem with rfl | rfl)
    · exact ⟨by decide +kernel, by decide +kernel, by decide +kernel⟩
    · exact ⟨by decide +kernel, by decide +kernel, by decide +kernel⟩
    · exact ⟨rfl, rfl⟩
    · exact ⟨rfl, rfl⟩
  refine (updates_agree one (by simp) (fun row mem => ?_) rfl (by simp) fun event => ?_).1
  · cases mem
  · simp only [List.mem_cons, List.not_mem_nil, or_false, exists_eq_or_imp, exists_eq_left]
    tauto

/-! The history of the sessions' profiles. -/

section History
variable {rounded : ℚ → Raw} {asOf : ℤ} {version : ℕ} {events : List BehaviourEvent}

def versionOf (db : Database) (caseId sessionId : String) : ℕ :=
  ((db.behaviourProfiles.find (caseId, sessionId)).map Profile.profileVersion).getD 0

/-- The versions of a session's assessments, as they were written. -/
def versions (db : Database) (caseId sessionId : String) : List ℕ :=
  (db.skillAssessments.filter fun row => (row.1, row.2.1) = (caseId, sessionId)).map fun row => row.2.2.profileVersion

/-- What the tables check of an assessment, and the bound of sparse evidence. -/
structure Checked (a : SkillAssessment) : Prop where
  confidence : 0 ≤ a.confidence ∧ a.confidence ≤ 98 / 100
  sparse : a.band = .unknown → a.confidence ≤ 35 / 100
  distinct : a.supportingEventIds.Nodup ∧ a.contradictoryEventIds.Nodup
  apart : a.supportingEventIds.Disjoint a.contradictoryEventIds
  ordinals : a.supportingEventIds.length ≤ 8 ∧ a.contradictoryEventIds.length ≤ 8

/-- Every session's assessments are numbered from 1 to the version of its profile. -/
structure Numbered (db : Database) : Prop where
  versions : ∀ caseId sessionId, versions db caseId sessionId = List.range' 1 (versionOf db caseId sessionId)
  checked : ∀ row ∈ db.skillAssessments, Checked row.2.2

theorem confidence_bounds {d : ℚ} (nonneg : 0 ≤ d) (count : ℕ) :
    let likely := min (98 / 100) (d / (d + 4))
    let confidence := if count < 3 then min likely (35 / 100) else likely
    0 ≤ confidence ∧ confidence ≤ 98 / 100 ∧ (count < 3 → confidence ≤ 35 / 100) := by
  intro likely confidence
  have share : 0 ≤ d / (d + 4) := div_nonneg nonneg (add_nonneg nonneg (by norm_num))
  have low : 0 ≤ likely := le_min (by norm_num) share
  have high : likely ≤ 98 / 100 := min_le_left _ _
  dsimp only [confidence]
  split
  · exact ⟨le_min low (by norm_num), (min_le_left _ _).trans high, fun _ => min_le_right _ _⟩
  · exact ⟨low, high, fun few => absurd few (by assumption)⟩

theorem denominator_nonneg (items : List (ℚ × BehaviourEvent)) :
    0 ≤ if (items.map fun item => |item.1|).sum = 0 then 1 else (items.map fun item => |item.1|).sum := by
  split
  · exact zero_le_one
  · refine List.sum_nonneg fun x mem => ?_
    obtain ⟨item, -, rfl⟩ := List.mem_map.mp mem
    exact abs_nonneg item.1

theorem few_of_unknown {score : ℚ} {count : ℕ} (unknown : bandFor score count = .unknown) : count < 3 := by
  by_contra many
  rw [bandFor, if_neg many] at unknown
  split at unknown
  · cases unknown
  split at unknown
  · cases unknown
  split at unknown <;> cases unknown

theorem scored_unique (unique : (events.map BehaviourEvent.eventId).Nodup) :
    ((scored asOf events).map fun item => item.2.eventId).Nodup := by
  refine List.Nodup.sublist (List.filter_sublist.map _) ?_
  rw [List.map_map]
  exact ((sortBy_perm events).map BehaviourEvent.eventId).nodup_iff.mpr unique

theorem ids_nodup {items : List (ℚ × BehaviourEvent)} {p : ℚ × BehaviourEvent → Bool} {κ : Type} [LinearOrder κ]
    {key : ℚ × BehaviourEvent → κ} (unique : (items.map fun item => item.2.eventId).Nodup) :
    (ids (sortBy key (items.filter p))).Nodup := by
  rw [ids, List.map_take]
  refine List.Nodup.sublist (List.take_sublist ..) ?_
  exact ((sortBy_perm _).map _).nodup_iff.mpr (unique.sublist (List.filter_sublist.map _))

theorem assessSkill_checked (unique : (events.map BehaviourEvent.eventId).Nodup) :
    Checked (assessSkill rounded asOf version events) := by
  have bounds := confidence_bounds (denominator_nonneg (scored asOf events)) (scored asOf events).length
  refine ⟨⟨bounds.1, bounds.2.1⟩, fun unknown => bounds.2.2 (few_of_unknown unknown), ?_, assessSkill_disjoint unique,
    ids_length _, ids_length _⟩
  dsimp only [assessSkill]
  split
  · exact ⟨ids_nodup (scored_unique unique), ids_nodup (scored_unique unique)⟩
  · exact ⟨ids_nodup (scored_unique unique), ids_nodup (scored_unique unique)⟩

theorem updateProfile_spec {db after : Database} {a : SkillAssessment}
    (ran : updateProfile rounded asOf db events = .ok (a, after)) : ∃ key, Checked a ∧
      a.profileVersion = versionOf db key.1 key.2 + 1 ∧
      after.skillAssessments = db.skillAssessments ++ [(key.1, key.2, a)] ∧
      ∀ caseId sessionId, versionOf after caseId sessionId =
        if (caseId, sessionId) = key then versionOf db key.1 key.2 + 1 else versionOf db caseId sessionId := by
  unfold updateProfile at ran
  split at ran
  · cases ran
  rename_i first _
  split at ran
  · cases ran
  obtain ⟨observations, -, done⟩ := RowLocks.bind_eq_ok.mp ran
  cases done
  refine ⟨(first.caseId, first.sessionId), assessSkill_checked ?_, rfl, rfl, fun caseId sessionId => ?_⟩
  · refine ((sortBy_perm _).map _).nodup_iff.mpr (List.Nodup.sublist (List.filter_sublist.map _) ?_)
    exact observations.unique
  · simp only [versionOf, KeyedTable.find_upsert]
    split
    · rename_i same
      cases same
      cases db.behaviourProfiles.find (first.caseId, first.sessionId) <;> rfl
    · rfl

theorem Numbered.update {db after : Database} {a : SkillAssessment} (numbered : Numbered db)
    (ran : updateProfile rounded asOf db events = .ok (a, after)) : Numbered after := by
  obtain ⟨key, checked, next, written, moved⟩ := updateProfile_spec ran
  refine ⟨fun caseId sessionId => ?_, fun row mem => ?_⟩
  · have before := numbered.versions caseId sessionId
    rw [BehaviourProfile.versions] at before ⊢
    rw [written, List.filter_append, List.map_append, before, moved]
    by_cases same : (caseId, sessionId) = key
    · subst same
      rw [if_pos rfl, List.range'_1_concat]
      simp [next, Nat.add_comm]
    · have other : decide ((key.1, key.2) = (caseId, sessionId)) = false :=
        decide_eq_false fun equal => same equal.symm
      simp only [List.filter_cons, other, if_neg same]
      exact List.append_nil _
  · rw [written, List.mem_append, List.mem_singleton] at mem
    rcases mem with old | rfl
    · exact numbered.checked row old
    · exact checked

/-- One call of `update_profile`, which leaves everything as it is when it raises. -/
def attempted (rounded : ℚ → Raw) (db : Database) (call : ℤ × List BehaviourEvent) : Database :=
  match updateProfile rounded call.1 db call.2 with
  | .ok (_, after) =>
    -- `max` raises where the table has no event of the session.
    if call.2.any fun e => (observed after.behaviourObservations e.caseId e.sessionId).isEmpty then db else after
  | .error _ => db

/-- Whatever updates of whatever sessions succeed or fail, the assessments of each session are numbered
one after the other, and each passes the checks of its tables. -/
theorem profiles_numbered (rounded : ℚ → Raw) (observations : KeyedTable BehaviourEvent.eventId)
    (calls : List (ℤ × List BehaviourEvent)) :
    Numbered (EventRun.run (attempted rounded) ⟨observations, .empty, []⟩ calls) := by
  apply EventRun.run_invariant
  · intro db call numbered
    unfold attempted
    split
    · rename_i ran
      split
      · exact numbered
      · exact numbered.update ran
    · exact numbered
  · exact ⟨fun _ _ => rfl, fun _ mem => (by cases mem)⟩

end History

end Mirage.BehaviourProfile
