import Mirage.DashboardRun

/-! The gaps that `project_event` reports. The projector keeps one watermark for each
case: the greatest sequence projected so far, whatever its source. -/

namespace Mirage.DashboardGaps
open DashboardRecords DashboardProjection DashboardRun

/-- Every source delivers its sequences in order, beginning with 1. -/
inductive InOrder : List Delivery → Prop
  | nil : InOrder []
  | first {front : List Delivery} {d : Delivery} (before : InOrder front)
      (one : d.event.sequence = 1) : InOrder (front ++ [d])
  | next {front : List Delivery} {d : Delivery} (before : InOrder front) (earlier : Delivery)
      (delivered : earlier ∈ front) (source : earlier.event.sourceId = d.event.sourceId)
      (consecutive : d.event.sequence = earlier.event.sequence + 1) : InOrder (front ++ [d])

def watermark (db : Dashboard) (caseId : String) (delivered : List Delivery) : ℕ :=
  (delivered.map fun d => d.event.sequence).foldl max (offsetOf db caseId).lastSourceSequence

theorem foldl_max_le (l : List ℕ) (a n : ℕ) : l.foldl max a ≤ n ↔ a ≤ n ∧ ∀ x ∈ l, x ≤ n := by
  induction l generalizing a with
  | nil => simp
  | cons x rest ih =>
    rw [List.foldl_cons, ih, max_le_iff, List.forall_mem_cons, and_assoc]

theorem foldl_max_congr {l l' : List ℕ} (a : ℕ) (same : ∀ x, x ∈ l ↔ x ∈ l') :
    l.foldl max a = l'.foldl max a := by
  apply le_antisymm
  · rw [foldl_max_le]
    have bound := (foldl_max_le l' a _).mp le_rfl
    exact ⟨bound.1, fun x mem => bound.2 x ((same x).mp mem)⟩
  · rw [foldl_max_le]
    have bound := (foldl_max_le l a _).mp le_rfl
    exact ⟨bound.1, fun x mem => bound.2 x ((same x).mpr mem)⟩

theorem le_watermark (db : Dashboard) (caseId : String) {delivered : List Delivery} {d : Delivery}
    (mem : d ∈ delivered) : d.event.sequence ≤ watermark db caseId delivered :=
  ((foldl_max_le _ _ _).mp le_rfl).2 _ (List.mem_map.mpr ⟨d, mem, rfl⟩)

theorem isGap_eq_true {prior sequence : ℕ} :
    isGap prior sequence = true ↔ 0 < prior ∧ prior + 1 < sequence := by
  simp [isGap]

theorem isGap_of_le {prior sequence : ℕ} (near : sequence ≤ prior + 1) : isGap prior sequence = false := by
  rw [← Bool.not_eq_true, isGap_eq_true]
  omega

theorem sequence_le_of_inOrder {front : List Delivery} {d : Delivery} (order : InOrder (front ++ [d]))
    (db : Dashboard) (caseId : String) : d.event.sequence ≤ watermark db caseId front + 1 := by
  generalize whole : front ++ [d] = ds at order
  cases order with
  | nil => simp at whole
  | first before one =>
    obtain ⟨-, last⟩ := List.append_inj' whole rfl
    cases last
    omega
  | next before earlier delivered source consecutive =>
    obtain ⟨rfl, last⟩ := List.append_inj' whole rfl
    cases last
    have reached := le_watermark db caseId delivered
    omega

section
variable (py : Python)

def outcomes : Dashboard → List Delivery → List (Option ProjectionResult)
  | _, [] => []
  | db, d :: rest => (projectEvent py d db).map Prod.snd :: outcomes (deliver py db d) rest

theorem outcomes_append (db : Dashboard) (front : List Delivery) (d : Delivery) :
    outcomes py db (front ++ [d]) = outcomes py db front ++
      [(projectEvent py d (front.foldl (deliver py) db)).map Prod.snd] := by
  induction front generalizing db with
  | nil => rfl
  | cons head rest ih =>
    rw [List.cons_append, outcomes, ih, outcomes]
    rfl

theorem outcome_of_projected {d : Delivery} {caseId : String} {db : Dashboard} {row : ProjectedEvent}
    {result : ProjectionResult} (ofCase : d.event.caseId = some caseId) (named : caseId ≠ "")
    (found : db.projected.find d.event.eventId = some row)
    (returned : (projectEvent py d db).map Prod.snd = some result) : result.gapDetected = false := by
  rw [projectEvent_eq py ofCase named, found] at returned
  cases early : d.early with
  | false =>
    rw [early] at returned
    cases returned
    rfl
  | true =>
    simp only [early, projectLocked_of_projected py caseId found] at returned
    cases returned

structure NoGap (caseId : String) (db : Dashboard) (ds : List Delivery) : Prop where
  outcomes : ∀ result, some result ∈ outcomes py db ds → result.gapDetected = false
  notifications : (ds.foldl (deliver py) db).notifications = db.notifications
  freshness : freshnessOf (ds.foldl (deliver py) db) caseId = freshnessOf db caseId
  offset : (offsetOf (ds.foldl (deliver py) db) caseId).gapDetected = (offsetOf db caseId).gapDetected

section
variable {caseId : String} {events : List Event} {db : Dashboard}
  (apart : CollisionFree py caseId events) (feed : Feed py db caseId events)
  (taken : ∀ e ∈ events, projectable py db caseId e = true)
include feed taken

theorem mem_delivered {front : List Delivery} (only : ∀ d ∈ front, d.event ∈ events) (e : Event) :
    e ∈ appliedBy py db caseId front ↔ ∃ d ∈ front, d.event = e := by
  rw [mem_appliedBy py feed.distinct only, and_iff_left_iff_imp]
  rintro ⟨d, delivered, rfl⟩
  exact taken d.event (only d delivered)

include apart

theorem offsetOf_run {front : List Delivery} (only : ∀ d ∈ front, d.event ∈ events) :
    (offsetOf (front.foldl (deliver py) db) caseId).lastSourceSequence = watermark db caseId front := by
  rw [(holds_appliedBy py apart feed only).sequence]
  apply foldl_max_congr
  intro n
  simp [mem_delivered py feed taken only]

theorem next_applied {front : List Delivery} {d : Delivery} (only : ∀ d ∈ front, d.event ∈ events)
    (mem : d.event ∈ events) (new : ∀ d' ∈ front, d'.event ≠ d.event) :
    ∃ c version, (projectEvent py d (front.foldl (deliver py) db)).map Prod.snd =
        some ⟨true, false, isGap (watermark db caseId front) d.event.sequence, version⟩ ∧
      Applied py caseId d.event c version (isGap (watermark db caseId front) d.event.sequence)
        (front.foldl (deliver py) db) (deliver py (front.foldl (deliver py) db) d) := by
  have holds := holds_appliedBy py apart feed only
  have members := mem_delivered py feed taken only
  have within : ∀ e ∈ appliedBy py db caseId front, e ∈ events := by
    intro e listed
    obtain ⟨d', delivered, rfl⟩ := (members e).mp listed
    exact only d' delivered
  have unseen : d.event.eventId ∉ (appliedBy py db caseId front).map Event.eventId := by
    intro listed
    obtain ⟨e, earlier, same⟩ := List.mem_map.mp listed
    obtain ⟨d', delivered, rfl⟩ := (members e).mp earlier
    exact new d' delivered (List.inj_on_of_nodup_map feed.distinct (only d' delivered) mem same)
  obtain ⟨c, -, returned, next⟩ :=
    applied_deliver py apart feed mem holds within unseen (taken d.event mem)
  rw [offsetOf_run py apart feed taken only] at next returned
  exact ⟨c, _, returned, next⟩

theorem again_silent {front : List Delivery} {d : Delivery} (only : ∀ d ∈ front, d.event ∈ events)
    (mem : d.event ∈ events) (seen : ∃ d' ∈ front, d'.event = d.event) :
    deliver py (front.foldl (deliver py) db) d = front.foldl (deliver py) db ∧
      ∀ result, (projectEvent py d (front.foldl (deliver py) db)).map Prod.snd = some result →
        result.gapDetected = false := by
  have holds := holds_appliedBy py apart feed only
  have members := mem_delivered py feed taken only
  have listed : d.event.eventId ∈ (appliedBy py db caseId front).map Event.eventId :=
    List.mem_map_of_mem ((members d.event).mpr seen)
  refine ⟨deliver_of_applied py feed mem holds listed, fun result returned => ?_⟩
  obtain ⟨row, found⟩ := found_of_applied py holds listed
  exact outcome_of_projected py (feed.ofCase d.event mem) feed.named found returned

theorem noGap_append {front : List Delivery} {d : Delivery}
    (only : ∀ d ∈ front, d.event ∈ events) (mem : d.event ∈ events)
    (near : d.event.sequence ≤ watermark db caseId front + 1) (before : NoGap py caseId db front) :
    NoGap py caseId db (front ++ [d]) := by
  have run : (front ++ [d]).foldl (deliver py) db = deliver py (front.foldl (deliver py) db) d := by
    rw [List.foldl_append]
    rfl
  by_cases seen : ∃ d' ∈ front, d'.event = d.event
  · obtain ⟨unchanged, silent⟩ := again_silent py apart feed taken only mem seen
    rw [unchanged] at run
    refine ⟨?_, run ▸ before.notifications, run ▸ before.freshness, run ▸ before.offset⟩
    intro result listed
    rw [outcomes_append, List.mem_append, List.mem_singleton] at listed
    rcases listed with earlier | last
    · exact before.outcomes result earlier
    · exact silent result last.symm
  · push Not at seen
    obtain ⟨c, version, returned, applied⟩ := next_applied py apart feed taken only mem seen
    rw [isGap_of_le near] at returned applied
    refine ⟨?_, ?_, ?_, ?_⟩
    · intro result listed
      rw [outcomes_append, returned, List.mem_append, List.mem_singleton, Option.some.injEq] at listed
      rcases listed with earlier | rfl
      · exact before.outcomes result earlier
      · rfl
    · rw [run, applied.notifications, before.notifications]
      exact List.append_nil _
    · rw [run, applied.freshness, if_neg Bool.false_ne_true, before.freshness]
    · rw [run, applied.offset]
      exact (Bool.or_false _).trans before.offset

theorem noGap_of_inOrder {ds : List Delivery} (order : InOrder ds) (only : ∀ d ∈ ds, d.event ∈ events) :
    NoGap py caseId db ds := by
  -- the last delivery is near the watermark, whichever rule admits it
  have step : ∀ {front d}, InOrder (front ++ [d]) → (∀ d' ∈ front ++ [d], d'.event ∈ events) →
      ((∀ d' ∈ front, d'.event ∈ events) → NoGap py caseId db front) →
      NoGap py caseId db (front ++ [d]) := by
    intro front d whole only ih
    have onlyFront : ∀ d' ∈ front, d'.event ∈ events :=
      fun d' mem => only d' (List.mem_append_left _ mem)
    exact noGap_append py apart feed taken onlyFront
      (only d (List.mem_append_right _ List.mem_cons_self))
      (sequence_le_of_inOrder whole db caseId) (ih onlyFront)
  induction order with
  | nil =>
    refine ⟨?_, rfl, rfl, rfl⟩
    intro result listed
    cases listed
  | first before one ih => exact step (.first before one) only ih
  | next before earlier delivered source consecutive ih =>
    exact step (.next before earlier delivered source consecutive) only ih

/-- Sources in order are never said to have left a gap; a new event is said to
follow a gap exactly where it lies beyond the watermark of the case. -/
theorem gap_reported_iff (ds : List Delivery) (only : ∀ d ∈ ds, d.event ∈ events) :
    (InOrder ds → NoGap py caseId db ds) ∧
    ∀ front d back, ds = front ++ d :: back → (∀ d' ∈ front, d'.event ≠ d.event) →
      let before := front.foldl (deliver py) db
      let after := deliver py before d
      ∃ result, (projectEvent py d before).map Prod.snd = some result ∧ result.applied = true ∧
        (result.gapDetected = true ↔
          0 < watermark db caseId front ∧ watermark db caseId front + 1 < d.event.sequence) ∧
        (result.gapDetected = true → freshnessOf after caseId = .gapDetected ∧
          after.notifications = before.notifications ++ [⟨caseId, d.event.eventId,
            watermark db caseId front + 1, d.event.sequence - 1⟩]) := by
  refine ⟨fun order => noGap_of_inOrder py apart feed taken order only, ?_⟩
  intro front d back whole new before after
  have onlyFront : ∀ d' ∈ front, d'.event ∈ events := by
    intro d' mem
    exact only d' (whole ▸ List.mem_append_left _ mem)
  have mem : d.event ∈ events :=
    only d (whole ▸ List.mem_append_right _ List.mem_cons_self)
  obtain ⟨c, version, returned, applied⟩ := next_applied py apart feed taken onlyFront mem new
  refine ⟨_, returned, rfl, isGap_eq_true, ?_⟩
  intro gap
  change isGap (watermark db caseId front) d.event.sequence = true at gap
  rw [gap] at applied
  refine ⟨applied.freshness, ?_⟩
  rw [applied.notifications, offsetOf_run py apart feed taken onlyFront]
  rfl

end

end

def inOrderDetections : List Delivery := detections.map fun e => ⟨e, false⟩

theorem inOrderDetections_inOrder : InOrder inOrderDetections := by
  have one : InOrder ([] ++ inOrderDetections.take 1) := .first .nil rfl
  exact .next one ⟨sampleEvent "01HX3QK7Z0000000000000000A" "sensor-1" 1, false⟩
    List.mem_cons_self rfl rfl

theorem detections_without_gap : NoGap samplePython sampleCase sampleDashboard inOrderDetections :=
  (gap_reported_iff samplePython detections_apart detections_feed detections_taken inOrderDetections
    (by simp [inOrderDetections])).1 inOrderDetections_inOrder

def skipping : List Delivery :=
  [⟨sampleEvent "01HX3QK7Z0000000000000000A" "sensor-1" 1, false⟩,
    ⟨sampleEvent "01HX3QK7Z0000000000000000B" "sensor-1" 2, false⟩,
    ⟨sampleEvent "01HX3QK7Z0000000000000000C" "sensor-2" 1, false⟩,
    ⟨sampleEvent "01HX3QK7Z0000000000000000D" "sensor-2" 3, false⟩]

/-- The second sensor's sequence 2 is lost, and nobody hears of it. -/
theorem skipped_sequence_unreported :
    ((skipping.filter fun d => d.event.sourceId = "sensor-2").map fun d => d.event.sequence) = [1, 3] ∧
    outcomes samplePython sampleDashboard skipping =
      [some ⟨true, false, false, 1⟩, some ⟨true, false, false, 2⟩, some ⟨true, false, false, 3⟩,
        some ⟨true, false, false, 4⟩] ∧
    (skipping.foldl (deliver samplePython) sampleDashboard).notifications = [] := by
  decide +kernel

end Mirage.DashboardGaps
