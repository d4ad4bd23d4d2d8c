import Mirage.ReportRun

/-! When a report that becomes COMPLETED describes the state that it names. -/

namespace Mirage.ReportDescription
open EvidenceAcquisition ExportEligibility ExportGeneration ReportRun EventRun
open DashboardRecords (TimelineItem Python itemId recordsOf contentOf Event)
open DashboardProjection (Dashboard Delivery deliver offsetOf projectable projectLocked putTimeline)

/-! The objects of a ledger, whatever their statuses. -/

def SameDigests (a b : List EvidenceRow) : Prop := ∀ p, p ∈ a.map digest ↔ p ∈ b.map digest

def Recorded (e : Evidence) (rows : List EvidenceRow) : Prop :=
  ∀ p ∈ rows.map digest, p ∈ e.rows.rows.map digest

structure SameObjects (e e' : Evidence) : Prop where
  recorded : SameDigests e'.rows.rows e.rows.rows
  manifest : ∀ caseId, SameDigests (manifestEvidence e' caseId) (manifestEvidence e caseId)

theorem sameObjects_of_map {e e' : Evidence} {f : EvidenceRow → EvidenceRow}
    (rows : e'.rows.rows = e.rows.rows.map f)
    (keeps : ∀ row, (f row).caseId = row.caseId ∧ (f row).evidenceType = row.evidenceType ∧
      digest (f row) = digest row) : SameObjects e e' where
  recorded := by
    intro p
    rw [rows, List.map_map]
    have same : digest ∘ f = digest := funext fun row => (keeps row).2.2
    rw [same]
  manifest := by
    intro caseId p
    have same : manifestEvidence e' caseId = (manifestEvidence e caseId).map f := by
      unfold manifestEvidence Evidence.ofCase
      rw [rows, List.filter_map, List.filter_map]
      congr 1
      rw [List.filter_congr (q := fun row => !isPackagePart row.evidenceType)]
      · congr 1
        apply List.filter_congr
        intro row _
        simp only [Function.comp, (keeps row).1]
      · intro row _
        simp only [Function.comp, (keeps row).2.1]
    have digests : digest ∘ f = digest := funext fun row => (keeps row).2.2
    rw [same, List.map_map, digests]

theorem verifiedRow_keeps (v : Verifier) (evidenceIds : List String) (row : EvidenceRow) :
    (verifiedRow v evidenceIds row).caseId = row.caseId ∧
      (verifiedRow v evidenceIds row).evidenceType = row.evidenceType ∧
      digest (verifiedRow v evidenceIds row) = digest row := by
  obtain ⟨sameCase, sameType, sameId, sameHash, -⟩ := verifiedRow_fields v evidenceIds row
  exact ⟨sameCase, sameType, Prod.ext sameId sameHash⟩

theorem sameObjects_verify {v : Verifier} {e e' : Evidence} {evidenceId status : String}
    (ran : verify v e evidenceId = .ok (e', status)) : SameObjects e e' := by
  obtain ⟨row, found, rfl, -⟩ := verify_eq_ok.mp ran
  exact sameObjects_of_map (record_rows v (e.rows.mem_of_find found)) (verifiedRow_keeps v _)

theorem sameObjects_loadManifest {v : Verifier} {e e' : Evidence} {caseId : String} {rows : List EvidenceRow}
    (loaded : loadManifest v e caseId = .ok (e', rows)) : SameObjects e e' := by
  obtain ⟨⟨results, ran⟩, -, -⟩ := loadManifest_eq_ok.mp loaded
  exact sameObjects_of_map (verifyAll_spec ran).1 (verifiedRow_keeps v _)

theorem recorded_manifestEvidence (e : Evidence) (caseId : String) : Recorded e (manifestEvidence e caseId) := by
  intro p mem
  obtain ⟨row, memRow, rfl⟩ := List.mem_map.mp mem
  exact List.mem_map_of_mem (mem_manifestEvidence.mp memRow).1.1

theorem digest_unique {e : Evidence} {p q : String × String} (mem : p ∈ e.rows.rows.map digest)
    (mem' : q ∈ e.rows.rows.map digest) (same : p.1 = q.1) : p = q := by
  obtain ⟨row, memRow, rfl⟩ := List.mem_map.mp mem
  obtain ⟨row', memRow', rfl⟩ := List.mem_map.mp mem'
  rw [e.rows.key_injective memRow memRow' same]

theorem sameDigests_of_ids {e : Evidence} {a b : List EvidenceRow} (left : Recorded e a) (right : Recorded e b)
    (ids : ∀ evidenceId, evidenceId ∈ evidenceIds a ↔ evidenceId ∈ evidenceIds b) : SameDigests a b := by
  have half : ∀ a b : List EvidenceRow, Recorded e a → Recorded e b →
      (∀ evidenceId, evidenceId ∈ evidenceIds a → evidenceId ∈ evidenceIds b) →
      ∀ p ∈ a.map digest, p ∈ b.map digest := by
    intro a b left right ids p mem
    obtain ⟨row, memRow, rfl⟩ := List.mem_map.mp mem
    obtain ⟨other, memOther, same⟩ := List.mem_map.mp (ids _ (List.mem_map_of_mem memRow))
    have memDigest := List.mem_map_of_mem (f := digest) memOther
    rw [digest_unique (left _ mem) (right _ memDigest) same.symm]
    exact memDigest
  intro p
  exact ⟨half a b left right (fun i => (ids i).mp) p, half b a right left (fun i => (ids i).mpr) p⟩

/-! What holds of a report at each stage. -/

def Early (s : State) (r : Report) : Prop :=
  ∀ item ∈ itemsOf s.dashboard r.caseId, item.version ≤ r.sourceProjectionVersion

def Linked (s : State) (r : Report) (x : String) : Prop :=
  ∃ row, s.exports.find x = some row ∧ row.caseId = r.caseId

def Signed (s : State) (r : Report) (x : String) : Prop :=
  ∃ row, s.exports.find x = some row ∧ row.caseId = r.caseId ∧ row.verificationStatus = verified ∧
    row.objects.isSome = true

def Unread (s : State) (r : Report) (x : String) : Prop :=
  r.exportMode ≠ "COMPLETE_CASE" → ∀ objects, (s.exports.find x).bind Export.objects = some objects →
    SameDigests objects (manifestEvidence s.evidence r.caseId)

def Read (s : State) (r : Report) (x : String) (evidence : List EvidenceRow) : Prop :=
  Recorded s.evidence evidence ∧ (r.exportMode ≠ "COMPLETE_CASE" →
    ∀ objects, (s.exports.find x).bind Export.objects = some objects → SameDigests objects evidence)

def Shown (s : State) (r : Report) (timeline : List Transition) (items : List TimelineItem) : Prop :=
  (items ≠ [] ∨ timeline = []) ∧ ∀ item, item ∈ items ↔
    item ∈ itemsOf s.dashboard r.caseId ∧ item.version ≤ r.sourceProjectionVersion

def Agrees (s : State) (r : Report) : Prop :=
  match r.stage with
  | .requested | .queued => Early s r
  | .waitingForExport x => Linked s r x ∧ Unread s r x ∧ Early s r
  | .generating x | .transitionsRead x _ => Signed s r x ∧ Unread s r x ∧ Early s r
  | .evidenceRead x _ evidence => Signed s r x ∧ Read s r x evidence ∧ Early s r
  | .loaded x timeline evidence items => Signed s r x ∧ Read s r x evidence ∧ Shown s r timeline items
  | .completed _ | .failed => True

structure ExportSound (e : Evidence) (x : Export) : Prop where
  recorded : ∀ objects, x.objects = some objects → Recorded e objects
  signed : x.verificationStatus = verified → x.objects.isSome = true

structure Sound (s : State) : Prop where
  reports : ∀ r ∈ s.reports.rows, Agrees s r
  exports : ∀ x ∈ s.exports.rows, ExportSound s.evidence x

theorem linked_of_signed {s : State} {r : Report} {x : String} (signed : Signed s r x) : Linked s r x := by
  obtain ⟨row, found, ofCase, -, -⟩ := signed
  exact ⟨row, found, ofCase⟩

theorem linked_of_agrees {s : State} {r : Report} {x : String} (agrees : Agrees s r)
    (linked : r.stage.exportId = some x) : Linked s r x := by
  unfold Agrees at agrees
  cases stage : r.stage <;> rw [stage] at agrees linked <;> cases linked
  · exact agrees.1
  all_goals exact linked_of_signed agrees.1

theorem pending_waiting {s : State} {r : Report} {x : Export} (agrees : Agrees s r)
    (found : s.exports.find x.exportId = some x) (pending : x.verificationStatus = "PENDING")
    (linked : r.stage.exportId = some x.exportId) : r.stage = .waitingForExport x.exportId := by
  have unsigned : ¬ Signed s r x.exportId := by
    rintro ⟨row, found', -, status, -⟩
    rw [found] at found'
    cases found'
    rw [pending] at status
    exact absurd status (by decide)
  unfold Agrees at agrees
  cases stage : r.stage <;> rw [stage] at agrees linked <;> cases linked
  · rfl
  all_goals exact absurd agrees.1 unsigned

structure Frame (s s' : State) (r : Report) : Prop where
  exports : ∀ x, r.stage.exportId = some x → s'.exports.find x = s.exports.find x
  recorded : ∀ p ∈ s.evidence.rows.rows.map digest, p ∈ s'.evidence.rows.rows.map digest
  manifest : awaitsEvidence s r → r.exportMode ≠ "COMPLETE_CASE" →
    SameDigests (manifestEvidence s'.evidence r.caseId) (manifestEvidence s.evidence r.caseId)
  early : awaitsTimeline r.stage → ∀ item ∈ itemsOf s'.dashboard r.caseId,
    item ∈ itemsOf s.dashboard r.caseId ∨ item.version ≤ r.sourceProjectionVersion
  shown : holdsTimeline r.stage → ∀ item, item.version ≤ r.sourceProjectionVersion →
    (item ∈ itemsOf s'.dashboard r.caseId ↔ item ∈ itemsOf s.dashboard r.caseId)

theorem Frame.agrees {s s' : State} {r : Report} (frame : Frame s s' r) (agrees : Agrees s r) :
    Agrees s' r := by
  have exports := frame.exports
  have manifest := frame.manifest
  have early : awaitsTimeline r.stage → Early s r → Early s' r := by
    intro awaits before item mem
    rcases frame.early awaits item mem with old | new
    · exact before item old
    · exact new
  have linked : ∀ x, r.stage.exportId = some x → Linked s r x → Linked s' r x := by
    intro x same ⟨row, found, ofCase⟩
    exact ⟨row, (exports x same).trans found, ofCase⟩
  have signed : ∀ x, r.stage.exportId = some x → Signed s r x → Signed s' r x := by
    intro x same ⟨row, found, rest⟩
    exact ⟨row, (exports x same).trans found, rest⟩
  have unread : ∀ x, r.stage.exportId = some x →
      (((s.exports.find x).bind Export.objects).isSome = true → awaitsEvidence s r) →
      Unread s r x → Unread s' r x := by
    intro x same awaits before mode objects found p
    rw [exports x same] at found
    have changed := manifest (awaits (by rw [found]; rfl)) mode
    exact (before mode objects found p).trans (changed p).symm
  have read : ∀ x evidence, r.stage.exportId = some x → Read s r x evidence → Read s' r x evidence := by
    intro x evidence same ⟨recorded, before⟩
    refine ⟨fun p mem => frame.recorded p (recorded p mem), fun mode objects found => ?_⟩
    rw [exports x same] at found
    exact before mode objects found
  have shown : ∀ timeline items, holdsTimeline r.stage → Shown s r timeline items →
      Shown s' r timeline items := by
    intro timeline items holds ⟨drawn, before⟩
    refine ⟨drawn, fun item => (before item).trans ?_⟩
    exact and_congr_left fun version => (frame.shown holds item version).symm
  unfold Agrees at agrees ⊢
  unfold awaitsEvidence at unread
  cases stage : r.stage <;> rw [stage] at agrees linked signed unread read early shown <;>
    simp only at agrees ⊢
  case requested => exact early trivial agrees
  case queued => exact early trivial agrees
  case waitingForExport x =>
    exact ⟨linked x rfl agrees.1, unread x rfl id agrees.2.1, early trivial agrees.2.2⟩
  case generating x =>
    exact ⟨signed x rfl agrees.1, unread x rfl id agrees.2.1, early trivial agrees.2.2⟩
  case transitionsRead x timeline =>
    exact ⟨signed x rfl agrees.1, unread x rfl id agrees.2.1, early trivial agrees.2.2⟩
  case evidenceRead x timeline evidence =>
    exact ⟨signed x rfl agrees.1, read x evidence rfl agrees.2.1, early trivial agrees.2.2⟩
  case loaded x timeline evidence items =>
    exact ⟨signed x rfl agrees.1, read x evidence rfl agrees.2.1, shown timeline items trivial agrees.2.2⟩

def Reported (s s' : State) : Prop :=
  ∀ r ∈ s'.reports.rows, ∀ content, r.stage = .completed content →
    r ∈ s.reports.rows ∨ Describes s' r content

theorem reported_of_reports {s s' : State} (same : s'.reports = s.reports) : Reported s s' := by
  intro r mem content _
  rw [same] at mem
  exact .inl mem

theorem mem_setStage {s : State} {reportId : String} {stage : Stage} {r : Report}
    (mem : r ∈ (s.setStage reportId stage).reports.rows) :
    r ∈ s.reports.rows ∨ ∃ old, s.reports.find reportId = some old ∧ r = { old with stage } := by
  obtain ⟨old, memOld, rfl⟩ := List.mem_map.mp mem
  by_cases same : old.reportId = reportId
  · exact .inr ⟨old, s.reports.find_eq_some.mpr ⟨memOld, same⟩, by simp only [same, if_true]⟩
  · exact .inl (by simpa only [same, if_false] using memOld)

theorem reported_setStage {s s' : State} {reportId : String} {stage : Stage} (same : s'.reports = s.reports)
    (other : ∀ content, stage ≠ .completed content) : Reported s (s'.setStage reportId stage) := by
  intro r mem content completed
  rcases mem_setStage mem with old | ⟨old, -, rfl⟩
  · rw [same] at old
    exact .inl old
  · exact absurd completed (other content)

theorem sound_setStage {s : State} {reportId : String} {stage : Stage} (sound : Sound s)
    (agrees : ∀ r, s.reports.find reportId = some r → Agrees s { r with stage }) :
    Sound (s.setStage reportId stage) where
  reports := by
    intro r mem
    rcases mem_setStage mem with old | ⟨old, found, rfl⟩
    · exact sound.reports r old
    · exact agrees old found
  exports := sound.exports

theorem sound_setStage_found {s : State} {r : Report} {stage : Stage} (sound : Sound s)
    (found : s.reports.find r.reportId = some r) (agrees : Agrees s { r with stage }) :
    Sound (s.setStage r.reportId stage) := by
  refine sound_setStage sound fun old located => ?_
  have one : old = r := Option.some.inj (located.symm.trans found)
  rw [one]
  exact agrees

theorem sound_of_frame {s s' : State} (sound : Sound s) (reports : s'.reports = s.reports)
    (exports : s'.exports = s.exports) (frame : ∀ r ∈ s.reports.rows, Frame s s' r)
    (recorded : ∀ p ∈ s.evidence.rows.rows.map digest, p ∈ s'.evidence.rows.rows.map digest) :
    Sound s' where
  reports := by
    intro r mem
    rw [reports] at mem
    exact (frame r mem).agrees (sound.reports r mem)
  exports := by
    intro x mem
    rw [exports] at mem
    have before := sound.exports x mem
    exact ⟨fun objects loaded p memP => recorded p (before.recorded objects loaded p memP), before.signed⟩

theorem sound_sameObjects {s : State} {evidence : Evidence} (sound : Sound s)
    (same : SameObjects s.evidence evidence) : Sound { s with evidence } := by
  have recorded : ∀ p ∈ s.evidence.rows.rows.map digest, p ∈ evidence.rows.rows.map digest :=
    fun p mem => (same.recorded p).mpr mem
  refine sound_of_frame sound rfl rfl (fun r _ => ?_) recorded
  exact {
    exports := fun _ _ => rfl
    recorded
    manifest := fun _ _ => same.manifest r.caseId
    early := fun _ item mem => .inl mem
    shown := fun _ item _ => Iff.rfl }

theorem manifestEvidence_insert {e : Evidence} {rows : KeyedTable EvidenceRow.evidenceId} {row : EvidenceRow}
    (inserted : e.rows.insert row = some rows) {caseId : String}
    (other : ¬ (row.caseId = caseId ∧ isPackagePart row.evidenceType = false)) :
    manifestEvidence { e with rows } caseId = manifestEvidence e caseId := by
  have appended := (KeyedTable.insert_eq_some inserted).2
  have excluded : (([row].filter fun row => row.caseId = caseId).filter fun row =>
      !isPackagePart row.evidenceType) = [] := by
    rw [List.filter_filter, List.filter_eq_nil_iff]
    intro added mem chosen
    rw [List.mem_singleton.mp mem] at chosen
    simp only [Bool.and_eq_true, Bool.not_eq_true', decide_eq_true_eq] at chosen
    exact other ⟨chosen.2, chosen.1⟩
  simp only [manifestEvidence, Evidence.ofCase, appended, List.filter_append, excluded, List.append_nil]

theorem sound_acquire {s : State} {row : EvidenceRow} {rows : KeyedTable EvidenceRow.evidenceId}
    (sound : Sound s) (inserted : s.evidence.rows.insert row = some rows)
    (undisturbed : isPackagePart row.evidenceType = false → ∀ r ∈ s.reports.rows, r.caseId = row.caseId →
      r.exportMode ≠ "COMPLETE_CASE" → ¬ awaitsEvidence s r) :
    Sound { s with evidence := { s.evidence with rows } } := by
  have recorded : ∀ p ∈ s.evidence.rows.rows.map digest, p ∈ rows.rows.map digest := by
    intro p mem
    rw [(KeyedTable.insert_eq_some inserted).2, List.map_append]
    exact List.mem_append_left _ mem
  refine sound_of_frame sound rfl rfl (fun r mem => ?_) recorded
  refine {
    exports := fun _ _ => rfl
    recorded
    manifest := fun awaits mode => ?_
    early := fun _ item mem => .inl mem
    shown := fun _ item _ => Iff.rfl }
  have other : ¬ (row.caseId = r.caseId ∧ isPackagePart row.evidenceType = false) := by
    rintro ⟨ofCase, kind⟩
    exact undisturbed kind r mem ofCase.symm mode awaits
  intro p
  change p ∈ (manifestEvidence { s.evidence with rows } r.caseId).map digest ↔ _
  rw [manifestEvidence_insert inserted other]

/-! The projection of an event. -/

section
variable (py : Python)

theorem projectLocked_timeline {db : Dashboard} {e : Event} {caseId : String}
    {result : Dashboard × DashboardProjection.ProjectionResult}
    (returned : projectLocked py e caseId db = some result) :
    ∃ c, result.1.timeline =
      putTimeline (recordsOf py e caseId c ((offsetOf db caseId).projectionVersion + 1)).timeline db.timeline := by
  simp only [projectLocked, DashboardProjection.ensureOffset_find, guard, Option.bind_eq_bind,
    Option.bind_eq_some_iff, Option.pure_def, Option.some.injEq] at returned
  obtain ⟨_, known, offset, located, time, parsed, db₁, wroteCase, records, converted, db₂, wroteItem, db₃,
    wroteNode, db₄, wroteEdge, projected, inserted, _, correlated, rfl⟩ := returned
  obtain ⟨rfl⟩ := located
  obtain ⟨c, content, rfl⟩ := Option.map_eq_some_iff.mp converted
  obtain ⟨-, rfl⟩ := DashboardProjection.upsertNode_eq_some wroteCase
  obtain ⟨-, rfl⟩ := DashboardProjection.upsertTimeline_eq_some wroteItem
  obtain ⟨-, rfl⟩ := DashboardProjection.upsertNode_eq_some wroteNode
  obtain ⟨-, rfl⟩ := DashboardProjection.upsertEdge_eq_some wroteEdge
  refine ⟨c, ?_⟩
  simp only
  split <;> rfl

theorem deliver_timeline (db : Dashboard) (d : Delivery) :
    (deliver py db d).timeline = db.timeline ∨
      ∃ caseId c, d.event.caseId = some caseId ∧ db.projected.find d.event.eventId = none ∧
        projectable py db caseId d.event = true ∧
        (deliver py db d).timeline = putTimeline
          (recordsOf py d.event caseId c ((offsetOf db caseId).projectionVersion + 1)).timeline db.timeline := by
  cases called : DashboardProjection.projectEvent py d db with
  | none =>
    refine .inl ?_
    rw [deliver, called]
    rfl
  | some result =>
    have after : deliver py db d = result.1 := by
      rw [deliver, called]
      rfl
    rw [after]
    unfold DashboardProjection.projectEvent at called
    split at called
    · cases called
      exact .inl rfl
    · cases called
      exact .inl rfl
    · rename_i caseId named ofCase
      split at called
      · cases called
        exact .inl rfl
      · obtain ⟨taken, absent⟩ := DashboardProjection.projectLocked_eq_some py called
        obtain ⟨c, wrote⟩ := projectLocked_timeline py called
        exact .inr ⟨caseId, c, ofCase, absent, taken, wrote⟩

theorem mem_putTimeline {item : TimelineItem} {t : KeyedTable TimelineItem.itemId} {caseId : String}
    (kept : ∀ row, t.find item.itemId = some row → row.caseId ≠ caseId) (row : TimelineItem) :
    row ∈ (putTimeline item t).rows ∧ row.caseId = caseId →
      (row ∈ t.rows ∧ row.caseId = caseId) ∨ row = item := by
  rintro ⟨mem, ofCase⟩
  cases found : t.find item.itemId with
  | none =>
    rw [DashboardProjection.putTimeline_of_absent found, List.mem_append, List.mem_singleton] at mem
    rcases mem with old | new
    · exact .inl ⟨old, ofCase⟩
    · exact .inr new
  | some other =>
    have located := KeyedTable.find_upsert t item (DashboardProjection.TimelineItem.merge · item)
      (fun row => DashboardProjection.TimelineItem.merge_itemId row item) row.itemId
    rw [show (t.upsert item _ _) = putTimeline item t from rfl, (putTimeline item t).find_of_mem mem] at located
    by_cases same : row.itemId = item.itemId
    · rw [if_pos same, found, Option.map_some, Option.getD_some, Option.some.injEq] at located
      rw [located] at ofCase
      exact absurd ofCase (kept other found)
    · rw [if_neg same] at located
      exact .inl ⟨t.mem_of_find located.symm, ofCase⟩

theorem mem_putTimeline_of_mem {item : TimelineItem} {t : KeyedTable TimelineItem.itemId} {row : TimelineItem}
    (kept : ∀ old, t.find item.itemId = some old → old.caseId ≠ row.caseId) (mem : row ∈ t.rows) :
    row ∈ (putTimeline item t).rows := by
  have located := KeyedTable.find_upsert t item (DashboardProjection.TimelineItem.merge · item)
    (fun row => DashboardProjection.TimelineItem.merge_itemId row item) row.itemId
  have other : row.itemId ≠ item.itemId := by
    intro same
    have found := t.find_of_mem mem
    rw [same] at found
    exact kept row found rfl
  rw [if_neg other, t.find_of_mem mem] at located
  exact (putTimeline item t).mem_of_find located

theorem frame_projectEvent {s : State} {d : Delivery} {r : Report}
    (undisturbed : ∀ caseId, d.event.caseId = some caseId →
      s.dashboard.projected.find d.event.eventId = none →
      projectable py s.dashboard caseId d.event = true →
      awaitsTimeline r.stage ∨ holdsTimeline r.stage → Passes py s.dashboard d r) :
    Frame s { s with dashboard := deliver py s.dashboard d } r where
  exports _ _ := rfl
  recorded _ mem := mem
  manifest _ _ _ := Iff.rfl
  early := by
    intro awaits item mem
    obtain ⟨memRows, ofCase⟩ := List.mem_filter.mp mem
    rw [decide_eq_true_eq] at ofCase
    rcases deliver_timeline py s.dashboard d with same | ⟨caseId, c, named, absent, taken, wrote⟩
    · rw [same] at memRows
      exact .inl (List.mem_filter.mpr ⟨memRows, decide_eq_true ofCase⟩)
    · have passes := undisturbed caseId named absent taken (.inl awaits)
      rw [wrote] at memRows
      rcases mem_putTimeline passes.kept item ⟨memRows, ofCase⟩ with ⟨old, _⟩ | rfl
      · exact .inl (List.mem_filter.mpr ⟨old, decide_eq_true ofCase⟩)
      · obtain ⟨rfl⟩ : caseId = r.caseId := ofCase
        exact .inr (passes.unread named awaits)
  shown := by
    intro holds item version
    rw [itemsOf, itemsOf, List.mem_filter, List.mem_filter, decide_eq_true_eq]
    rcases deliver_timeline py s.dashboard d with same | ⟨caseId, c, named, absent, taken, wrote⟩
    · rw [same]
    · have passes := undisturbed caseId named absent taken (.inr holds)
      rw [wrote]
      constructor
      · intro mem
        rcases mem_putTimeline passes.kept item mem with old | rfl
        · exact old
        · obtain ⟨rfl⟩ : caseId = r.caseId := mem.2
          exact absurd version (Nat.not_le.mpr (passes.shown named holds))
      · rintro ⟨mem, ofCase⟩
        refine ⟨mem_putTimeline_of_mem (fun old found => ?_) mem, ofCase⟩
        rw [ofCase]
        exact passes.kept old found

end

theorem mem_setExport {s : State} {exportId : String} {f : Export → Export}
    {keeps : ∀ x, (f x).exportId = x.exportId} {x : Export} (mem : x ∈ (s.setExport exportId f keeps).exports.rows) :
    x ∈ s.exports.rows ∨ ∃ old, s.exports.find exportId = some old ∧ x = f old := by
  obtain ⟨old, memOld, rfl⟩ := List.mem_map.mp mem
  by_cases same : old.exportId = exportId
  · exact .inr ⟨old, s.exports.find_eq_some.mpr ⟨memOld, same⟩, by simp only [same, if_true]⟩
  · exact .inl (by simpa only [same, if_false] using memOld)

theorem find_setExport (s : State) (exportId : String) (f : Export → Export)
    (keeps : ∀ x, (f x).exportId = x.exportId) (x : String) :
    (s.setExport exportId f keeps).exports.find x =
      if x = exportId then (s.exports.find exportId).map f else s.exports.find x :=
  KeyedTable.find_update s.exports exportId f keeps x

theorem sound_setExport {s : State} {x : Export} {f : Export → Export}
    {keeps : ∀ x, (f x).exportId = x.exportId} (sound : Sound s) (found : s.exports.find x.exportId = some x)
    (pending : x.verificationStatus = "PENDING") (sameCase : (f x).caseId = x.caseId)
    (objects : ∀ objects, (f x).objects = some objects →
      x.objects = some objects ∨ objects = manifestEvidence s.evidence x.caseId)
    (signed : (f x).verificationStatus = verified → (f x).objects.isSome = true) :
    Sound (s.setExport x.exportId f keeps) where
  reports := by
    intro r mem
    have agrees := sound.reports r mem
    by_cases linked : r.stage.exportId = some x.exportId
    · have stage := pending_waiting agrees found pending linked
      have here : (s.setExport x.exportId f keeps).exports.find x.exportId = some (f x) := by
        rw [find_setExport, if_pos rfl, found, Option.map_some]
      unfold Agrees at agrees ⊢
      rw [stage] at agrees ⊢
      obtain ⟨⟨row, found', ofCase⟩, unread, early⟩ := agrees
      rw [found] at found'
      cases found'
      refine ⟨⟨f x, here, sameCase.trans ofCase⟩, fun mode loaded given => ?_, early⟩
      rw [here, Option.bind_some] at given
      rcases objects loaded given with before | now
      · exact unread mode loaded (by rw [found]; exact before)
      · intro p
        rw [now, ofCase]
        rfl
    · refine Frame.agrees ?_ agrees
      exact {
        exports := fun y same => by
          rw [find_setExport, if_neg]
          intro equal
          rw [equal] at same
          exact linked same
        recorded := fun _ memP => memP
        manifest := fun _ _ _ => Iff.rfl
        early := fun _ item mem => .inl mem
        shown := fun _ item _ => Iff.rfl }
  exports := by
    intro y mem
    rcases mem_setExport mem with old | ⟨old, found', rfl⟩
    · exact sound.exports y old
    · rw [found] at found'
      cases found'
      refine ⟨fun loaded given => ?_, signed⟩
      rcases objects loaded given with before | now
      · exact (sound.exports x (s.exports.mem_of_find found)).recorded loaded before
      · rw [now]
        exact recorded_manifestEvidence s.evidence x.caseId

theorem sound_insertExport {s : State} {exports : KeyedTable Export.exportId} {exportId caseId : String}
    (sound : Sound s) (inserted : s.exports.insert ⟨exportId, caseId, "PENDING", none⟩ = some exports) :
    Sound { s with exports } where
  reports := by
    intro r mem
    have agrees := sound.reports r mem
    refine Frame.agrees ?_ agrees
    refine {
      exports := fun x same => ?_
      recorded := fun _ memP => memP
      manifest := fun _ _ _ => Iff.rfl
      early := fun _ item mem => .inl mem
      shown := fun _ item _ => Iff.rfl }
    obtain ⟨row, found, -⟩ := linked_of_agrees agrees same
    have fresh := (KeyedTable.insert_eq_some inserted).1
    have other : exportId ≠ x := by
      intro equal
      rw [equal] at fresh
      exact fresh (List.mem_map.mpr ⟨row, s.exports.mem_of_find found, s.exports.key_of_find found⟩)
    exact (KeyedTable.find_insert inserted x).trans (if_neg other)
  exports := by
    intro x mem
    change x ∈ exports.rows at mem
    rw [(KeyedTable.insert_eq_some inserted).2, List.mem_append, List.mem_singleton] at mem
    rcases mem with old | rfl
    · exact sound.exports x old
    · exact ⟨fun _ given => (by cases given), fun status => absurd status (show "PENDING" ≠ verified by decide)⟩

theorem sound_loadExport {s : State} {x : Export} (v : Verifier) (sound : Sound s)
    (found : s.exports.find x.exportId = some x) : Sound (loadExport s x v) := by
  unfold loadExport
  split
  · rename_i ready
    split
    · refine sound_setExport sound found ready.1 rfl (fun objects given => .inl given) ?_
      exact fun status => absurd status (show "FAILED" ≠ verified by decide)
    · rename_i evidence rows loaded
      have next := sound_sameObjects sound (sameObjects_loadManifest loaded)
      refine sound_setExport next found ready.1 rfl (fun objects given => .inr ?_) fun _ => rfl
      rw [← Option.some.inj given]
      exact (loadManifest_eq_ok.mp loaded).2.2
  · exact sound

theorem sound_signExport {s : State} {x : Export} (stored : Bool) (sound : Sound s)
    (found : s.exports.find x.exportId = some x) : Sound (signExport s x stored) := by
  unfold signExport
  split
  · rename_i ready
    exact sound_setExport sound found ready.1 rfl (fun objects given => .inl given) fun _ => ready.2
  · exact sound

theorem sound_advance {s : State} {r : Report} (exportId : String) (sound : Sound s)
    (found : s.reports.find r.reportId = some r) : Sound (advance s r exportId) := by
  have agrees := sound.reports r (s.reports.mem_of_find found)
  unfold advance
  unfold Agrees at agrees
  split
  · rename_i stage
    rw [stage] at agrees
    split
    · exact sound
    · rename_i exports inserted
      refine sound_setStage_found (sound_insertExport sound inserted) found ?_
      have here : exports.find exportId = some ⟨exportId, r.caseId, "PENDING", none⟩ :=
        (KeyedTable.find_insert inserted exportId).trans (if_pos rfl)
      refine ⟨⟨_, here, rfl⟩, fun _ objects given => ?_, agrees⟩
      rw [show State.exports _ = exports from rfl, here] at given
      cases given
  · rename_i x stage
    rw [stage] at agrees
    split
    · exact sound_setStage sound fun _ _ => trivial
    · rename_i row located
      split
      · exact sound_setStage sound fun _ _ => trivial
      · split
        · rename_i signed
          refine sound_setStage_found sound found ?_
          obtain ⟨⟨other, found', ofCase⟩, unread, early⟩ := agrees
          obtain ⟨rfl⟩ : row = other := Option.some.inj (located.symm.trans found')
          have filled := (sound.exports row (s.exports.mem_of_find located)).signed signed
          exact ⟨⟨row, located, ofCase, signed, filled⟩, unread, early⟩
        · exact sound
  · exact sound

theorem sound_settle {s : State} {r : Report} (committed : Bool) (sound : Sound s)
    (found : s.reports.find r.reportId = some r) : Sound (settle s r committed) := by
  have agrees := sound.reports r (s.reports.mem_of_find found)
  unfold settle
  unfold Agrees at agrees
  split
  · rename_i stage
    rw [stage] at agrees
    refine sound_setStage_found sound found ?_
    cases committed with
    | true => exact agrees
    | false => exact trivial
  · exact sound

theorem sound_readTransitions {s : State} {r : Report} (sound : Sound s)
    (found : s.reports.find r.reportId = some r) : Sound (readTransitions s r) := by
  have agrees := sound.reports r (s.reports.mem_of_find found)
  unfold readTransitions
  unfold Agrees at agrees
  split
  · rename_i x stage
    rw [stage] at agrees
    refine sound_setStage_found sound found ?_
    exact agrees
  · exact sound

theorem sound_readEvidence {s : State} {r : Report} (sound : Sound s)
    (found : s.reports.find r.reportId = some r) : Sound (readEvidence s r) := by
  have agrees := sound.reports r (s.reports.mem_of_find found)
  unfold readEvidence
  unfold Agrees at agrees
  split
  · rename_i x timeline stage
    rw [stage] at agrees
    refine sound_setStage_found sound found ?_
    obtain ⟨signed, unread, early⟩ := agrees
    exact ⟨signed, ⟨recorded_manifestEvidence s.evidence r.caseId, unread⟩, early⟩
  · exact sound

theorem sound_readDashboardTimeline {s : State} {r : Report} (sound : Sound s)
    (found : s.reports.find r.reportId = some r)
    (drawn : ∀ x timeline evidence, r.stage = .evidenceRead x timeline evidence →
      itemsOf s.dashboard r.caseId ≠ [] ∨ timeline = []) : Sound (readDashboardTimeline s r) := by
  have agrees := sound.reports r (s.reports.mem_of_find found)
  unfold readDashboardTimeline
  unfold Agrees at agrees
  split
  · rename_i x timeline evidence stage
    rw [stage] at agrees
    refine sound_setStage_found sound found ?_
    obtain ⟨signed, read, early⟩ := agrees
    refine ⟨signed, read, drawn x timeline evidence stage, fun item => ?_⟩
    exact ⟨fun mem => ⟨mem, early item mem⟩, fun both => both.1⟩
  · exact sound

theorem sound_finish {s : State} {r : Report} (stored : Bool) (sound : Sound s) : Sound (finish s r stored) := by
  unfold finish
  split
  · split
    · exact sound_setStage sound fun _ _ => trivial
    · split <;> exact sound_setStage sound fun _ _ => trivial
  · exact sound

theorem evidenceIds_of_packageable {r : Report} {evidence manifest : List EvidenceRow}
    (built : packageable r.exportMode r.selectedEvidenceIds evidence manifest = true) (complete : r.exportMode = "COMPLETE_CASE")
    (evidenceId : String) : evidenceId ∈ evidenceIds evidence ↔ evidenceId ∈ evidenceIds manifest := by
  have listed : included r.exportMode r.selectedEvidenceIds evidence = evidenceIds evidence := by
    rw [included, complete, if_neg (by decide), if_pos rfl]
  rw [packageable, listed, complete] at built
  simp only [Bool.and_eq_true, Bool.or_eq_true, List.all_eq_true,
    decide_eq_true_eq, ne_eq, not_true_eq_false, false_or] at built
  exact ⟨built.2 evidenceId, built.1.2 evidenceId⟩

theorem mem_timelineEntries {timeline : List Transition} {items : List TimelineItem}
    (drawn : items ≠ [] ∨ timeline = []) (entry : Entry) :
    entry ∈ timelineEntries timeline items ↔ ∃ item ∈ items, entry = .item item := by
  cases items with
  | nil =>
    rcases drawn with absent | rfl
    · exact absurd rfl absent
    · simp [timelineEntries]
  | cons item rest => simp only [timelineEntries, List.mem_map, eq_comm]

theorem reported_finish {s : State} {r : Report} (stored : Bool) (sound : Sound s)
    (found : s.reports.find r.reportId = some r) : Reported s (finish s r stored) := by
  have agrees := sound.reports r (s.reports.mem_of_find found)
  unfold finish
  unfold Agrees at agrees
  split
  · rename_i x timeline evidence items stage
    rw [stage] at agrees
    obtain ⟨⟨row, located, ofCase, signed, -⟩, ⟨recorded, read⟩, drawn, shown⟩ := agrees
    split
    · exact reported_setStage rfl fun content equal => by cases equal
    · rename_i manifest loaded
      split
      · rename_i good
        intro completed mem content stage'
        rcases mem_setStage mem with old | ⟨old, located', rfl⟩
        · exact .inl old
        · have one : old = r := Option.some.inj (located'.symm.trans found)
          subst one
          cases stage'
          rw [located, Option.bind_some] at loaded
          rw [Bool.and_eq_true] at good
          refine .inr ⟨⟨row, located, ofCase, signed, loaded⟩, rfl, fun p => ?_, fun entry => ?_⟩
          · by_cases complete : old.exportMode = "COMPLETE_CASE"
            · have kept := (sound.exports row (s.exports.mem_of_find located)).recorded manifest loaded
              exact sameDigests_of_ids recorded kept (evidenceIds_of_packageable good.1 complete) p
            · exact (read complete manifest (by rw [located]; exact loaded) p).symm
          · refine (mem_timelineEntries drawn entry).trans ⟨?_, ?_⟩
            · rintro ⟨item, listed, rfl⟩
              obtain ⟨ofItem, version⟩ := (shown item).mp listed
              exact ⟨item, ofItem, version, rfl⟩
            · rintro ⟨item, ofItem, version, rfl⟩
              exact ⟨item, (shown item).mpr ⟨ofItem, version⟩, rfl⟩
      · exact reported_setStage rfl fun content equal => by cases equal
  · exact reported_of_reports rfl

theorem sound_ofReport {s : State} {reportId : String} {f : Report → State} (sound : Sound s)
    (kept : ∀ r, s.reports.find r.reportId = some r → r.reportId = reportId → Sound (f r)) :
    Sound (ofReport s reportId f) := by
  unfold ofReport
  split
  · exact sound
  · rename_i r found
    have same := s.reports.key_of_find found
    exact kept r (by rw [same]; exact found) same

theorem sound_ofExport {s : State} {exportId : String} {f : Export → State} (sound : Sound s)
    (kept : ∀ x, s.exports.find x.exportId = some x → Sound (f x)) : Sound (ofExport s exportId f) := by
  unfold ofExport
  split
  · exact sound
  · rename_i x found
    exact kept x (by rw [s.exports.key_of_find found]; exact found)

theorem reported_ofReport {s : State} {reportId : String} {f : Report → State}
    (kept : ∀ r, s.reports.find r.reportId = some r → Reported s (f r)) :
    Reported s (ofReport s reportId f) := by
  unfold ofReport
  split
  · exact reported_of_reports rfl
  · rename_i r found
    exact kept r (by rw [s.reports.key_of_find found]; exact found)

theorem sound_request {s : State} {reportId caseId exportMode : String} {selectedEvidenceIds : List String}
    {version : ℕ} (sound : Sound s) (early : ∀ item ∈ itemsOf s.dashboard caseId,
      item.version ≤ projectionVersion s.dashboard caseId version) :
    Sound (request s reportId caseId exportMode selectedEvidenceIds version) := by
  unfold request
  split
  · split
    · exact sound
    · rename_i reports inserted
      refine ⟨fun r mem => ?_, sound.exports⟩
      change r ∈ reports.rows at mem
      rw [(KeyedTable.insert_eq_some inserted).2, List.mem_append, List.mem_singleton] at mem
      rcases mem with old | rfl
      · exact sound.reports r old
      · exact early
  · exact sound

theorem reported_request (s : State) (reportId caseId exportMode : String) (selectedEvidenceIds : List String)
    (version : ℕ) : Reported s (request s reportId caseId exportMode selectedEvidenceIds version) := by
  unfold request
  split
  · split
    · exact reported_of_reports rfl
    · rename_i reports inserted
      intro r mem content completed
      change r ∈ reports.rows at mem
      rw [(KeyedTable.insert_eq_some inserted).2, List.mem_append, List.mem_singleton] at mem
      rcases mem with old | rfl
      · exact .inl old
      · cases completed
  · exact reported_of_reports rfl

theorem reported_settle (s : State) (r : Report) (committed : Bool) : Reported s (settle s r committed) := by
  unfold settle
  split
  · refine reported_setStage rfl fun content equal => ?_
    cases committed <;> cases equal
  · exact reported_of_reports rfl

theorem reported_advance (s : State) (r : Report) (exportId : String) : Reported s (advance s r exportId) := by
  unfold advance
  split
  · split
    · exact reported_of_reports rfl
    · exact reported_setStage rfl fun content equal => by cases equal
  · split
    · exact reported_setStage rfl fun content equal => by cases equal
    · split
      · exact reported_setStage rfl fun content equal => by cases equal
      · split
        · exact reported_setStage rfl fun content equal => by cases equal
        · exact reported_of_reports rfl
  · exact reported_of_reports rfl

section
variable (py : Python)

theorem sound_step {s : State} {a : Action} (sound : Sound s) (undisturbed : Undisturbed py s a) :
    Sound (step py s a) := by
  cases a with
  | acquire row =>
    simp only [step]
    split
    · exact sound
    · rename_i rows inserted
      exact sound_acquire sound inserted undisturbed
  | verify v evidenceId =>
    simp only [step]
    split
    · exact sound
    · rename_i evidence status ran
      exact sound_sameObjects sound (sameObjects_verify ran)
  | projectEvent d =>
    refine sound_of_frame sound rfl rfl (fun r mem => ?_) fun _ memP => memP
    exact frame_projectEvent py fun caseId named absent taken concerned =>
      undisturbed caseId named absent taken r mem concerned
  | transition t => exact ⟨sound.reports, sound.exports⟩
  | request reportId caseId exportMode selectedEvidenceIds version => exact sound_request sound undisturbed
  | settle reportId committed =>
    exact sound_ofReport sound fun r found _ => sound_settle committed sound found
  | createExport exportId caseId =>
    simp only [step, createExport]
    split
    · exact sound
    · rename_i exports inserted
      exact sound_insertExport sound inserted
  | loadExport exportId v => exact sound_ofExport sound fun x found => sound_loadExport v sound found
  | signExport exportId stored => exact sound_ofExport sound fun x found => sound_signExport stored sound found
  | advance reportId exportId =>
    exact sound_ofReport sound fun r found _ => sound_advance exportId sound found
  | readTransitions reportId => exact sound_ofReport sound fun r found _ => sound_readTransitions sound found
  | readEvidence reportId => exact sound_ofReport sound fun r found _ => sound_readEvidence sound found
  | readDashboardTimeline reportId =>
    refine sound_ofReport sound fun r found same => sound_readDashboardTimeline sound found ?_
    rw [same] at found
    exact undisturbed r found
  | finish reportId stored => exact sound_ofReport sound fun r _ _ => sound_finish stored sound

theorem reported_step {s : State} (sound : Sound s) (a : Action) : Reported s (step py s a) := by
  cases a with
  | acquire row =>
    simp only [step]
    split <;> exact reported_of_reports rfl
  | verify v evidenceId =>
    simp only [step]
    split <;> exact reported_of_reports rfl
  | projectEvent d => exact reported_of_reports rfl
  | transition t => exact reported_of_reports rfl
  | request reportId caseId exportMode selectedEvidenceIds version =>
    exact reported_request s reportId caseId exportMode selectedEvidenceIds version
  | settle reportId committed => exact reported_ofReport fun r _ => reported_settle s r committed
  | createExport exportId caseId =>
    simp only [step, createExport]
    split <;> exact reported_of_reports rfl
  | loadExport exportId v =>
    simp only [step, ofExport]
    split
    · exact reported_of_reports rfl
    · unfold loadExport
      split
      · split <;> exact reported_of_reports rfl
      · exact reported_of_reports rfl
  | signExport exportId stored =>
    simp only [step, ofExport]
    split
    · exact reported_of_reports rfl
    · unfold signExport
      split <;> exact reported_of_reports rfl
  | advance reportId exportId => exact reported_ofReport fun r _ => reported_advance s r exportId
  | readTransitions reportId =>
    refine reported_ofReport fun r _ => ?_
    unfold readTransitions
    split
    · exact reported_setStage rfl fun content equal => by cases equal
    · exact reported_of_reports rfl
  | readEvidence reportId =>
    refine reported_ofReport fun r _ => ?_
    unfold readEvidence
    split
    · exact reported_setStage rfl fun content equal => by cases equal
    · exact reported_of_reports rfl
  | readDashboardTimeline reportId =>
    refine reported_ofReport fun r _ => ?_
    unfold readDashboardTimeline
    split
    · exact reported_setStage rfl fun content equal => by cases equal
    · exact reported_of_reports rfl
  | finish reportId stored => exact reported_ofReport fun r found => reported_finish stored sound found

structure Opening (s : State) : Prop where
  exports : s.exports.rows = []
  reports : s.reports.rows = []

theorem sound_opening {s : State} (opening : Opening s) : Sound s where
  reports := by
    intro r mem
    rw [opening.reports] at mem
    cases mem
  exports := by
    intro x mem
    rw [opening.exports] at mem
    cases mem

/-- In a run that nothing disturbs, every report that becomes COMPLETED has the
inventory of the signed manifest that it records and the timeline of its version. -/
theorem report_describes {s : State} (opening : Opening s) {actions : List Action}
    (along : Along (step py) (Undisturbed py) s actions) {front : List Action} {a : Action}
    (reached : front ++ [a] <+: actions) :
    ∀ r ∈ (run (step py) s (front ++ [a])).reports.rows, ∀ content, r.stage = .completed content →
      r ∈ (run (step py) s front).reports.rows ∨ Describes (run (step py) s (front ++ [a])) r content := by
  have sound := throughout_of_along (I := Sound) (P := Sound)
    (fun _ _ before admissible => sound_step py before admissible) (fun _ good => good)
    (sound_opening opening) along
  have here := (throughout_iff_front _ _ _ _).mp sound front ((List.prefix_append front [a]).trans reached)
  rw [run_append]
  exact reported_step py here a

end

/-! A case with one object and one item, and a report of it. -/

def sampleItem : TimelineItem where
  label := "login"
  caseId := sampleCase
  sessionId := none
  eventTime := 0
  sourceEventIds := ["01HX3QK7Z000000000000000V1"]
  sourceReferences := []
  evidenceReferences := []
  classification := .systemAction
  confidence := none
  outputTag := none
  displayMetadata := .obj []
  permissions := ["dashboard:read"]
  version := 1
  itemId := "item-1"
  itemType := "auth.login"
  description := ""
  sourceEventId := "01HX3QK7Z000000000000000V1"

def sampleState : State where
  evidence := requiredOnly
  dashboard :=
    { DashboardRun.sampleDashboard with
      timeline := ⟨[sampleItem], List.nodup_singleton _⟩
      summaries := ⟨[⟨sampleCase, 1, 0, [], .current⟩], List.nodup_singleton _⟩ }
  transitions := [⟨sampleCase, "ACTIVE", none, 0⟩]
  exports := .empty
  reports := .empty

def signing : List Action :=
  [.request "report-1" sampleCase "METADATA_ONLY" [] 1, .settle "report-1" true, .advance "report-1" "export-1",
    .loadExport "export-1" sampleVerifier, .signExport "export-1" true]

def reading : List Action :=
  [.advance "report-1" "export-2", .readTransitions "report-1", .readEvidence "report-1",
    .readDashboardTimeline "report-1"]

def finishing : Action := .finish "report-1" true

theorem sample_opening : Opening sampleState := ⟨rfl, rfl⟩

theorem sample_undisturbed :
    Along (step DashboardRun.samplePython) (Undisturbed DashboardRun.samplePython) sampleState
      (signing ++ reading ++ [finishing]) := by
  have early : Undisturbed DashboardRun.samplePython sampleState
      (.request "report-1" sampleCase "METADATA_ONLY" [] 1) := by
    intro item mem
    have same : item = sampleItem := List.mem_singleton.mp mem
    rw [same]
    decide
  refine ⟨early, trivial, trivial, trivial, trivial, trivial, trivial, trivial, ?_, trivial, trivial⟩
  intro r found x timeline evidence stage
  cases found
  exact .inl (List.cons_ne_nil _ _)

theorem sample_described : ∃ r ∈ (run (step DashboardRun.samplePython) sampleState
      (signing ++ reading ++ [finishing])).reports.rows, ∃ content, r.stage = .completed content ∧
    Describes (run (step DashboardRun.samplePython) sampleState (signing ++ reading ++ [finishing])) r content := by
  have reached : signing ++ reading ++ [finishing] <+: signing ++ reading ++ [finishing] := List.prefix_refl _
  have reported := report_describes DashboardRun.samplePython sample_opening sample_undisturbed reached
  refine ⟨_, List.mem_singleton_self _, _, rfl, ?_⟩
  rcases reported _ (List.mem_singleton_self _) _ rfl with before | described
  · have same := List.mem_singleton.mp before
    cases same
  · exact described

/-- An object acquired between the signing and the report is in the inventory alone. -/
theorem late_evidence_listed : ∃ r ∈ (run (step DashboardRun.samplePython) sampleState
      (signing ++ [.acquire (optionalLog "PENDING")] ++ reading ++ [finishing])).reports.rows,
    ∃ content, r.stage = .completed content ∧ ¬ Describes (run (step DashboardRun.samplePython) sampleState
      (signing ++ [.acquire (optionalLog "PENDING")] ++ reading ++ [finishing])) r content := by
  refine ⟨_, List.mem_singleton_self _, _, rfl, fun described => ?_⟩
  have listed := (described.inventory (digest (optionalLog "PENDING"))).mp
    (List.mem_cons_of_mem _ (List.mem_singleton_self _))
  have same := List.mem_singleton.mp listed
  exact absurd same (by decide)

end Mirage.ReportDescription
