import Mirage.ExportRows
import Mathlib.Data.List.Pairwise

/-! The order of time in an export manifest. The rows are sorted by the texts of their timestamps, and within one
second the text of a whole second is behind all others. -/

namespace Mirage.ExportChronology
open PythonText Raw EvidenceExport ExportRows
open CanaryCollector (isoformat)

def Chronological (manifest : Raw) (timeline : List Transition) (evidence : List EvidenceObject) : Prop :=
  (∃ listed : List Transition, listed.Perm timeline ∧
    get? manifest "case_state_timeline" = some (rows (listed.map Transition.dict)) ∧
    listed.Pairwise fun a b => a.newVersion < b.newVersion) ∧
  ∃ listed : List EvidenceObject, listed.Perm evidence ∧
    get? manifest "evidence_objects" = some (rows (listed.map EvidenceObject.dict)) ∧
    listed.Pairwise fun a b => a.evidenceType = b.evidenceType → a.acquisitionTime.instant ≤ b.acquisitionTime.instant

theorem one_first {α : Type} {R : α → α → Prop} {xs : List α} (ordered : xs.Pairwise R) {a b : α}
    (memA : a ∈ xs) (memB : b ∈ xs) (other : a ≠ b) : R a b ∨ R b a := by
  have : Std.Symm fun a b => R a b ∨ R b a := ⟨fun _ _ => Or.symm⟩
  have either : xs.Pairwise fun a b => R a b ∨ R b a := ordered.imp Or.inl
  exact either.forall memA memB other

theorem transition_before_iff {a b : Transition} : a.before b ↔
    a.at_.written ≤ b.at_.written ∧ (a.at_.written = b.at_.written → a.newVersion ≤ b.newVersion) := by
  rw [Transition.before, a.rank_eq, b.rank_eq, ← not_lt, List.cons_lt_cons_iff, ManifestOrder.ofText_lt,
    ManifestOrder.ofText_inj, Datetime.isoformat_lt_iff, Datetime.isoformat_inj, List.cons_lt_cons_iff,
    ManifestOrder.ofInt_lt]
  simp only [lt_irrefl, and_false, or_false, not_or, not_lt, not_and, eq_comm (a := b.at_.written)]

theorem timeline_iff {timeline : List Transition} (versions : (timeline.map Transition.newVersion).Nodup) :
    (timeline.insertionSort Transition.before).Pairwise (fun a b => a.newVersion < b.newVersion) ↔
      ∀ a ∈ timeline, ∀ b ∈ timeline, a.newVersion < b.newVersion → a.at_.written ≤ b.at_.written := by
  have sorted := List.pairwise_insertionSort Transition.before timeline
  constructor
  · intro increasing a memA b memB earlier
    rcases one_first (sorted.and increasing) (mem_sorted_transition.mpr memA) (mem_sorted_transition.mpr memB)
      (fun same => absurd (same ▸ earlier) (lt_irrefl _)) with first | first
    · exact (transition_before_iff.mp first.1).1
    · exact absurd first.2 (lt_asymm earlier)
  · intro agree
    have distinct : (timeline.insertionSort Transition.before).Pairwise fun a b => a.newVersion ≠ b.newVersion := by
      rw [← List.pairwise_map]
      exact ((List.perm_insertionSort _ timeline).map _).nodup_iff.mpr versions
    refine (sorted.and distinct).imp_of_mem fun {a b} memA memB first => ?_
    obtain ⟨texts, equal⟩ := transition_before_iff.mp first.1
    by_contra later
    have reversed : b.newVersion < a.newVersion := lt_of_le_of_ne (not_lt.mp later) first.2.symm
    have back := agree b (mem_sorted_transition.mp memB) a (mem_sorted_transition.mp memA) reversed
    exact later (lt_of_le_of_ne (equal (le_antisymm texts back)) first.2)

theorem evidence_before {a b : EvidenceObject} (first : a.before b) (same : a.evidenceType = b.evidenceType) :
    a.acquisitionTime.written ≤ b.acquisitionTime.written := by
  rw [EvidenceObject.before, a.rank_eq, b.rank_eq, ← not_lt, List.cons_lt_cons_iff, List.cons_lt_cons_iff,
    ManifestOrder.ofText_inj, ManifestOrder.ofText_lt, ManifestOrder.ofText_lt, Datetime.isoformat_lt_iff] at first
  exact not_lt.mp fun behind => first (.inr ⟨same.symm, .inl behind⟩)

theorem instant_lt {a b : Datetime} (whole : a.WholeSecondOf b) : a.instant < b.instant := by
  obtain ⟨clock, zero, positive⟩ := whole
  rw [Datetime.instant, Datetime.instant, clock, append_lt_iff rfl]
  exact .inr ⟨rfl, List.cons_lt_cons_iff.mpr (.inl (zero ▸ Nat.pos_of_ne_zero positive))⟩

theorem evidence_iff {evidence : List EvidenceObject} :
    (evidence.insertionSort EvidenceObject.before).Pairwise (fun a b => a.evidenceType = b.evidenceType →
      a.acquisitionTime.instant ≤ b.acquisitionTime.instant) ↔
    ∀ a ∈ evidence, ∀ b ∈ evidence, a.evidenceType = b.evidenceType →
      ¬ a.acquisitionTime.WholeSecondOf b.acquisitionTime := by
  have sorted := List.pairwise_insertionSort EvidenceObject.before evidence
  constructor
  · intro chronological a memA b memB same whole
    have behind : ¬ a.acquisitionTime.written ≤ b.acquisitionTime.written := by
      rw [Datetime.written_le_iff]
      rintro (⟨_, never⟩ | other)
      · exact never whole
      · exact other.2.2 whole.2.1
    rcases one_first (sorted.and chronological) (mem_sorted_evidence.mpr memA) (mem_sorted_evidence.mpr memB)
      (fun equal => absurd whole.2.1 (equal ▸ whole.2.2)) with first | first
    · exact behind (evidence_before first.1 same)
    · exact absurd (first.2 same.symm) (not_le.mpr (instant_lt whole))
  · intro apart
    refine sorted.imp_of_mem fun {a b} memA memB first same => ?_
    rcases (Datetime.written_le_iff _ _).mp (evidence_before first same) with ordered | whole
    · exact ordered.1
    · exact absurd whole (apart b (mem_sorted_evidence.mp memB) a (mem_sorted_evidence.mp memA) same.symm)

theorem transition_determined (a b : Transition) (same : a.dict = b.dict) : a.newVersion = b.newVersion := by
  have members := a.member_newVersion
  rw [same, b.member_newVersion] at members
  exact (Raw.int.inj (Option.some.inj members)).symm

theorem evidence_determined (a b : EvidenceObject) (same : a.dict = b.dict) :
    (a.evidenceType, a.acquisitionTime.instant) = (b.evidenceType, b.acquisitionTime.instant) := by
  obtain ⟨kind, time, _⟩ := a.members
  obtain ⟨kind', time', _⟩ := b.members
  rw [same, kind'] at kind
  rw [same, time'] at time
  have times := (Datetime.isoformat_inj _ _).mp (Raw.str.inj (Option.some.inj time))
  rw [Raw.str.inj (Option.some.inj kind), Datetime.instant_of_written times]

theorem listed_iff {α β : Type} {dict : α → Dict} {g : α → β} (determined : ∀ a b, dict a = dict b → g a = g b)
    {R : β → β → Prop} {source sorted : List α} (perm : sorted.Perm source) {found : Raw}
    (built : found = rows (sorted.map dict)) :
    (∃ listed : List α, listed.Perm source ∧ some found = some (rows (listed.map dict)) ∧
        listed.Pairwise fun a b => R (g a) (g b)) ↔ sorted.Pairwise fun a b => R (g a) (g b) := by
  constructor
  · rintro ⟨listed, _, same, ordered⟩
    have dicts : listed.map dict = sorted.map dict := rows_injective ((Option.some.inj same).symm.trans built)
    rw [← List.pairwise_map (f := g) (R := R)] at ordered ⊢
    rw [← map_eq_of_map_eq determined dicts]
    exact ordered
  · exact fun ordered => ⟨sorted, perm, congrArg some built, ordered⟩

theorem chronological_sorted {lib : SignedPackage.Platform} {m : ManifestInput} {timeline : List Transition}
    {evidence : List EvidenceObject} {manifest : Raw}
    (built : buildManifest lib (withRows m timeline evidence) = .ok manifest) :
    Chronological manifest timeline evidence ↔
      (timeline.insertionSort Transition.before).Pairwise (fun a b => a.newVersion < b.newVersion) ∧
      (evidence.insertionSort EvidenceObject.before).Pairwise fun a b => a.evidenceType = b.evidenceType →
        a.acquisitionTime.instant ≤ b.acquisitionTime.instant := by
  obtain ⟨transitions, objects⟩ := manifest_rows built
  rw [Chronological, transitions, objects]
  refine and_congr ?_ ?_
  · exact listed_iff (R := fun v w => v < w) transition_determined
      (List.perm_insertionSort Transition.before timeline) rfl
  · exact listed_iff (R := fun x y => x.1 = y.1 → x.2 ≤ y.2) evidence_determined
      (List.perm_insertionSort EvidenceObject.before evidence) rfl

/-- A manifest is in the order of time exactly if the clock followed the versions, up to two transitions of one
second of which the later one has no microseconds, and nothing was acquired on a whole second and again within it. -/
theorem chronological_iff (lib : SignedPackage.Platform) (m : ManifestInput) (timeline : List Transition)
    (evidence : List EvidenceObject) (versions : (timeline.map Transition.newVersion).Nodup) {manifest : Raw}
    (built : buildManifest lib (withRows m timeline evidence) = .ok manifest) :
    Chronological manifest timeline evidence ↔
      (∀ a ∈ timeline, ∀ b ∈ timeline, a.newVersion < b.newVersion →
        a.at_.instant ≤ b.at_.instant ∧ ¬ a.at_.WholeSecondOf b.at_ ∨ b.at_.WholeSecondOf a.at_) ∧
      ∀ a ∈ evidence, ∀ b ∈ evidence, a.evidenceType = b.evidenceType →
        ¬ a.acquisitionTime.WholeSecondOf b.acquisitionTime := by
  rw [chronological_sorted built, timeline_iff versions, evidence_iff]
  simp only [Datetime.written_le_iff]

/-! Transitions and objects around five seconds past ten. -/

def tenAnd (second microsecond : ℕ) (inSecond : second < 60 := by decide)
    (inMicrosecond : microsecond < 1000000 := by decide) : Datetime where
  year := 2026
  month := 1
  day := 2
  hour := 10
  minute := 0
  second
  microsecond
  inYear := by decide
  inMonth := by decide
  inDay := by decide
  inHour := by decide
  inMinute := by decide
  inSecond
  inMicrosecond

/-- Nothing happens twice in one second. -/
theorem seconds_apart : ∃ manifest,
    buildManifest samplePlatform (withRows bareInput [sampleTransition 2 (tenAnd 6 0), sampleTransition 1 (tenAnd 5 7)]
      [sampleObject "01HX3QK7Z000000000000000E1" (tenAnd 5 0)]) = .ok manifest ∧
    Chronological manifest [sampleTransition 2 (tenAnd 6 0), sampleTransition 1 (tenAnd 5 7)]
      [sampleObject "01HX3QK7Z000000000000000E1" (tenAnd 5 0)] := by
  have built := bareInput_built samplePlatform
    [sampleTransition 2 (tenAnd 6 0), sampleTransition 1 (tenAnd 5 7)]
    [sampleObject "01HX3QK7Z000000000000000E1" (tenAnd 5 0)]
  refine ⟨_, built, (chronological_iff _ _ _ _ (by decide) built).mpr ⟨by decide, ?_⟩⟩
  intro a memA b memB _ whole
  rw [List.mem_singleton.mp memA, List.mem_singleton.mp memB] at whole
  exact absurd whole (by decide)

/-- The second transition is a microsecond behind the first, and so are the objects. -/
theorem same_second_reversed : ∃ manifest,
    buildManifest samplePlatform (withRows bareInput [sampleTransition 1 (tenAnd 5 0), sampleTransition 2 (tenAnd 5 1)]
      [sampleObject "01HX3QK7Z000000000000000E1" (tenAnd 5 0),
        sampleObject "01HX3QK7Z000000000000000E2" (tenAnd 5 1)]) = .ok manifest ∧
    ¬ Chronological manifest [sampleTransition 1 (tenAnd 5 0), sampleTransition 2 (tenAnd 5 1)]
      [sampleObject "01HX3QK7Z000000000000000E1" (tenAnd 5 0),
        sampleObject "01HX3QK7Z000000000000000E2" (tenAnd 5 1)] := by
  have built := bareInput_built samplePlatform
    [sampleTransition 1 (tenAnd 5 0), sampleTransition 2 (tenAnd 5 1)]
    [sampleObject "01HX3QK7Z000000000000000E1" (tenAnd 5 0), sampleObject "01HX3QK7Z000000000000000E2" (tenAnd 5 1)]
  refine ⟨_, built, fun chronological => ?_⟩
  have agree := (timeline_iff (by decide)).mp ((chronological_sorted built).mp chronological).1
  exact absurd agree (by decide)

end Mirage.ExportChronology
