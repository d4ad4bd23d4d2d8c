import Mirage.CanaryCollector
import Mirage.ManifestOrder
import Mathlib.Data.Nat.Digits.Defs

/-! The rows of `_load_manifest_data` and what `_dict` of exporter.py makes of them. -/

namespace Mirage.ExportRows
open PythonText Raw JsonLoads EvidenceExport ManifestOrder
open CanaryCollector (Moment pad isoformat)

/-- A `datetime` in UTC. -/
structure Datetime extends Moment where
  inYear : 1 ≤ year ∧ year ≤ 9999
  inMonth : 1 ≤ month ∧ month ≤ 12
  inDay : 1 ≤ day ∧ day ≤ 31
  inHour : hour < 24
  inMinute : minute < 60
  inSecond : second < 60
  inMicrosecond : microsecond < 1000000

namespace Datetime

def clock (t : Datetime) : List ℕ := [t.year, t.month, t.day, t.hour, t.minute, t.second]

def instant (t : Datetime) : List ℕ := t.clock ++ [t.microsecond]

/-- `_dict` writes the one without microseconds, and the other is in the same second. -/
def WholeSecondOf (a b : Datetime) : Prop := a.clock = b.clock ∧ a.microsecond = 0 ∧ b.microsecond ≠ 0

instance (a b : Datetime) : Decidable (a.WholeSecondOf b) := inferInstanceAs (Decidable (_ ∧ _ ∧ _))

def rank (t : Datetime) : ℕ := if t.microsecond = 0 then 1000000 else t.microsecond

def written (t : Datetime) : List ℕ := t.clock ++ [t.rank]

end Datetime

theorem foldl_digits (s : Text) (n : ℕ) :
    s.foldl (fun n p => 10 * n + (p.val - 48)) n = n * 10 ^ s.length + digitsValue s := by
  induction s generalizing n with
  | nil => simp [digitsValue]
  | cons p s ih =>
    have unfolded : digitsValue (p :: s) = s.foldl (fun n p => 10 * n + (p.val - 48)) (10 * 0 + (p.val - 48)) := rfl
    rw [List.foldl_cons, ih, unfolded, ih (10 * 0 + _), List.length_cons, pow_succ]
    ring

theorem digitsValue_cons (p : CodePoint) (s : Text) :
    digitsValue (p :: s) = (p.val - 48) * 10 ^ s.length + digitsValue s := by
  rw [digitsValue, List.foldl_cons, foldl_digits, Nat.mul_zero, Nat.zero_add]

theorem digit_bounds {p : CodePoint} (digit : isDigit p = true) : 48 ≤ p.val ∧ p.val ≤ 57 := by
  rw [isDigit, between, Bool.and_eq_true, decide_eq_true_eq, decide_eq_true_eq] at digit
  exact digit

theorem digitsValue_lt {s : Text} (digits : ∀ p ∈ s, isDigit p = true) : digitsValue s < 10 ^ s.length := by
  induction s with
  | nil => exact Nat.one_pos
  | cons p s ih =>
    rw [List.forall_mem_cons] at digits
    have rest := ih digits.2
    have bounds := digit_bounds digits.1
    have head : (p.val - 48) * 10 ^ s.length ≤ 9 * 10 ^ s.length := Nat.mul_le_mul_right _ (by omega)
    rw [digitsValue_cons, List.length_cons, pow_succ]
    omega

theorem digits_lt_iff {s t : Text} (same : s.length = t.length) (digits : ∀ p ∈ s, isDigit p = true)
    (digits' : ∀ p ∈ t, isDigit p = true) : s < t ↔ digitsValue s < digitsValue t := by
  induction s generalizing t with
  | nil =>
    rw [List.eq_nil_of_length_eq_zero same.symm]
    simp
  | cons p s ih =>
    cases t with
    | nil => cases same
    | cons q t =>
      rw [List.forall_mem_cons] at digits digits'
      have long : s.length = t.length := Nat.succ.inj same
      have below := digitsValue_lt digits.2
      have below' := digitsValue_lt digits'.2
      have first := digit_bounds digits.1
      have first' := digit_bounds digits'.1
      rw [List.cons_lt_cons_iff, ih long digits.2 digits'.2, digitsValue_cons, digitsValue_cons, ← long,
        Fin.lt_def, Fin.ext_iff]
      rw [← long] at below'
      rcases lt_trichotomy p.val q.val with less | equal | more
      · have step : (p.val - 48 + 1) * 10 ^ s.length ≤ (q.val - 48) * 10 ^ s.length :=
          Nat.mul_le_mul_right _ (by omega)
        rw [Nat.succ_mul] at step
        exact ⟨fun _ => by omega, fun _ => .inl less⟩
      · rw [equal]
        simp
      · have step : (q.val - 48 + 1) * 10 ^ s.length ≤ (p.val - 48) * 10 ^ s.length :=
          Nat.mul_le_mul_right _ (by omega)
        rw [Nat.succ_mul] at step
        exact ⟨fun before => by omega, fun before => by omega⟩

theorem pad_digits (width n : ℕ) : ∀ p ∈ pad width n, isDigit p = true := by
  intro p mem
  rcases List.mem_append.mp mem with zero | digit
  · rw [List.eq_of_mem_replicate zero]
    rfl
  · exact digits_text n p digit

theorem digitsValue_pad (width n : ℕ) : digitsValue (pad width n) = n := by
  have zeros (k : ℕ) : digitsValue (List.replicate k (ofChar '0')) = 0 := by
    induction k with
    | zero => rfl
    | succ k ih =>
      rw [List.replicate_succ, digitsValue_cons, ih]
      exact (Nat.add_zero _).trans (Nat.zero_mul _)
  rw [pad, digitsValue, List.foldl_append, foldl_digits]
  rw [← digitsValue, zeros, digitsValue_text, Nat.zero_mul, Nat.zero_add]

theorem pad_length {width n : ℕ} (positive : 0 < width) (fits : n < 10 ^ width) : (pad width n).length = width := by
  have short : (text n.repr).length ≤ width := by
    rw [text, List.length_map, String.length_toList]
    exact Nat.repr_length n width positive fits
  rw [pad, List.length_append, List.length_replicate]
  omega

theorem append_lt_iff {α : Type} [LinearOrder α] {s t : List α} (same : s.length = t.length) (x y : List α) :
    s ++ x < t ++ y ↔ s < t ∨ s = t ∧ x < y := by
  induction s generalizing t with
  | nil =>
    rw [List.eq_nil_of_length_eq_zero same.symm]
    simp
  | cons p s ih =>
    cases t with
    | nil => cases same
    | cons q t =>
      rw [List.cons_append, List.cons_append, List.cons_lt_cons_iff, List.cons_lt_cons_iff, ih (Nat.succ.inj same),
        List.cons.injEq]
      tauto

theorem same_append_lt_iff (s x y : Text) : s ++ x < s ++ y ↔ x < y := by
  rw [append_lt_iff rfl]
  exact ⟨fun either => either.elim (fun never => absurd never (lt_irrefl s)) And.right, fun before => .inr ⟨rfl, before⟩⟩

theorem pad_lt_iff {width n m : ℕ} (positive : 0 < width) (fits : n < 10 ^ width) (fits' : m < 10 ^ width)
    (x y : Text) : pad width n ++ x < pad width m ++ y ↔ n < m ∨ n = m ∧ x < y := by
  have same := (pad_length positive fits).trans (pad_length positive fits').symm
  have injective : pad width n = pad width m ↔ n = m := by
    refine ⟨fun equal => ?_, fun equal => equal ▸ rfl⟩
    rw [← digitsValue_pad width n, equal, digitsValue_pad]
  rw [append_lt_iff same, digits_lt_iff same (pad_digits _ _) (pad_digits _ _), digitsValue_pad, digitsValue_pad,
    injective]

def fraction (microsecond : ℕ) : Text :=
  (if microsecond = 0 then [] else text "." ++ pad 6 microsecond) ++ text "Z"

theorem point_before (x : Text) : text "." ++ x < text "Z" :=
  List.cons_lt_cons_iff.mpr (.inl (by decide))

namespace Datetime

theorem fraction_lt_iff (a b : Datetime) : fraction a.microsecond < fraction b.microsecond ↔ a.rank < b.rank := by
  have fits := a.inMicrosecond
  have fits' := b.inMicrosecond
  by_cases zero : a.microsecond = 0
  · by_cases zero' : b.microsecond = 0
    · simp [fraction, rank, zero, zero']
    · have after : ¬ text "Z" < text "." ++ (pad 6 b.microsecond ++ text "Z") := lt_asymm (point_before _)
      simp only [fraction, rank, if_pos zero, if_neg zero', List.nil_append, List.append_assoc]
      exact ⟨fun before => absurd before after, fun before => by omega⟩
  · by_cases zero' : b.microsecond = 0
    · have before : text "." ++ (pad 6 a.microsecond ++ text "Z") < text "Z" := point_before _
      simp only [fraction, rank, if_neg zero, if_pos zero', List.nil_append, List.append_assoc]
      exact ⟨fun _ => fits, fun _ => before⟩
    · simp only [fraction, rank, if_neg zero, if_neg zero', List.append_assoc]
      rw [same_append_lt_iff, pad_lt_iff (by decide) fits fits']
      exact ⟨fun either => either.elim id fun equal => absurd equal.2 (lt_irrefl _), .inl⟩

theorem isoformat_eq (t : Datetime) : isoformat t.toMoment = pad 4 t.year ++ (text "-" ++ (pad 2 t.month ++ (text "-" ++
    (pad 2 t.day ++ (text "T" ++ (pad 2 t.hour ++ (text ":" ++ (pad 2 t.minute ++ (text ":" ++ (pad 2 t.second ++
      fraction t.microsecond)))))))))) := by
  simp only [isoformat, fraction, List.append_assoc]

theorem isoformat_lt_iff (a b : Datetime) : isoformat a.toMoment < isoformat b.toMoment ↔ a.written < b.written := by
  have ⟨_, year⟩ := a.inYear
  have ⟨_, month⟩ := a.inMonth
  have ⟨_, day⟩ := a.inDay
  have hour := a.inHour
  have minute := a.inMinute
  have second := a.inSecond
  have ⟨_, year'⟩ := b.inYear
  have ⟨_, month'⟩ := b.inMonth
  have ⟨_, day'⟩ := b.inDay
  have hour' := b.inHour
  have minute' := b.inMinute
  have second' := b.inSecond
  rw [isoformat_eq, isoformat_eq, pad_lt_iff (by decide) (by omega) (by omega), same_append_lt_iff,
    pad_lt_iff (by decide) (by omega) (by omega), same_append_lt_iff, pad_lt_iff (by decide) (by omega) (by omega),
    same_append_lt_iff, pad_lt_iff (by decide) (by omega) (by omega), same_append_lt_iff,
    pad_lt_iff (by decide) (by omega) (by omega), same_append_lt_iff, pad_lt_iff (by decide) (by omega) (by omega),
    fraction_lt_iff]
  simp only [written, clock, List.cons_append, List.nil_append, List.cons_lt_cons_iff, List.not_lt_nil, and_false,
    or_false]

theorem isoformat_le_iff (a b : Datetime) : isoformat a.toMoment ≤ isoformat b.toMoment ↔ a.written ≤ b.written := by
  rw [← not_lt, ← not_lt, isoformat_lt_iff]

theorem isoformat_inj (a b : Datetime) : isoformat a.toMoment = isoformat b.toMoment ↔ a.written = b.written := by
  rw [le_antisymm_iff, le_antisymm_iff, isoformat_le_iff, isoformat_le_iff]

theorem instant_of_written {a b : Datetime} (same : a.written = b.written) : a.instant = b.instant := by
  have fits := a.inMicrosecond
  have fits' := b.inMicrosecond
  obtain ⟨clock, ranks⟩ := List.append_inj same rfl
  have micros : a.microsecond = b.microsecond := by
    simp only [rank, List.cons.injEq, and_true] at ranks
    split at ranks <;> split at ranks <;> omega
  rw [instant, instant, clock, micros]

theorem written_le_iff (a b : Datetime) :
    a.written ≤ b.written ↔ a.instant ≤ b.instant ∧ ¬ a.WholeSecondOf b ∨ b.WholeSecondOf a := by
  have fits := a.inMicrosecond
  have fits' := b.inMicrosecond
  have long : b.clock.length = a.clock.length := rfl
  rw [← not_lt, ← not_lt, written, written, instant, instant, append_lt_iff long, append_lt_iff long, WholeSecondOf,
    WholeSecondOf]
  by_cases same : a.clock = b.clock
  · simp only [same, lt_irrefl, true_and, false_or, List.cons_lt_cons_iff, and_false, or_false, rank]
    split <;> split <;> omega
  · have other : b.clock ≠ a.clock := Ne.symm same
    simp only [same, other, false_and, or_false, not_false_eq_true, and_true]

end Datetime

inductive Cell where
  | value (v : Raw)
  | time (t : Datetime)

def Cell.raw : Cell → Raw
  | .value v => v
  | .time t => .str (isoformat t.toMoment)

def dict (fields : List String) (row : List Cell) : Dict :=
  (fields.zip row).map fun cell => (text cell.1, cell.2.raw)

def optional {α : Type} (f : α → Cell) (v : Option α) : Cell := v.elim (.value .null) f

/-- A row of `case_state_transitions`. -/
structure Transition where
  fromState : Text
  toState : Text
  actor : Text
  actorType : Text
  reason : Text
  newVersion : ℤ
  correlationId : Text
  at_ : Datetime

def Transition.dict (t : Transition) : Dict :=
  ExportRows.dict ["from_state", "to_state", "actor", "actor_type", "reason", "new_version", "correlation_id", "at"]
    [.value (.str t.fromState), .value (.str t.toState), .value (.str t.actor), .value (.str t.actorType),
      .value (.str t.reason), .value (.int t.newVersion), .value (.str t.correlationId), .time t.at_]

/-- A row of `evidence_objects`. -/
structure EvidenceObject where
  evidenceId : Text
  evidenceType : Text
  sourceId : Text
  sourceSequence : ℤ
  sourceCertificateSerial : Option Text
  relatedEventIds : Raw
  acquisitionTime : Datetime
  storedTime : Datetime
  originalFilename : Option Text
  mediaType : Text
  sizeBytes : ℤ
  sha256 : Text
  s3Bucket : Text
  s3Key : Text
  s3VersionId : Text
  objectLockMode : Option Text
  retentionUntil : Option Datetime
  verificationStatus : Text
  verifiedAt : Option Datetime
  collectionMethod : Text
  classification : Text
  metadata : Raw

def EvidenceObject.dict (e : EvidenceObject) : Dict :=
  ExportRows.dict ["evidence_id", "evidence_type", "source_id", "source_sequence", "source_certificate_serial",
      "related_event_ids", "acquisition_time", "stored_time", "original_filename", "media_type", "size_bytes",
      "sha256", "s3_bucket", "s3_key", "s3_version_id", "object_lock_mode", "retention_until",
      "verification_status", "verified_at", "collection_method", "classification", "metadata"]
    [.value (.str e.evidenceId), .value (.str e.evidenceType), .value (.str e.sourceId), .value (.int e.sourceSequence),
      optional (fun t => .value (.str t)) e.sourceCertificateSerial, .value e.relatedEventIds, .time e.acquisitionTime,
      .time e.storedTime, optional (fun t => .value (.str t)) e.originalFilename, .value (.str e.mediaType),
      .value (.int e.sizeBytes), .value (.str e.sha256), .value (.str e.s3Bucket), .value (.str e.s3Key),
      .value (.str e.s3VersionId), optional (fun t => .value (.str t)) e.objectLockMode,
      optional .time e.retentionUntil, .value (.str e.verificationStatus), optional .time e.verifiedAt,
      .value (.str e.collectionMethod), .value (.str e.classification), .value e.metadata]

/-- The input of `build_manifest` with the rows of a case's transitions and evidence. -/
def withRows (m : ManifestInput) (timeline : List Transition) (evidence : List EvidenceObject) : ManifestInput :=
  { m with timeline := timeline.map Transition.dict, evidence := evidence.map EvidenceObject.dict }

theorem member_dict (name : String) (fields : List String) (row : List Cell) :
    member (text name) (dict fields row) = ((fields.zip row).lookup name).map Cell.raw := by
  rw [dict]
  induction fields.zip row with
  | nil => rfl
  | cons cell rest ih =>
    rw [List.map_cons, member, List.lookup_cons, ih]
    by_cases same : name = cell.1
    · rw [if_pos (congrArg text same).symm, beq_iff_eq.mpr same]
      rfl
    · rw [if_neg fun equal => same (text_injective equal).symm, beq_eq_false_iff_ne.mpr same]

section
variable (t : Transition) (e : EvidenceObject)

theorem Transition.member_at : member (text "at") t.dict = some (.str (isoformat t.at_.toMoment)) := by
  rw [Transition.dict, member_dict]
  rfl

theorem Transition.member_newVersion : member (text "new_version") t.dict = some (.int t.newVersion) := by
  rw [Transition.dict, member_dict]
  rfl

theorem Transition.rank_eq : timelineRank t.dict = [ofText (isoformat t.at_.toMoment), ofInt t.newVersion] := by
  rw [timelineRank, textField, t.member_at, intField, t.member_newVersion]

theorem EvidenceObject.members :
    member (text "evidence_type") e.dict = some (.str e.evidenceType) ∧
      member (text "acquisition_time") e.dict = some (.str (isoformat e.acquisitionTime.toMoment)) ∧
      member (text "source_id") e.dict = some (.str e.sourceId) ∧
      member (text "source_sequence") e.dict = some (.int e.sourceSequence) ∧
      member (text "evidence_id") e.dict = some (.str e.evidenceId) ∧
      member (text "sha256") e.dict = some (.str e.sha256) := by
  simp only [EvidenceObject.dict, member_dict]
  exact ⟨rfl, rfl, rfl, rfl, rfl, rfl⟩

theorem EvidenceObject.fields : EvidenceFields e.dict := by
  obtain ⟨kind, time, source, sequence, id, _⟩ := e.members
  constructor <;> simp only [IsText, IsInt, textField, intField, kind, time, source, sequence, id]

theorem EvidenceObject.rank_eq : evidenceRank e.dict =
    [ofText e.evidenceType, ofText (isoformat e.acquisitionTime.toMoment), ofText e.sourceId,
      ofInt e.sourceSequence, ofText e.evidenceId] := by
  obtain ⟨kind, time, source, sequence, id, _⟩ := e.members
  simp only [evidenceRank, textField, intField, kind, time, source, sequence, id]

end

def Transition.before (a b : Transition) : Prop := timelineRank a.dict ≤ timelineRank b.dict

def EvidenceObject.before (a b : EvidenceObject) : Prop := evidenceRank a.dict ≤ evidenceRank b.dict

instance : DecidableRel Transition.before := fun _ _ => inferInstanceAs (Decidable (_ ≤ _))

instance : DecidableRel EvidenceObject.before := fun _ _ => inferInstanceAs (Decidable (_ ≤ _))

instance : Std.Total Transition.before := ⟨fun _ _ => le_total _ _⟩

instance : IsTrans Transition Transition.before := ⟨fun _ _ _ => le_trans⟩

instance : Std.Total EvidenceObject.before := ⟨fun _ _ => le_total _ _⟩

instance : IsTrans EvidenceObject EvidenceObject.before := ⟨fun _ _ _ => le_trans⟩

section
variable {lib : SignedPackage.Platform} {m : ManifestInput} {timeline : List Transition} {evidence : List EvidenceObject}

theorem transition_fields : ∀ d ∈ timeline.map Transition.dict, TextOrAbsent d "at" ∧ IntOrAbsent d "new_version" := by
  intro d mem
  obtain ⟨t, _, rfl⟩ := List.mem_map.mp mem
  refine ⟨.inr ?_, .inr ?_⟩
  · rw [IsText, textField, t.member_at]
  · rw [IsInt, intField, t.member_newVersion]

theorem evidence_fields : ∀ d ∈ evidence.map EvidenceObject.dict, EvidenceFields d := by
  intro d mem
  obtain ⟨e, _, rfl⟩ := List.mem_map.mp mem
  exact e.fields

theorem sortedTimeline_eq : sortedRows timelineKey (timeline.map Transition.dict) =
    .ok ((timeline.insertionSort Transition.before).map Transition.dict) := by
  rw [sortedRows_eq (comparable_timeline transition_fields), byRank,
    List.map_insertionSort Transition.before (fun a b => timelineRank a ≤ timelineRank b) Transition.dict timeline
      fun a _ b _ => Iff.rfl]

theorem sortedEvidence_eq : sortEvidence lib (evidence.map EvidenceObject.dict) =
    .ok ((evidence.insertionSort EvidenceObject.before).map EvidenceObject.dict) := by
  rw [sortEvidence_eq lib evidence_fields, byRank,
    List.map_insertionSort EvidenceObject.before (fun a b => evidenceRank a ≤ evidenceRank b) EvidenceObject.dict
      evidence fun a _ b _ => Iff.rfl]

theorem manifest_rows {manifest : Raw} (built : buildManifest lib (withRows m timeline evidence) = .ok manifest) :
    get? manifest "case_state_timeline" =
        some (rows ((timeline.insertionSort Transition.before).map Transition.dict)) ∧
      get? manifest "evidence_objects" =
        some (rows ((evidence.insertionSort EvidenceObject.before).map EvidenceObject.dict)) := by
  simp only [buildManifest, withRows, sortedTimeline_eq, sortedEvidence_eq, RowLocks.bind_eq_ok] at built
  obtain ⟨sessions, _, _, ⟨rfl⟩, _, ⟨rfl⟩, _, _, gaps, _, analyst, _, ai, _, decisions, _, ⟨rfl⟩⟩ := built
  simp only [get?, member, text_injective.eq_iff]
  exact ⟨rfl, rfl⟩

theorem mem_sorted_transition {t : Transition} : t ∈ timeline.insertionSort Transition.before ↔ t ∈ timeline :=
  List.mem_insertionSort _

theorem mem_sorted_evidence {e : EvidenceObject} : e ∈ evidence.insertionSort EvidenceObject.before ↔ e ∈ evidence :=
  List.mem_insertionSort _

end

theorem rows_injective {ds es : List Dict} (same : rows ds = rows es) : ds = es :=
  List.map_injective_iff.mpr (fun _ _ => Raw.obj.inj) (Raw.arr.inj same)

theorem map_eq_of_map_eq {α β γ : Type} {f : α → β} {g : α → γ} (determines : ∀ a b, f a = f b → g a = g b)
    {xs ys : List α} (same : xs.map f = ys.map f) : xs.map g = ys.map g := by
  induction xs generalizing ys with
  | nil =>
    rw [List.map_eq_nil_iff.mp same.symm]
  | cons x xs ih =>
    obtain ⟨y, rest, rfl, first, behind⟩ := List.map_eq_cons_iff.mp same.symm
    rw [List.map_cons, List.map_cons, determines x y first.symm, ih behind.symm]

def bareInput : ManifestInput where
  case_ := []
  sessions := []
  timeline := []
  evidence := []
  collectionGaps := []
  analystActions := []
  aiActions := []
  policyDecisions := []
  exportId := text "01HX3QK7Z0000000000000EXP0"
  exportVersion := 1
  createdAt := text "2026-01-02T03:04:05Z"
  createdBy := text "analyst"
  kmsKeyArn := text "LOCAL_DEVELOPMENT"
  trustedTimestamp :=
    { timestampId := text "01HX3QK7Z00000000000000TS0", sourceType := text "LOCAL_DEVELOPMENT"
      sourceName := text "local-clock", timestampTime := text "2026-01-02T03:04:05Z"
      independentlyTrusted := false, tokenBase64 := none, record := [] }
  limitations := []

theorem bareInput_built (lib : SignedPackage.Platform) (timeline : List Transition) (evidence : List EvidenceObject) :
    buildManifest lib (withRows bareInput timeline evidence) =
      .ok (.obj (sortedManifest (withRows bareInput timeline evidence))) := by
  refine buildManifest_eq lib ⟨fun d mem => (by cases mem), ?_, ?_, fun d mem => (by cases mem),
    fun d mem => (by cases mem), fun d mem => (by cases mem), fun d mem => (by cases mem)⟩
  · exact transition_fields
  · exact evidence_fields

def samplePlatform : SignedPackage.Platform := SignedPackage.tablePlatform [] fun _ _ _ => false

def sampleTransition (newVersion : ℤ) (at_ : Datetime) : Transition where
  fromState := text "CREATED"
  toState := text "ARMED"
  actor := text "analyst"
  actorType := text "ANALYST"
  reason := text "armed"
  newVersion
  correlationId := text "01HX3QK7Z0000000000000COR0"
  at_

def sampleObject (evidenceId : String) (acquisitionTime : Datetime) : EvidenceObject where
  evidenceId := text evidenceId
  evidenceType := text "LOG"
  sourceId := text "sensor-1"
  sourceSequence := 1
  sourceCertificateSerial := none
  relatedEventIds := .arr []
  acquisitionTime
  storedTime := acquisitionTime
  originalFilename := none
  mediaType := text "text/plain"
  sizeBytes := 6
  sha256 := text "9173a0e9fad8b022a0e69fefde6b33ee687224a794e7bc666748f268f3685f95"
  s3Bucket := text "evidence"
  s3Key := text "cases/logs"
  s3VersionId := text "1"
  objectLockMode := none
  retentionUntil := none
  verificationStatus := text "VERIFIED"
  verifiedAt := none
  collectionMethod := text "SENSOR"
  classification := text "RESTRICTED"
  metadata := .obj []

end Mirage.ExportRows
