import Mirage.ExportRows

/-! The rows of `evidence_export_items` that `generate_export` writes against the manifest that it signs. The
items number the rows as the query returned them; the manifest has a sorted copy. -/

namespace Mirage.ExportItems
open PythonText Raw RowLocks EvidenceExport ExportRows OrderedJson

/-- A row of `evidence_export_items`. -/
structure ExportItem where
  evidenceId : Raw
  ordinal : ℕ
  sha256AtExport : Raw

def exportItems (ordinal : ℕ) : List Dict → Except Raised (List ExportItem)
  | [] => .ok []
  | item :: rest => do
    let evidenceId ← subscript item "evidence_id"
    let sha256 ← subscript item "sha256"
    let more ← exportItems (ordinal + 1) rest
    return ⟨evidenceId, ordinal, sha256⟩ :: more

structure Generated where
  manifest : Raw
  signed : SignedManifest
  items : List ExportItem

/-- What `generate_export` makes of the rows it has loaded. -/
def generate (lib : SignedPackage.Platform) (signer : Signer) (m : ManifestInput) : Except Raised Generated := do
  let manifest ← buildManifest lib m
  let signed ← signManifest lib manifest signer
  let items ← exportItems 0 m.evidence
  return ⟨manifest, signed, items⟩

def listed (manifest : Raw) : List (Option Raw × Option Raw) :=
  match get? manifest "evidence_objects" with
  | some (.arr objects) => objects.map fun object => (get? object "evidence_id", get? object "sha256")
  | _ => []

def byOrdinal (items : List ExportItem) : List ExportItem := items.insertionSort fun a b => a.ordinal ≤ b.ordinal

def Matches (g : Generated) : Prop :=
  (byOrdinal g.items).map (fun item => (some item.evidenceId, some item.sha256AtExport)) = listed g.manifest

def named (e : EvidenceObject) : Option Raw × Option Raw := (some (.str e.evidenceId), some (.str e.sha256))

theorem exportItems_eq (ordinal : ℕ) (evidence : List EvidenceObject) :
    ∃ items, exportItems ordinal (evidence.map EvidenceObject.dict) = .ok items ∧
      items.map (fun item => (some item.evidenceId, some item.sha256AtExport)) = evidence.map named ∧
      items.Pairwise (fun a b => a.ordinal ≤ b.ordinal) ∧ ∀ item ∈ items, ordinal ≤ item.ordinal := by
  induction evidence generalizing ordinal with
  | nil => exact ⟨[], rfl, rfl, .nil, fun item mem => (by cases mem)⟩
  | cons e rest ih =>
    obtain ⟨items, built, names, ordered, behind⟩ := ih (ordinal + 1)
    obtain ⟨_, _, _, _, id, sha⟩ := e.members
    refine ⟨⟨.str e.evidenceId, ordinal, .str e.sha256⟩ :: items, ?_, ?_, ?_, ?_⟩
    · rw [List.map_cons, exportItems, subscript, id, subscript, sha, built]
      rfl
    · rw [List.map_cons, names]
      rfl
    · exact List.pairwise_cons.mpr ⟨fun item mem => le_trans (Nat.le_succ _) (behind item mem), ordered⟩
    · exact List.forall_mem_cons.mpr ⟨le_refl _, fun item mem => le_trans (Nat.le_succ _) (behind item mem)⟩

theorem listed_eq {manifest : Raw} {evidence : List EvidenceObject}
    (found : get? manifest "evidence_objects" = some (rows (evidence.map EvidenceObject.dict))) :
    listed manifest = evidence.map named := by
  rw [listed, found]
  simp only [rows, List.map_map]
  refine List.map_congr_left fun e _ => ?_
  obtain ⟨_, _, _, _, id, sha⟩ := e.members
  exact Prod.ext id sha

theorem map_inj_on {α β : Type} {f : α → β} {xs ys : List α} (apart : ∀ a ∈ xs, ∀ b ∈ ys, f a = f b → a = b)
    (same : xs.map f = ys.map f) : xs = ys := by
  induction xs generalizing ys with
  | nil => exact (List.map_eq_nil_iff.mp same.symm).symm
  | cons x xs ih =>
    obtain ⟨y, rest, rfl, first, behind⟩ := List.map_eq_cons_iff.mp same.symm
    rw [apart x List.mem_cons_self y List.mem_cons_self first.symm,
      ih (fun a memA b memB => apart a (List.mem_cons_of_mem _ memA) b (List.mem_cons_of_mem _ memB)) behind.symm]

theorem sorted_named_iff {evidence : List EvidenceObject} (ids : (evidence.map EvidenceObject.evidenceId).Nodup) :
    evidence.map named = (evidence.insertionSort EvidenceObject.before).map named ↔
      evidence.Pairwise EvidenceObject.before := by
  constructor
  · intro same
    have apart : ∀ a ∈ evidence, ∀ b ∈ evidence.insertionSort EvidenceObject.before, named a = named b → a = b := by
      intro a memA b memB equal
      have id := Raw.str.inj (Option.some.inj (congrArg Prod.fst equal))
      exact List.inj_on_of_nodup_map ids memA (mem_sorted_evidence.mp memB) id
    rw [map_inj_on apart same]
    exact List.pairwise_insertionSort _ _
  · intro ordered
    rw [ordered.insertionSort_eq]

theorem generate_parts {lib : SignedPackage.Platform} {signer : Signer} {m : ManifestInput} {timeline : List Transition}
    {evidence : List EvidenceObject} {g : Generated}
    (generated : generate lib signer (withRows m timeline evidence) = .ok g) :
    Matches g ↔ evidence.map named = (evidence.insertionSort EvidenceObject.before).map named := by
  simp only [generate, bind_eq_ok] at generated
  obtain ⟨manifest, built, signed, _, items, numbered, ⟨rfl⟩⟩ := generated
  obtain ⟨_, numbered', names, ordered, _⟩ := exportItems_eq 0 evidence
  obtain ⟨rfl⟩ := numbered.symm.trans numbered'
  rw [Matches, byOrdinal, ordered.insertionSort_eq, names, listed_eq (manifest_rows built).2]

/-- The items match the manifest exactly if the query has returned the rows in the order of the manifest: by type,
text of the acquisition time, source, sequence and identifier. -/
theorem items_match_iff (lib : SignedPackage.Platform) (signer : Signer) (m : ManifestInput)
    (timeline : List Transition) (evidence : List EvidenceObject)
    (ids : (evidence.map EvidenceObject.evidenceId).Nodup) {g : Generated}
    (generated : generate lib signer (withRows m timeline evidence) = .ok g) :
    Matches g ↔ evidence.Pairwise fun a b => ManifestOrder.evidenceRank a.dict ≤ ManifestOrder.evidenceRank b.dict := by
  rw [generate_parts generated]
  exact sorted_named_iff ids

def sampleSigner : Signer := ⟨fun digest => digest, .empty⟩

def logOf (evidenceId : String) (sourceSequence : ℤ) : EvidenceObject :=
  { sampleObject evidenceId ⟨⟨2026, 1, 2, 10, 0, 5, 0⟩, by decide, by decide, by decide, by decide, by decide, by decide,
      by decide⟩ with sourceSequence }

def first : EvidenceObject := logOf "01HX3QK7Z000000000000000E1" 1

def second : EvidenceObject := logOf "01HX3QK7Z000000000000000E2" 2

theorem first_lt : ManifestOrder.evidenceRank first.dict < ManifestOrder.evidenceRank second.dict := by
  have number : ManifestOrder.ofInt 1 < ManifestOrder.ofInt 2 := ManifestOrder.ofInt_lt.mpr (by decide)
  have same (x y z : ManifestOrder.Scalar) {xs ys : List ManifestOrder.Scalar} (before : xs < ys) :
      x :: y :: z :: xs < x :: y :: z :: ys := by
    simpa [List.cons_lt_cons_iff] using before
  rw [first.rank_eq, second.rank_eq]
  exact same _ _ _ (List.cons_lt_cons_iff.mpr (.inl number))

theorem sample_encodes (evidence : List EvidenceObject) (known : ∀ e ∈ evidence, isScalar (.obj e.dict) = true) :
    ∃ g, generate samplePlatform sampleSigner (withRows bareInput [] evidence) = .ok g := by
  have rowsScalar : isScalar (rows (ManifestOrder.byRank ManifestOrder.evidenceRank (evidence.map EvidenceObject.dict))) =
      true := by
    refine scalarItems_iff.mpr fun v mem => ?_
    obtain ⟨d, memD, rfl⟩ := List.mem_map.mp mem
    obtain ⟨e, memE, rfl⟩ := List.mem_map.mp ((List.mem_insertionSort _).mp memD)
    exact known e memE
  have scalar : isScalar (.obj (ManifestOrder.sortedManifest (withRows bareInput [] evidence))) = true := by
    simp only [ManifestOrder.sortedManifest, withRows, isScalar, scalarMembers, scalar_text, rowsScalar, Bool.true_and,
      Bool.and_true]
    rfl
  cases encoded : canonicalJsonBytes (.obj (ManifestOrder.sortedManifest (withRows bareInput [] evidence))) with
  | none =>
    rw [canonicalJsonBytes_eq_none_iff, scalar] at encoded
    cases encoded
  | some bytes =>
    obtain ⟨items, numbered, _⟩ := exportItems_eq 0 evidence
    have built := bareInput_built samplePlatform [] evidence
    simp only [generate, built, SignedPackage.ok_bind, signManifest, SignedPackage.canonical, encoded]
    rw [withRows, numbered]
    exact ⟨_, rfl⟩

theorem first_scalar : isScalar (.obj first.dict) = true := by decide +kernel

theorem second_scalar : isScalar (.obj second.dict) = true := by decide +kernel

theorem in_order_matches : ∃ g,
    generate samplePlatform sampleSigner (withRows bareInput [] [first, second]) = .ok g ∧ Matches g := by
  obtain ⟨g, generated⟩ := sample_encodes [first, second]
    (List.forall_mem_cons.mpr ⟨first_scalar, List.forall_mem_singleton.mpr second_scalar⟩)
  exact ⟨g, generated, (items_match_iff _ _ _ _ _ (by decide) generated).mpr (List.pairwise_pair.mpr first_lt.le)⟩

/-- The query returns the rows the other way round. -/
theorem reversed_mismatches : ∃ g,
    generate samplePlatform sampleSigner (withRows bareInput [] [second, first]) = .ok g ∧ ¬ Matches g := by
  obtain ⟨g, generated⟩ := sample_encodes [second, first]
    (List.forall_mem_cons.mpr ⟨second_scalar, List.forall_mem_singleton.mpr first_scalar⟩)
  refine ⟨g, generated, fun same => ?_⟩
  have ordered := (sorted_named_iff (by decide)).mp ((generate_parts generated).mp same)
  exact absurd (List.pairwise_pair.mp ordered) (not_le.mpr first_lt)

end Mirage.ExportItems
