import Mirage.ExportSoundness
import Mirage.ManifestOrder
import Mirage.OrderedJson

/-! What is exported is accepted: the manifest that `build_manifest` makes, signed and
packed with its objects, passes `verify_export_package` under the key of the signer. -/

namespace Mirage.ExportRoundTrip
open PythonText Raw RowLocks SignedPackage EvidenceExport ExportSoundness ManifestOrder OrderedJson

/-! The manifest as it is read back. -/

def Serialisable (lib : Platform) (v : Raw) : Prop :=
  JsonLoads.readable lib.toInterpreter v = true ∧ isScalar v = true

def parts (m : ManifestInput) : List Raw :=
  [.str m.exportId, .int m.exportVersion, .str m.createdAt, .str m.createdBy, .obj m.case_,
    .str m.kmsKeyArn, timestampRecord m.trustedTimestamp] ++ m.limitations.map .str ++
    (m.sessions ++ m.timeline ++ m.evidence ++ m.collectionGaps ++ m.analystActions ++ m.aiActions ++
      m.policyDecisions).map .obj

theorem serialisable_arr {lib : Platform} {items : List Raw}
    (known : ∀ item ∈ items, Serialisable lib item) : Serialisable lib (.arr items) :=
  ⟨(readable_arr _).mpr fun item mem => (known item mem).1,
    scalarItems_iff.mpr fun item mem => (known item mem).2⟩

theorem serialisable_obj {lib : Platform} {members : List (Text × Raw)}
    (unique : (members.map Prod.fst).Nodup) (names : ∀ m ∈ members, scalar m.1 = true)
    (values : ∀ m ∈ members, Serialisable lib m.2) : Serialisable lib (.obj members) :=
  ⟨(readable_obj _).mpr ⟨unique, fun m mem => (values m mem).1⟩,
    scalarMembers_iff.mpr fun m mem => ⟨names m mem, (values m mem).2⟩⟩

theorem mem_byRank {ι : Type} [LinearOrder ι] {rank : Dict → ι} {ds : List Dict} {d : Dict} :
    d ∈ byRank rank ds ↔ d ∈ ds := List.mem_insertionSort _

theorem serialisable_byRank {lib : Platform} {ι : Type} [LinearOrder ι] {rank : Dict → ι} {ds : List Dict}
    (known : ∀ d ∈ ds, Serialisable lib (.obj d)) : Serialisable lib (rows (byRank rank ds)) :=
  serialisable_arr (List.forall_mem_map.mpr fun d mem => known d (mem_byRank.mp mem))

theorem serialisable_text {lib : Platform} (s : String) : Serialisable lib (.str (text s)) :=
  ⟨rfl, scalar_text s⟩

theorem serialisable_manifest {lib : Platform} {m : ManifestInput}
    (known : ∀ v ∈ parts m, Serialisable lib v) : Serialisable lib (.obj (sortedManifest m)) := by
  have row : ∀ d ∈ m.sessions ++ m.timeline ++ m.evidence ++ m.collectionGaps ++ m.analystActions ++
      m.aiActions ++ m.policyDecisions, Serialisable lib (.obj d) := fun d mem =>
    known (.obj d) (List.mem_append_right _ (List.mem_map_of_mem mem))
  have head : ∀ v ∈ [.str m.exportId, .int m.exportVersion, .str m.createdAt, .str m.createdBy,
      .obj m.case_, .str m.kmsKeyArn, timestampRecord m.trustedTimestamp], Serialisable lib v :=
    fun v mem => known v (List.mem_append_left _ (List.mem_append_left _ mem))
  have limits : ∀ v ∈ m.limitations.map Raw.str, Serialisable lib v :=
    fun v mem => known v (List.mem_append_left _ (List.mem_append_right _ mem))
  simp only [List.forall_mem_cons] at head
  obtain ⟨exportId, version, createdAt, createdBy, case_, arn, timestamp, -⟩ := head
  simp only [List.mem_append, or_imp, forall_and] at row
  obtain ⟨⟨⟨⟨⟨⟨sessions, timeline⟩, evidence⟩, gaps⟩, analyst⟩, ai⟩, policy⟩ := row
  have signing : Serialisable lib (.obj [(text "kms_key_arn", .str m.kmsKeyArn),
      (text "algorithm", .str signingAlgorithm),
      (text "payload", .str (text "SHA256(canonical-manifest-without-signature)"))]) := by
    refine serialisable_obj (by simp only [List.map_cons, List.map_nil]; decide) ?_ ?_
    · simp only [List.forall_mem_cons, scalar_text, true_and, List.not_mem_nil, false_imp_iff, implies_true]
    · simp only [List.forall_mem_cons]
      exact ⟨arn, serialisable_text _, serialisable_text _, fun v mem => absurd mem List.not_mem_nil⟩
  refine serialisable_obj (by rw [sortedManifest]; simp only [List.map_cons, List.map_nil]; decide) ?_ ?_
  · simp only [sortedManifest, List.forall_mem_cons, scalar_text, true_and, List.not_mem_nil,
      false_imp_iff, implies_true]
  · simp only [sortedManifest, List.forall_mem_cons]
    exact ⟨serialisable_text _, exportId, version, createdAt, createdBy, case_,
      serialisable_byRank sessions, serialisable_byRank timeline, serialisable_byRank evidence,
      serialisable_byRank gaps, serialisable_byRank analyst, serialisable_byRank ai,
      serialisable_byRank policy, signing, timestamp, serialisable_arr limits,
      fun v mem => absurd mem List.not_mem_nil⟩

def readBack (d : Dict) : Dict := JsonLoads.sortKeys (JsonLoads.orderedMembers d)

theorem ordered_rows (ds : List Dict) : JsonLoads.ordered (rows ds) = rows (ds.map readBack) := by
  rw [rows, JsonLoads.ordered, JsonLoads.orderedItems_eq, List.map_map, rows, List.map_map]
  rfl

section
variable {lib : Platform} {d : Dict}

theorem keys_nodup (known : Serialisable lib (.obj d)) : (d.map Prod.fst).Nodup :=
  ((readable_obj _).mp known.1).1

theorem member_readBack (known : Serialisable lib (.obj d)) (name : Text) :
    member name (readBack d) = (member name d).map JsonLoads.ordered :=
  member_ordered (keys_nodup known) name

theorem textField_readBack (known : Serialisable lib (.obj d)) (name : String) :
    textField (readBack d) name = textField d name := by
  rw [textField, textField, member_readBack known]
  cases member (text name) d with
  | none => rfl
  | some v => cases v <;> rfl

theorem intField_readBack (known : Serialisable lib (.obj d)) (name : String) :
    intField (readBack d) name = intField d name := by
  rw [intField, intField, member_readBack known]
  cases member (text name) d with
  | none => rfl
  | some v => cases v <;> rfl

theorem isText_readBack (known : Serialisable lib (.obj d)) {name : String} (field : IsText d name) :
    IsText (readBack d) name := by
  rw [IsText, textField_readBack known, member_readBack known, field]
  rfl

theorem evidenceFields_readBack (known : Serialisable lib (.obj d)) (fields : EvidenceFields d) :
    EvidenceFields (readBack d) where
  evidenceType := isText_readBack known fields.evidenceType
  acquisitionTime := isText_readBack known fields.acquisitionTime
  sourceId := isText_readBack known fields.sourceId
  sourceSequence := by
    rw [IsInt, intField_readBack known, member_readBack known, fields.sourceSequence]
    rfl
  evidenceId := isText_readBack known fields.evidenceId

theorem evidenceRank_readBack (known : Serialisable lib (.obj d)) :
    evidenceRank (readBack d) = evidenceRank d := by
  rw [evidenceRank, textField_readBack known, textField_readBack known, textField_readBack known,
    intField_readBack known, textField_readBack known, evidenceRank]

structure Item (lib : Platform) (d : Dict) : Prop extends EvidenceFields d where
  serialisable : Serialisable lib (.obj d)
  sha256 : IsText d "sha256"
  versionId : (member (text "s3_version_id") d).isSome

theorem complete_readBack (item : Item lib d) :
    ∀ name ∈ requiredEvidenceFields, (member name (readBack d)).isSome := by
  have present : ∀ {name : Text}, (member name d).isSome → (member name (readBack d)).isSome := by
    intro name found
    rw [member_readBack item.serialisable, Option.isSome_map]
    exact found
  have text : ∀ {name : String}, IsText d name → (member (text name) (readBack d)).isSome := by
    intro name known
    exact present (by rw [known]; rfl)
  have sequence : (member (PythonText.text "source_sequence") d).isSome := by
    rw [item.sourceSequence]
    rfl
  simp only [requiredEvidenceFields, List.forall_mem_cons]
  exact ⟨text item.evidenceId, text item.evidenceType, text item.acquisitionTime, text item.sourceId,
    present sequence, text item.sha256, present item.versionId, fun name mem => absurd mem List.not_mem_nil⟩

def validItemOf (item : Item lib d) : ValidItem where
  dict := readBack d
  evidenceId := textField d "evidence_id"
  sha256 := textField d "sha256"
  complete := complete_readBack item
  id_eq := by
    rw [isText_readBack item.serialisable item.evidenceId, textField_readBack item.serialisable]
  sha256_eq := by
    rw [isText_readBack item.serialisable item.sha256, textField_readBack item.serialisable]

end

def validItems {lib : Platform} (ds : List Dict) (items : ∀ d ∈ ds, Item lib d) : List ValidItem :=
  ds.attach.map fun d => validItemOf (items d.1 d.2)

theorem validItems_dicts {lib : Platform} (ds : List Dict) (items : ∀ d ∈ ds, Item lib d) :
    (validItems ds items).map ValidItem.dict = ds.map readBack := by
  rw [validItems, List.map_map]
  exact List.attach_map_val (f := readBack)

theorem mem_validItems {lib : Platform} {ds : List Dict} {items : ∀ d ∈ ds, Item lib d} {v : ValidItem} :
    v ∈ validItems ds items ↔ ∃ d, ∃ mem : d ∈ ds, v = validItemOf (items d mem) := by
  rw [validItems, List.mem_map]
  constructor
  · rintro ⟨d, -, rfl⟩
    exact ⟨d.1, d.2, rfl⟩
  · rintro ⟨d, mem, rfl⟩
    exact ⟨⟨d, mem⟩, List.mem_attach ds _, rfl⟩

theorem byRank_readBack {lib : Platform} {ds : List Dict}
    (known : ∀ d ∈ ds, Serialisable lib (.obj d)) :
    byRank evidenceRank ((byRank evidenceRank ds).map readBack) = (byRank evidenceRank ds).map readBack := by
  have map : ((byRank evidenceRank ds).insertionSort fun a b => evidenceRank a ≤ evidenceRank b).map readBack =
      ((byRank evidenceRank ds).map readBack).insertionSort fun a b => evidenceRank a ≤ evidenceRank b := by
    refine List.map_insertionSort _ _ readBack _ fun a memA b memB => ?_
    rw [evidenceRank_readBack (known a (mem_byRank.mp memA)),
      evidenceRank_readBack (known b (mem_byRank.mp memB))]
  rw [byRank, ← map, byRank, KeyedSort.insertionSort_idem]

def Signs (lib : Platform) (signer : Signer) : Prop :=
  ∃ key, lib.loadPemPublicKey signer.publicKeyPem = .ok key ∧ lib.isRsa key = true ∧
    ∀ digest, lib.verifyPss key digest (signer.signDigest digest) = .ok ()

/-- The members of a package of `m` around the canonical bytes of its manifest. -/
structure Packed (lib : Platform) (m : ManifestInput) (signer : Signer) (bytes : ByteArray)
    (archive : Archive) : Prop where
  unique : (names archive).Nodup
  manifest : read archive (text "manifest.json") = .ok bytes
  digest : ∃ recorded t, read archive (text "manifest.sha256") = .ok recorded ∧
    decodeUtf8 recorded = .ok t ∧ hexDigest lib bytes = strip t
  signature : read archive (text "manifest.sig") = .ok (signer.signDigest (lib.sha256 bytes))
  key : ∃ embedded, readIfPresent archive (text "public-key.pem") = .ok embedded
  report : text "verification-report.txt" ∈ names archive
  objects : ∀ name ∈ names archive, isObject name = true →
    ∃ d ∈ m.evidence, objectName (textField d "evidence_id") = name
  stored : ∀ d ∈ m.evidence, ∃ data, read archive (objectName (textField d "evidence_id")) = .ok data ∧
    hexDigest lib data = textField d "sha256"

theorem field_readBack {lib : Platform} {m : ManifestInput} (known : ∀ v ∈ parts m, Serialisable lib v)
    {name : String} {v : Raw} (mem : (text name, v) ∈ sortedManifest m) :
    (JsonLoads.ordered (.obj (sortedManifest m))).get? name = some (JsonLoads.ordered v) := by
  have readable := (serialisable_manifest known).1
  rw [get?_ordered readable, Raw.get?, member_of_mem ((readable_obj _).mp readable).1 mem]
  rfl

theorem evidence_readBack {lib : Platform} {m : ManifestInput} (known : ∀ v ∈ parts m, Serialisable lib v) :
    (JsonLoads.ordered (.obj (sortedManifest m))).get? "evidence_objects" =
      some (rows ((byRank evidenceRank m.evidence).map readBack)) := by
  have evidence : (text "evidence_objects", rows (byRank evidenceRank m.evidence)) ∈ sortedManifest m := by
    simp [sortedManifest]
  rw [field_readBack known evidence, ordered_rows]

theorem Packed.accepted {lib : Platform} {m : ManifestInput} {signer : Signer} {bytes : ByteArray}
    {archive : Archive} (packed : Packed lib m signer bytes archive) (signs : Signs lib signer)
    (known : ∀ v ∈ parts m, Serialisable lib v) (items : ∀ d ∈ m.evidence, Item lib d)
    (written : canonicalJsonBytes (.obj (sortedManifest m)) = some bytes) (trust : Trust) :
    Accepted lib (.ok archive) (some signer.publicKeyPem) trust := by
  have manifest := serialisable_manifest known
  have sortedItems : ∀ d ∈ byRank evidenceRank m.evidence, Item lib d :=
    fun d mem => items d (mem_byRank.mp mem)
  have dicts := validItems_dicts (byRank evidenceRank m.evidence) sortedItems
  refine accepted_iff.mpr ⟨archive, bytes, JsonLoads.ordered (.obj (sortedManifest m)),
    validItems (byRank evidenceRank m.evidence) sortedItems, rfl, packed.unique, ?_, packed.manifest,
    packed.digest, JsonLoads.loads_canonical manifest.1 written, ?_, ?_, ?_, ?_, ?_, ?_, ?_, ?_⟩
  · obtain ⟨recorded, t, digest, -⟩ := packed.digest
    simp only [required, List.forall_mem_cons]
    exact ⟨mem_names_of_read packed.manifest, mem_names_of_read digest,
      mem_names_of_read packed.signature, packed.report, fun name mem => absurd mem List.not_mem_nil⟩
  · rw [canonical_ordered, written]
  · exact field_readBack known (.head _)
  · have signing : (text "signing", .obj [(text "kms_key_arn", .str m.kmsKeyArn),
        (text "algorithm", .str signingAlgorithm),
        (text "payload", .str (text "SHA256(canonical-manifest-without-signature)"))]) ∈
        sortedManifest m := by simp [sortedManifest]
    have readable := ((readable_obj _).mp manifest.1).2 _ signing
    rw [field_readBack known signing, Option.bind_some, get?_ordered readable]
    rfl
  · rw [evidence_readBack known, dicts]
  · have serialisable : ∀ d ∈ m.evidence, Serialisable lib (.obj d) := fun d mem => (items d mem).serialisable
    have fields : ∀ d ∈ (byRank evidenceRank m.evidence).map readBack, EvidenceFields d := by
      intro d mem
      obtain ⟨old, memOld, rfl⟩ := List.mem_map.mp mem
      have item := sortedItems old memOld
      exact evidenceFields_readBack item.serialisable item.toEvidenceFields
    have sorted : Serialisable lib (rows (byRank evidenceRank m.evidence)) :=
      serialisable_byRank serialisable
    have readable := readable_ordered _ sorted.1
    rw [ordered_rows] at readable
    refine ⟨byRank evidenceRank ((byRank evidenceRank m.evidence).map readBack), ?_, ?_⟩
    · rw [dicts]
      exact sortEvidence_eq lib fields
    · rw [dicts, byRank_readBack serialisable]
      exact equals_self _ readable
  · intro name mem object
    obtain ⟨d, memD, same⟩ := packed.objects name mem object
    have listed : d ∈ byRank evidenceRank m.evidence := mem_byRank.mpr memD
    exact ⟨validItemOf (sortedItems d listed), mem_validItems.mpr ⟨d, listed, rfl⟩, same⟩
  · intro v mem
    obtain ⟨d, memD, rfl⟩ := mem_validItems.mp mem
    exact packed.stored d (mem_byRank.mp memD)
  · obtain ⟨embedded, carried⟩ := packed.key
    obtain ⟨key, loaded, rsa, verifies⟩ := signs
    refine ⟨embedded, _, signer.publicKeyPem, carried, rfl, rfl, ?_⟩
    rw [packed.signature, ok_bind, verifySignature, loaded, ok_bind, rsa]
    exact verifies _

theorem rows_injective : Function.Injective rows := by
  intro ds es same
  have inj : Function.Injective (Raw.obj : Dict → Raw) := fun a b equal => by cases equal; rfl
  exact inj.list_map (by injection same)

theorem Packed.versioned {lib : Platform} {m : ManifestInput} {signer : Signer} {bytes : ByteArray}
    {archive : Archive} (packed : Packed lib m signer bytes archive)
    (known : ∀ v ∈ parts m, Serialisable lib v)
    (written : canonicalJsonBytes (.obj (sortedManifest m)) = some bytes) {explicitKey : Option ByteArray}
    {trust : Trust} (accepted : Accepted lib (.ok archive) explicitKey trust) :
    ∀ d ∈ m.evidence, (member (text "s3_version_id") d).isSome := by
  obtain ⟨archive', bytes', manifest, items, opened, passed⟩ := accepted_iff.mp accepted
  cases opened
  have read := passed.manifestRead
  rw [packed.manifest] at read
  cases read
  have loaded := passed.loaded
  rw [JsonLoads.loads_canonical (serialisable_manifest known).1 written] at loaded
  cases loaded
  have evidence := passed.evidence
  rw [evidence_readBack known, Option.some.injEq] at evidence
  have dicts := rows_injective evidence
  intro d mem
  have listed : readBack d ∈ items.map ValidItem.dict := by
    rw [← dicts]
    exact List.mem_map_of_mem (mem_byRank.mpr mem)
  obtain ⟨item, -, same⟩ := List.mem_map.mp listed
  have found := item.complete (text "s3_version_id") (by simp [requiredEvidenceFields])
  have row : d ∈ m.sessions ++ m.timeline ++ m.evidence ++ m.collectionGaps ++ m.analystActions ++
      m.aiActions ++ m.policyDecisions := by simp [mem]
  have serialisable := known (.obj d) (List.mem_append_right _ (List.mem_map_of_mem row))
  rw [same, member_readBack serialisable, Option.isSome_map] at found
  exact found

theorem hexDigit_cases (n : ℕ) (small : n < 16) :
    isWhitespace (ofChar (Json.hexDigit n)) = false ∧ isSurrogate (ofChar (Json.hexDigit n)) = false := by
  have all : ∀ n < 16, isWhitespace (ofChar (Json.hexDigit n)) = false := by decide
  exact ⟨all n small, isSurrogate_ofChar _⟩

theorem hexDigest_plain {lib : Platform} {bytes : ByteArray} :
    ∀ p ∈ hexDigest lib bytes, isWhitespace p = false ∧ isSurrogate p = false := by
  intro p mem
  rw [hexDigest, hexOf, List.mem_flatMap] at mem
  obtain ⟨b, -, mem⟩ := mem
  have low := b.toNat_lt
  rcases List.mem_cons.mp mem with rfl | mem
  · exact hexDigit_cases _ (by omega)
  · rw [List.mem_singleton.mp mem]
    exact hexDigit_cases _ (Nat.mod_lt _ (by decide))

theorem scalar_hexDigest (lib : Platform) (bytes : ByteArray) : scalar (hexDigest lib bytes) = true :=
  List.all_eq_true.mpr fun p mem => by rw [(hexDigest_plain p mem).2]; rfl

theorem dropWhile_plain {t : Text} (plain : ∀ p ∈ t, isWhitespace p = false) : t.dropWhile isWhitespace = t := by
  cases t with
  | nil => rfl
  | cons p rest => rw [List.dropWhile_cons_of_neg (by simp [plain p List.mem_cons_self])]

theorem strip_newline {t : Text} (plain : ∀ p ∈ t, isWhitespace p = false) : strip (t ++ text "\n") = t := by
  have newline : isWhitespace (ofChar '\n') = true := by decide
  have back : ∀ p ∈ t.reverse, isWhitespace p = false := fun p mem => plain p (List.mem_reverse.mp mem)
  have line : text "\n" = [ofChar '\n'] := rfl
  cases t with
  | nil => decide
  | cons p rest =>
    have first : isWhitespace p = false := plain p List.mem_cons_self
    rw [strip, List.cons_append, List.dropWhile_cons_of_neg (by simp [first]), ← List.cons_append, line,
      List.reverse_append, List.reverse_singleton, List.singleton_append,
      List.dropWhile_cons_of_pos newline, dropWhile_plain back, List.reverse_reverse]

def utf8 (t : Text) : ByteArray := (String.ofList (t.map toChar)).toUTF8

theorem encoded_eq {t : Text} (proper : scalar t = true) : encoded t = .ok (utf8 t) := by
  rw [encoded, encodeUtf8, if_pos proper]
  rfl

theorem decodeUtf8_utf8 {t : Text} (proper : scalar t = true) : decodeUtf8 (utf8 t) = .ok t := by
  rw [utf8, decodeUtf8_toUTF8, text, String.toList_ofList, map_ofChar_toChar proper]

def Writable (name : Text) : Prop := scalar name = true ∧ ∀ p ∈ name, p ≠ 0

theorem writeZipBytes_eq {name : Text} (writable : Writable name) (data : ByteArray) :
    writeZipBytes name data = .ok ⟨name, .ok data⟩ := by
  have whole : name.takeWhile (fun p => decide (p ≠ 0)) = name :=
    List.takeWhile_eq_self_iff.mpr fun p mem => decide_eq_true (writable.2 p mem)
  rw [writeZipBytes, encoded_eq writable.1, ok_bind, whole]
  rfl

theorem writable_text {s : String} (plain : s.toList.all (fun c => c.toNat ≠ 0) = true) :
    Writable (text s) := by
  refine ⟨scalar_text s, fun p mem zero => ?_⟩
  obtain ⟨c, listed, rfl⟩ := List.mem_map.mp mem
  have some := List.all_eq_true.mp plain c listed
  rw [decide_eq_true_eq, ← ofChar_val, zero] at some
  exact some rfl

theorem writable_objectName {evidenceId : Text} (writable : Writable evidenceId) :
    Writable (objectName evidenceId) := by
  constructor
  · rw [objectName, scalar_append, scalar_text, writable.1]
    rfl
  · intro p mem
    rcases List.mem_append.mp mem with inside | inside
    · exact (writable_text (by decide)).2 p inside
    · exact writable.2 p inside

def objectMembers (objects : List (Text × ByteArray)) : List (Text × ByteArray) :=
  objects.map fun o => (objectName o.1, o.2)

theorem writeObjects_eq {objects : List (Text × ByteArray)} (writable : ∀ o ∈ objects, Writable o.1) :
    writeObjects objects = .ok (SignedPackage.written (objectMembers objects)) := by
  induction objects with
  | nil => rfl
  | cons o rest ih =>
    rw [List.forall_mem_cons] at writable
    rw [writeObjects, writeZipBytes_eq (writable_objectName writable.1), ok_bind, ih writable.2]
    rfl

def headMembers (lib : Platform) (signer : Signer) (bytes : ByteArray) (report : Text) :
    List (Text × ByteArray) :=
  [(text "manifest.json", bytes), (text "manifest.sha256", utf8 (hexDigest lib bytes ++ text "\n")),
    (text "manifest.sig", signer.signDigest (lib.sha256 bytes)),
    (text "public-key.pem", signer.publicKeyPem), (text "verification-report.txt", utf8 report)]

theorem createExportPackage_eq {lib : Platform} {signer : Signer} {bytes : ByteArray} {report : Text}
    {objects : List (Text × ByteArray)} (proper : scalar report = true)
    (writable : ∀ o ∈ objects, Writable o.1) :
    createExportPackage ⟨bytes, hexDigest lib bytes, signer.signDigest (lib.sha256 bytes), signer.publicKeyPem⟩
        objects report =
      .ok (SignedPackage.written (headMembers lib signer bytes report ++
        objectMembers (objects.insertionSort fun a b => a.1 ≤ b.1))) := by
  have line : scalar (hexDigest lib bytes ++ text "\n") = true := by
    rw [scalar_append, scalar_hexDigest, scalar_text]
    rfl
  have fixed : ∀ {s : String}, s.toList.all (fun c => c.toNat ≠ 0) = true → ∀ data,
      writeZipBytes (text s) data = .ok ⟨text s, .ok data⟩ :=
    fun plain data => writeZipBytes_eq (writable_text plain) data
  have sorted : ∀ o ∈ objects.insertionSort fun a b => a.1 ≤ b.1, Writable o.1 :=
    fun o mem => writable o ((List.mem_insertionSort _).mp mem)
  rw [createExportPackage, fixed (by decide), ok_bind, encoded_eq line, ok_bind, fixed (by decide),
    ok_bind, fixed (by decide), ok_bind, fixed (by decide), ok_bind, encoded_eq proper, ok_bind,
    fixed (by decide), ok_bind, writeObjects_eq sorted, ok_bind]
  rfl

/-- Under the identifiers of the evidence items, and nothing else, the contents with
the recorded hashes. -/
structure Supplied (lib : Platform) (m : ManifestInput) (objects : List (Text × ByteArray)) : Prop where
  keys : (objects.map Prod.fst).Perm (m.evidence.map fun d => textField d "evidence_id")
  hashes : ∀ d ∈ m.evidence, ∀ o ∈ objects, o.1 = textField d "evidence_id" →
    hexDigest lib o.2 = textField d "sha256"

theorem objectMembers_names (objects : List (Text × ByteArray)) :
    (objectMembers objects).map Prod.fst = (objects.map Prod.fst).map objectName := by
  rw [objectMembers, List.map_map, List.map_map]
  rfl

theorem headMembers_other {lib : Platform} {signer : Signer} {bytes : ByteArray} {report : Text} :
    ∀ name ∈ (headMembers lib signer bytes report).map Prod.fst, isObject name = false := by
  simp only [headMembers, List.map_cons, List.map_nil]
  decide

theorem members_nodup {lib : Platform} {signer : Signer} {bytes : ByteArray} {report : Text}
    {objects : List (Text × ByteArray)} (unique : (objects.map Prod.fst).Nodup) :
    ((headMembers lib signer bytes report ++ objectMembers objects).map Prod.fst).Nodup := by
  have heads : ((headMembers lib signer bytes report).map Prod.fst).Nodup := by
    simp only [headMembers, List.map_cons, List.map_nil]
    decide
  have inj : Function.Injective objectName := fun a b same => List.append_cancel_left same
  rw [List.map_append, objectMembers_names, List.nodup_append]
  refine ⟨heads, unique.map inj, ?_⟩
  rintro name memHead other memObject rfl
  obtain ⟨evidenceId, -, rfl⟩ := List.mem_map.mp memObject
  have outside := headMembers_other _ memHead
  rw [isObject_objectName] at outside
  cases outside

theorem packed_written {lib : Platform} {m : ManifestInput} {signer : Signer} {bytes : ByteArray}
    {report : Text} {objects : List (Text × ByteArray)}
    (unique : (m.evidence.map fun d => textField d "evidence_id").Nodup)
    (supplied : Supplied lib m objects) :
    Packed lib m signer bytes
      (SignedPackage.written (headMembers lib signer bytes report ++ objectMembers objects)) := by
  have nodup : ((headMembers lib signer bytes report ++ objectMembers objects).map Prod.fst).Nodup :=
    members_nodup (supplied.keys.nodup_iff.mpr unique)
  have head : ∀ {name data}, (name, data) ∈ headMembers lib signer bytes report →
      read (SignedPackage.written (headMembers lib signer bytes report ++ objectMembers objects)) name =
        .ok data :=
    fun mem => read_written nodup (List.mem_append_left _ mem)
  have line : scalar (hexDigest lib bytes ++ text "\n") = true := by
    rw [scalar_append, scalar_hexDigest, scalar_text]
    rfl
  have pem := head (.tail _ (.tail _ (.tail _ (.head _))))
  have report := head (.tail _ (.tail _ (.tail _ (.tail _ (.head _)))))
  refine ⟨by rw [names_written]; exact nodup, head (.head _), ⟨_, _, head (.tail _ (.head _)),
    decodeUtf8_utf8 line, ?_⟩, head (.tail _ (.tail _ (.head _))), ⟨some signer.publicKeyPem, ?_⟩,
    mem_names_of_read report, ?_, ?_⟩
  · exact (strip_newline fun p mem => (hexDigest_plain p mem).1).symm
  · rw [readIfPresent, if_pos (mem_names_of_read pem), pem]
    rfl
  · intro name mem object
    rw [names_written, List.map_append, List.mem_append, objectMembers_names] at mem
    rcases mem with inHead | inObjects
    · rw [headMembers_other name inHead] at object
      cases object
    · obtain ⟨evidenceId, mem, rfl⟩ := List.mem_map.mp inObjects
      obtain ⟨d, memD, same⟩ := List.mem_map.mp (supplied.keys.mem_iff.mp mem)
      exact ⟨d, memD, by rw [same]⟩
  · intro d mem
    have listed := supplied.keys.mem_iff.mpr (List.mem_map_of_mem mem)
    obtain ⟨o, memO, same⟩ := List.mem_map.mp listed
    refine ⟨o.2, ?_, supplied.hashes d mem o memO same⟩
    rw [← same]
    exact read_written nodup (List.mem_append_right _ (List.mem_map_of_mem memO))

structure Exportable (lib : Platform) (m : ManifestInput) : Prop where
  sortable : Sortable m
  distinct : Distinct m
  serialisable : ∀ v ∈ parts m, Serialisable lib v
  hashed : ∀ d ∈ m.evidence, IsText d "sha256"
  versioned : ∀ d ∈ m.evidence, (member (text "s3_version_id") d).isSome
  writable : ∀ d ∈ m.evidence, Writable (textField d "evidence_id")

theorem Exportable.item {lib : Platform} {m : ManifestInput} (exportable : Exportable lib m) :
    ∀ d ∈ m.evidence, Item lib d := by
  intro d mem
  have row : d ∈ m.sessions ++ m.timeline ++ m.evidence ++ m.collectionGaps ++ m.analystActions ++
      m.aiActions ++ m.policyDecisions := by simp [mem]
  exact ⟨exportable.sortable.evidence d mem,
    exportable.serialisable (.obj d) (List.mem_append_right _ (List.mem_map_of_mem row)),
    exportable.hashed d mem, exportable.versioned d mem⟩

theorem signManifest_eq {lib : Platform} {v : Raw} {bytes : ByteArray} (signer : Signer)
    (written : canonicalJsonBytes v = some bytes) : signManifest lib v signer =
      .ok ⟨bytes, hexDigest lib bytes, signer.signDigest (lib.sha256 bytes), signer.publicKeyPem⟩ := by
  rw [signManifest, canonical_eq_ok.mpr written]
  rfl

theorem Exportable.signed {lib : Platform} {m : ManifestInput} (exportable : Exportable lib m)
    (signer : Signer) : ∃ bytes, canonicalJsonBytes (.obj (sortedManifest m)) = some bytes ∧
      buildManifest lib m = .ok (.obj (sortedManifest m)) ∧
      signManifest lib (.obj (sortedManifest m)) signer =
        .ok ⟨bytes, hexDigest lib bytes, signer.signDigest (lib.sha256 bytes), signer.publicKeyPem⟩ := by
  have manifest := serialisable_manifest exportable.serialisable
  have written := JsonLoads.canonicalJsonBytes_getD manifest.2
  exact ⟨_, written, buildManifest_eq lib exportable.sortable, signManifest_eq signer written⟩

def sampleTimestamp : TrustedTimestamp :=
  ⟨text "01HX3QK7Z0000000000000TST0", text "LOCAL_DEVELOPMENT", text "local", text "2026-01-02T03:04:05Z",
    false, none, []⟩

def sampleInput (timeline evidence : List Dict) : ManifestInput where
  case_ := [(text "case_id", .str (text "01HX3QK7Z0000000000000CASE"))]
  sessions := []
  timeline
  evidence
  collectionGaps := []
  analystActions := []
  aiActions := []
  policyDecisions := []
  exportId := text "01HX3QK7Z0000000000000EXP0"
  exportVersion := 1
  createdAt := text "2026-01-02T03:04:05Z"
  createdBy := text "analyst"
  kmsKeyArn := text "LOCAL_DEVELOPMENT_KEY"
  trustedTimestamp := sampleTimestamp
  limitations := []

def openPlatform : Platform := tablePlatform sampleTable fun _ _ _ => true

def sampleSigner : Signer := ⟨fun _ => sampleSignature, sampleKey⟩

theorem openPlatform_signs : Signs openPlatform sampleSigner :=
  ⟨sampleKey, rfl, rfl, fun _ => rfl⟩

theorem openPlatform_content : hexDigest openPlatform sampleContent =
    textField sampleItem "sha256" := sampleTable_content

theorem sampleItem_fields : EvidenceFields sampleItem := ⟨rfl, rfl, rfl, rfl, rfl⟩

set_option maxRecDepth 4000 in
theorem sampleInput_serialisable :
    ∀ v ∈ parts (sampleInput [] [sampleItem]), Serialisable openPlatform v := by
  simp only [parts, sampleInput, List.map_nil, List.map_cons, List.nil_append, List.append_nil,
    List.cons_append, List.forall_mem_cons]
  refine ⟨⟨rfl, rfl⟩, ⟨rfl, rfl⟩, ⟨rfl, rfl⟩, ⟨rfl, rfl⟩, ⟨rfl, rfl⟩, ⟨rfl, rfl⟩, ⟨rfl, rfl⟩, ⟨rfl, rfl⟩,
    fun v mem => absurd mem List.not_mem_nil⟩

theorem sampleInput_exportable : Exportable openPlatform (sampleInput [] [sampleItem]) where
  sortable :=
    ⟨nofun, nofun, fun d mem => by rw [List.mem_singleton.mp mem]; exact sampleItem_fields,
      nofun, nofun, nofun, nofun⟩
  distinct := ⟨List.nodup_nil, List.nodup_nil, List.nodup_singleton _, List.nodup_nil, List.nodup_nil,
    List.nodup_nil, List.nodup_nil⟩
  serialisable := sampleInput_serialisable
  hashed d mem := by rw [List.mem_singleton.mp mem]; rfl
  versioned d mem := by rw [List.mem_singleton.mp mem]; rfl
  writable d mem := by
    rw [List.mem_singleton.mp mem]
    have plain : Writable (text "01ARZ3NDEKTSV4RRFFQ69G5FAV") := writable_text (by decide)
    exact plain

theorem sampleInput_supplied : Supplied openPlatform (sampleInput [] [sampleItem])
    [(text "01ARZ3NDEKTSV4RRFFQ69G5FAV", sampleContent)] where
  keys := .refl _
  hashes d memD o memO _ := by
    rw [List.mem_singleton.mp memD, List.mem_singleton.mp memO]
    exact openPlatform_content

/-- The export round trip, and the order of the input. -/
theorem export_round_trip (lib : Platform) (m m' : ManifestInput) (signer : Signer)
    (objects : List (Text × ByteArray)) (report : Text) (exportable : Exportable lib m)
    (signs : Signs lib signer) (supplied : Supplied lib m objects) (proper : scalar report = true)
    (perm : Permuted m m') :
    ∃ manifest signed archive, buildManifest lib m = .ok manifest ∧
      signManifest lib manifest signer = .ok signed ∧
      createExportPackage signed objects report = .ok archive ∧
      (∀ trust, Accepted lib (.ok archive) (some signer.publicKeyPem) trust) ∧
      buildManifest lib m' = .ok manifest := by
  obtain ⟨bytes, written, built, signed⟩ := exportable.signed signer
  have writable : ∀ o ∈ objects, Writable o.1 := by
    intro o mem
    obtain ⟨d, memD, same⟩ := List.mem_map.mp (supplied.keys.mem_iff.mp (List.mem_map_of_mem mem))
    rw [← same]
    exact exportable.writable d memD
  have sorted : Supplied lib m (objects.insertionSort fun a b => a.1 ≤ b.1) := by
    have order := List.perm_insertionSort (fun a b : Text × ByteArray => a.1 ≤ b.1) objects
    exact ⟨(order.map Prod.fst).trans supplied.keys,
      fun d memD o memO same => supplied.hashes d memD o (order.mem_iff.mp memO) same⟩
  refine ⟨_, _, _, built, signed, createExportPackage_eq proper writable, fun trust => ?_, ?_⟩
  · exact (packed_written exportable.distinct.evidence sorted).accepted signs exportable.serialisable
      exportable.item written trust
  · rw [buildManifest_eq lib (exportable.sortable.perm perm), sortedManifest_perm exportable.distinct perm]

theorem sample_round_trip : ∃ manifest signed archive,
    buildManifest openPlatform (sampleInput [] [sampleItem]) = .ok manifest ∧
      signManifest openPlatform manifest sampleSigner = .ok signed ∧
      createExportPackage signed [(text "01ARZ3NDEKTSV4RRFFQ69G5FAV", sampleContent)] (text "report") =
        .ok archive ∧
      (∀ trust, Accepted openPlatform (.ok archive) (some sampleKey) trust) ∧
      buildManifest openPlatform (sampleInput [] [sampleItem]) = .ok manifest :=
  export_round_trip openPlatform _ _ sampleSigner _ (text "report") sampleInput_exportable openPlatform_signs
    sampleInput_supplied (scalar_text _)
    ⟨.refl _, .refl _, .refl _, .refl _, .refl _, .refl _, .refl _, rfl⟩

/-! Inputs that are turned away, or whose order shows. -/

def unversionedItem : Dict := sampleItem.filter fun field => field.1 ≠ text "s3_version_id"

def numberedItem : Dict :=
  setMember (text "evidence_id") (.str (text "01ARZ3NDEKTSV4RRFFQ69G5FAW"))
    (setMember (text "evidence_type") (.int 1) sampleItem)

def transitionTo (state : String) : Dict :=
  [(text "at", .str (text "2026-01-02T03:04:05Z")), (text "new_version", .int 2),
    (text "to_state", .str (text state))]

set_option maxRecDepth 4000 in
theorem unversioned_serialisable :
    ∀ v ∈ parts (sampleInput [] [unversionedItem]), Serialisable openPlatform v := by
  simp only [parts, sampleInput, List.map_nil, List.map_cons, List.nil_append, List.append_nil,
    List.cons_append, List.forall_mem_cons]
  refine ⟨⟨rfl, rfl⟩, ⟨rfl, rfl⟩, ⟨rfl, rfl⟩, ⟨rfl, rfl⟩, ⟨rfl, rfl⟩, ⟨rfl, rfl⟩, ⟨rfl, rfl⟩, ⟨rfl, rfl⟩,
    fun v mem => absurd mem List.not_mem_nil⟩

set_option maxRecDepth 4000 in
theorem transitions_serialisable (first second : Dict)
    (known : ∀ d ∈ [first, second], Serialisable openPlatform (.obj d)) :
    ∀ v ∈ parts (sampleInput [first, second] []), Serialisable openPlatform v := by
  rw [List.forall_mem_cons] at known
  simp only [parts, sampleInput, List.map_nil, List.map_cons, List.nil_append, List.append_nil,
    List.cons_append, List.forall_mem_cons]
  exact ⟨⟨rfl, rfl⟩, ⟨rfl, rfl⟩, ⟨rfl, rfl⟩, ⟨rfl, rfl⟩, ⟨rfl, rfl⟩, ⟨rfl, rfl⟩, ⟨rfl, rfl⟩, known.1,
    known.2 second List.mem_cons_self, fun v mem => absurd mem List.not_mem_nil⟩

theorem unversioned_rejected : ∃ manifest signed archive,
    buildManifest openPlatform (sampleInput [] [unversionedItem]) = .ok manifest ∧
      signManifest openPlatform manifest sampleSigner = .ok signed ∧
      createExportPackage signed [(text "01ARZ3NDEKTSV4RRFFQ69G5FAV", sampleContent)] (text "report") =
        .ok archive ∧
      ∀ trust, ¬ Accepted openPlatform (.ok archive) (some sampleKey) trust := by
  have sortable : Sortable (sampleInput [] [unversionedItem]) :=
    ⟨nofun, nofun, fun d mem => by rw [List.mem_singleton.mp mem]; exact ⟨rfl, rfl, rfl, rfl, rfl⟩,
      nofun, nofun, nofun, nofun⟩
  have serialisable := serialisable_manifest unversioned_serialisable
  obtain ⟨bytes, canonical⟩ : ∃ bytes, canonicalJsonBytes
      (.obj (sortedManifest (sampleInput [] [unversionedItem]))) = some bytes :=
    ⟨_, JsonLoads.canonicalJsonBytes_getD serialisable.2⟩
  have writable : ∀ o ∈ [(text "01ARZ3NDEKTSV4RRFFQ69G5FAV", sampleContent)], Writable o.1 := by
    intro o mem
    rw [List.mem_singleton.mp mem]
    exact writable_text (by decide)
  have supplied : Supplied openPlatform (sampleInput [] [unversionedItem])
      [(text "01ARZ3NDEKTSV4RRFFQ69G5FAV", sampleContent)] := by
    refine ⟨.refl _, fun d memD o memO _ => ?_⟩
    rw [List.mem_singleton.mp memD, List.mem_singleton.mp memO]
    exact openPlatform_content
  refine ⟨_, _, _, buildManifest_eq openPlatform sortable, signManifest_eq sampleSigner canonical,
    createExportPackage_eq (scalar_text _) writable, fun trust accepted => ?_⟩
  have unique : ((sampleInput [] [unversionedItem]).evidence.map fun d =>
      textField d "evidence_id").Nodup := List.nodup_singleton _
  have packed : Packed openPlatform (sampleInput [] [unversionedItem]) sampleSigner bytes
      (SignedPackage.written (headMembers openPlatform sampleSigner bytes (text "report") ++
        objectMembers [(text "01ARZ3NDEKTSV4RRFFQ69G5FAV", sampleContent)])) :=
    packed_written unique supplied
  have versioned := packed.versioned unversioned_serialisable canonical accepted unversionedItem
    List.mem_cons_self
  exact absurd versioned (by decide)

theorem transition_serialisable (state : String) : Serialisable openPlatform (.obj (transitionTo state)) := by
  refine serialisable_obj (by simp only [transitionTo, List.map_cons, List.map_nil]; decide) ?_ ?_
  · simp only [transitionTo, List.forall_mem_cons, scalar_text, true_and, List.not_mem_nil,
      false_imp_iff, implies_true]
  · simp only [transitionTo, List.forall_mem_cons]
    exact ⟨serialisable_text _, ⟨rfl, rfl⟩, serialisable_text _, fun m mem => absurd mem List.not_mem_nil⟩

theorem transitions_built (first second : String) :
    buildManifest openPlatform (sampleInput [transitionTo first, transitionTo second] []) =
      .ok (.obj (sortedManifest (sampleInput [transitionTo first, transitionTo second] []))) := by
  have fields : ∀ d ∈ [transitionTo first, transitionTo second],
      TextOrAbsent d "at" ∧ IntOrAbsent d "new_version" := by
    simp only [List.forall_mem_cons]
    exact ⟨⟨.inr rfl, .inr rfl⟩, ⟨.inr rfl, .inr rfl⟩, fun d mem => absurd mem List.not_mem_nil⟩
  exact buildManifest_eq openPlatform ⟨nofun, fields, nofun, nofun, nofun, nofun, nofun⟩

theorem timeline_readBack {lib : Platform} {m m' : ManifestInput}
    (known : ∀ v ∈ parts m, Serialisable lib v) (known' : ∀ v ∈ parts m', Serialisable lib v)
    (same : canonicalJsonBytes (.obj (sortedManifest m)) = canonicalJsonBytes (.obj (sortedManifest m'))) :
    (byRank timelineRank m.timeline).map readBack = (byRank timelineRank m'.timeline).map readBack := by
  have manifest := serialisable_manifest known
  have manifest' := serialisable_manifest known'
  obtain ⟨bytes, written⟩ : ∃ bytes, canonicalJsonBytes (.obj (sortedManifest m)) = some bytes :=
    ⟨_, JsonLoads.canonicalJsonBytes_getD manifest.2⟩
  have loaded := JsonLoads.loads_canonical manifest.1 written
  rw [JsonLoads.loads_canonical manifest'.1 (same.symm.trans written), Except.ok.injEq] at loaded
  have row : ∀ m, (text "case_state_timeline", rows (byRank timelineRank m.timeline)) ∈ sortedManifest m := by
    simp [sortedManifest]
  have field := field_readBack known (row m)
  rw [← loaded, field_readBack known' (row m'), Option.some.injEq, ordered_rows, ordered_rows] at field
  exact (rows_injective field).symm

/-- Of the claim's inputs, one has a package that is not accepted, one has no
manifest, and one shows its order. -/
theorem round_trip_fails :
    (∃ manifest signed archive,
      buildManifest openPlatform (sampleInput [] [unversionedItem]) = .ok manifest ∧
        signManifest openPlatform manifest sampleSigner = .ok signed ∧
        createExportPackage signed [(text "01ARZ3NDEKTSV4RRFFQ69G5FAV", sampleContent)] (text "report") =
          .ok archive ∧
        ∀ trust, ¬ Accepted openPlatform (.ok archive) (some sampleKey) trust) ∧
    buildManifest openPlatform (sampleInput [] [sampleItem, numberedItem]) = .error .typeError ∧
    (buildManifest openPlatform (sampleInput [transitionTo "ACTIVE", transitionTo "CLOSED"] [])).map
        canonicalJsonBytes ≠
      (buildManifest openPlatform (sampleInput [transitionTo "CLOSED", transitionTo "ACTIVE"] [])).map
        canonicalJsonBytes := by
  refine ⟨unversioned_rejected, rfl, fun same => ?_⟩
  rw [transitions_built, transitions_built] at same
  have known : ∀ first second, ∀ v ∈ parts (sampleInput [transitionTo first, transitionTo second] []),
      Serialisable openPlatform v := by
    intro first second
    refine transitions_serialisable _ _ ?_
    simp only [List.forall_mem_cons]
    exact ⟨transition_serialisable _, transition_serialisable _, fun d mem => absurd mem List.not_mem_nil⟩
  have rows := timeline_readBack (known "ACTIVE" "CLOSED") (known "CLOSED" "ACTIVE") (Except.ok.inj same)
  have states := congrArg (List.map fun d => textField d "to_state") rows
  exact absurd states (by decide +kernel)

end Mirage.ExportRoundTrip
