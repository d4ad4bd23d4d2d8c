import Mirage.EvidenceExport

/-! What an accepted export package is. `Passed` says all that the checks of
`verify_export_package` ask for, and the package is accepted exactly if it
holds. -/

namespace Mirage.ExportSoundness
open PythonText Raw RowLocks SignedPackage EvidenceExport

def Accepted (lib : Platform) (package : Package) (explicitKey : Option ByteArray) (trust : Trust) :
    Prop :=
  ∃ report, verifyExportPackage lib package explicitKey trust = .ok report ∧ report.valid = true

structure Signed (lib : Platform) (archive : Archive) (explicitKey : Option ByteArray) (trust : Trust)
    (manifestBytes : ByteArray) (embedded : Option ByteArray) (resolution : TrustResolution)
    (key : ByteArray) : Prop where
  carried : readIfPresent archive (text "public-key.pem") = .ok embedded
  resolved : resolveTrustedKey lib explicitKey trust embedded = .ok resolution
  found : resolution.keyBytes = some key
  verified : (read archive (text "manifest.sig") >>=
    verifySignature lib key (lib.sha256 manifestBytes)) = .ok ()

structure Passed (lib : Platform) (archive : Archive) (explicitKey : Option ByteArray) (trust : Trust)
    (manifestBytes : ByteArray) (manifest : Raw) (items : List ValidItem) : Prop where
  unique : (names archive).Nodup
  complete : ∀ name ∈ required, name ∈ names archive
  manifestRead : read archive (text "manifest.json") = .ok manifestBytes
  recorded : ∃ bytes t, read archive (text "manifest.sha256") = .ok bytes ∧ decodeUtf8 bytes = .ok t ∧
    hexDigest lib manifestBytes = strip t
  loaded : JsonLoads.loads lib.toInterpreter manifestBytes = .ok manifest
  written : canonicalJsonBytes manifest = some manifestBytes
  version : manifest.get? "manifest_version" = some (.str manifestVersion)
  algorithm : (manifest.get? "signing").bind (·.get? "algorithm") = some (.str signingAlgorithm)
  evidence : manifest.get? "evidence_objects" = some (rows (items.map ValidItem.dict))
  order : ∃ sorted, sortEvidence lib (items.map ValidItem.dict) = .ok sorted ∧
    equals (rows (items.map ValidItem.dict)) (rows sorted) = true
  objects : ∀ name ∈ names archive, isObject name = true →
    ∃ item ∈ items, objectName item.evidenceId = name
  stored : ∀ item ∈ items, ∃ data, read archive (objectName item.evidenceId) = .ok data ∧
    hexDigest lib data = item.sha256
  signed : ∃ embedded resolution key,
    Signed lib archive explicitKey trust manifestBytes embedded resolution key

/-! Each group of checks without an error. -/

theorem dictGet_eq_get? {value : Raw} {name : String} {found : Option Raw}
    (ok : dictGet value name = .ok found) : value.get? name = found := by
  obtain ⟨members, rfl, known⟩ := dictGet_eq_ok.mp ok
  exact known

theorem dictGet_of_get? {value found : Raw} {name : String} (known : value.get? name = some found)
    (other : String) : dictGet value other = .ok (value.get? other) := by
  cases value with
  | obj members => rfl
  | _ => cases known

theorem headErrors_eq_nil {manifest : Raw} {bytes : ByteArray} :
    headErrors manifest bytes = .ok [] ↔ canonicalJsonBytes manifest = some bytes ∧
      manifest.get? "manifest_version" = some (.str manifestVersion) ∧
      (manifest.get? "signing").bind (·.get? "algorithm") = some (.str signingAlgorithm) := by
  constructor
  · intro clean
    rw [headErrors, bind_eq_ok] at clean
    obtain ⟨written, canonical, clean⟩ := clean
    rw [bind_eq_ok] at clean
    obtain ⟨version, versionGet, clean⟩ := clean
    rw [bind_eq_ok] at clean
    obtain ⟨signing, signingGet, clean⟩ := clean
    rw [bind_eq_ok] at clean
    obtain ⟨algorithm, algorithmGet, clean⟩ := clean
    have clean := Except.ok.inj clean
    rw [List.append_eq_nil_iff, List.append_eq_nil_iff, check_eq_nil, check_eq_nil, check_eq_nil,
      decide_eq_true_eq, isText_iff, isText_iff] at clean
    obtain ⟨⟨same, versionText⟩, algorithmText⟩ := clean
    rw [← same, dictGet_eq_get? versionGet, dictGet_eq_get? signingGet]
    refine ⟨canonical_eq_ok.mp canonical, versionText, ?_⟩
    cases signing with
    | none =>
      have none' : algorithm = none := (Except.ok.inj algorithmGet).symm
      rw [none'] at algorithmText
      cases algorithmText
    | some value => exact (dictGet_eq_get? algorithmGet).trans algorithmText
  · rintro ⟨written, version, algorithm⟩
    cases signing : manifest.get? "signing" with
    | none =>
      rw [signing] at algorithm
      cases algorithm
    | some value =>
      rw [signing, Option.bind_some] at algorithm
      simp only [headErrors, canonical_eq_ok.mpr written, dictGet_of_get? version,
        dictGet_of_get? algorithm, signing, Option.getD_some, version, algorithm, bind, Except.bind,
        pure, Except.pure]
      simp [check, isText]

theorem validItem_eq_ok {lib : Platform} {index : ℕ} {item : Raw} {v : ValidItem}
    (valid : validItem lib index item = .ok v) : item = .obj v.dict := by
  unfold validItem at valid
  split at valid
  next =>
    split at valid
    next =>
      split at valid
      next => cases valid; rfl
      next => cases valid
    next => cases valid
  next => cases valid

theorem validItem_dict (lib : Platform) (index : ℕ) (v : ValidItem) :
    validItem lib index (.obj v.dict) = .ok v := by
  obtain ⟨d, evidenceId, sha256, complete, id_eq, sha256_eq⟩ := v
  unfold validItem
  simp only [dif_pos complete]
  split
  next id hash idKnown hashKnown =>
    have sameId : id = evidenceId := by simpa [id_eq] using idKnown.symm
    have sameHash : hash = sha256 := by simpa [sha256_eq] using hashKnown.symm
    subst sameId sameHash
    rfl
  next other => exact (other _ _ id_eq sha256_eq).elim

theorem validEvidence_eq {lib : Platform} {items : List Raw} {valid : List ValidItem} {index : ℕ} :
    validEvidence lib index items = ([], valid) ↔ items = valid.map fun v => .obj v.dict := by
  induction items generalizing valid index with
  | nil =>
    cases valid with
    | nil => exact ⟨fun _ => rfl, fun _ => rfl⟩
    | cons v valid => exact ⟨nofun, nofun⟩
  | cons item rest ih =>
    rw [validEvidence]
    cases found : validItem lib index item with
    | error e =>
      constructor
      · intro impossible
        cases impossible
      · intro same
        cases valid with
        | nil => cases same
        | cons v valid =>
          rw [List.map_cons, List.cons.injEq] at same
          rw [same.1, validItem_dict] at found
          cases found
    | ok v =>
      constructor
      · intro same
        simp only [Prod.mk.injEq] at same
        obtain ⟨clean, rfl⟩ := same
        rw [List.map_cons, ← validItem_eq_ok found, ← ih.mp (Prod.ext clean rfl)]
      · intro same
        cases valid with
        | nil => cases same
        | cons w valid =>
          rw [List.map_cons, List.cons.injEq] at same
          rw [same.1, validItem_dict, Except.ok.injEq] at found
          simp only [ih.mpr same.2, found]

theorem sortErrors_eq_nil {lib : Platform} {valid : List ValidItem} :
    sortErrors lib valid = .ok [] ↔ ∃ sorted, sortEvidence lib (valid.map ValidItem.dict) = .ok sorted ∧
      equals (rows (valid.map ValidItem.dict)) (rows sorted) = true := by
  unfold sortErrors
  cases found : sortEvidence lib (valid.map ValidItem.dict) with
  | ok sorted => simp
  | error exc =>
    simp only [reduceCtorEq, false_and, exists_false, iff_false]
    split <;> simp

theorem isObject_objectName (t : Text) : isObject (objectName t) = true :=
  List.isPrefixOf_iff_prefix.mpr (List.prefix_append _ _)

theorem objectErrors_eq_nil {found : List Text} {valid : List ValidItem} :
    objectErrors found valid = [] ↔
      (∀ item ∈ valid, objectName item.evidenceId ∈ found) ∧
        ∀ name ∈ found, isObject name = true → ∃ item ∈ valid, objectName item.evidenceId = name := by
  simp only [objectErrors, List.append_eq_nil_iff, each_eq_nil, without_eq_nil, List.mem_map,
    List.mem_filter, forall_exists_index, and_imp, forall_apply_eq_imp_iff₂, isObject_objectName,
    and_true]

theorem hashErrors_eq_nil {lib : Platform} {archive : Archive} {item : ValidItem}
    (present : objectName item.evidenceId ∈ names archive) :
    hashErrors lib archive item = .ok [] ↔ ∃ data,
      read archive (objectName item.evidenceId) = .ok data ∧ hexDigest lib data = item.sha256 := by
  simp only [hashErrors, if_pos present]
  rw [bind_eq_ok]
  simp [pure, Except.pure]

theorem signatureErrors_eq_nil {lib : Platform} {archive : Archive} {bytes key : ByteArray} :
    signatureErrors lib archive bytes (some key) = [] ↔
      (read archive (text "manifest.sig") >>= verifySignature lib key (lib.sha256 bytes)) =
        .ok () := by
  rw [signatureErrors]
  split <;> simp_all

theorem evidenceItems_eq_nil {found : Option Raw} {items : List Raw} :
    evidenceItems found = ([], items) ↔ found = some (.arr items) := by
  unfold evidenceItems
  split <;> simp_all

theorem manifestErrors_eq_nil {lib : Platform} {archive : Archive} {explicitKey : Option ByteArray}
    {trust : Trust} {bytes : ByteArray} {manifest : Raw} :
    manifestErrors lib archive explicitKey trust bytes manifest = .ok [] ↔
      headErrors manifest bytes = .ok [] ∧ ∃ items : List ValidItem,
        manifest.get? "evidence_objects" = some (rows (items.map ValidItem.dict)) ∧
        sortErrors lib items = .ok [] ∧ objectErrors (names archive) items = [] ∧
        (∀ item ∈ items, hashErrors lib archive item = .ok []) ∧
        ∃ embedded resolution key, Signed lib archive explicitKey trust bytes embedded resolution key := by
  constructor
  · intro clean
    rw [manifestErrors, bind_eq_ok] at clean
    obtain ⟨head, headOk, clean⟩ := clean
    rw [bind_eq_ok] at clean
    obtain ⟨evidence, evidenceGet, clean⟩ := clean
    split at clean
    next kindErrors items kindForm =>
    split at clean
    next itemErrors valid itemForm =>
    rw [bind_eq_ok] at clean
    obtain ⟨order, orderOk, clean⟩ := clean
    rw [bind_eq_ok] at clean
    obtain ⟨hashes, hashesOk, clean⟩ := clean
    rw [bind_eq_ok] at clean
    obtain ⟨embedded, carried, clean⟩ := clean
    rw [bind_eq_ok] at clean
    obtain ⟨resolution, resolved, clean⟩ := clean
    have clean := Except.ok.inj clean
    simp only [List.append_eq_nil_iff] at clean
    obtain ⟨⟨⟨⟨⟨⟨⟨rfl, rfl⟩, rfl⟩, rfl⟩, objects⟩, rfl⟩, trusted⟩, signature⟩ := clean
    obtain ⟨key, found⟩ := resolveTrustedKey_key resolved trusted
    rw [found] at signature
    refine ⟨headOk, valid, ?_, orderOk, objects, collect_eq_nil.mp hashesOk, embedded, resolution, key,
      carried, resolved, found, signatureErrors_eq_nil.mp signature⟩
    rw [dictGet_eq_get? evidenceGet, evidenceItems_eq_nil.mp kindForm, rows, List.map_map,
      validEvidence_eq.mp itemForm]
    rfl
  · rintro ⟨head, items, evidence, order, objects, hashes, embedded, resolution, key, signed⟩
    have itemForm : validEvidence lib 0 ((items.map ValidItem.dict).map .obj) = ([], items) :=
      validEvidence_eq.mpr (by rw [List.map_map]; rfl)
    have trusted := (resolveTrustedKey_sound signed.resolved signed.found).2.2
    have signature := signatureErrors_eq_nil.mpr signed.verified
    simp only [manifestErrors, head, dictGet_of_get? evidence, evidence, rows, evidenceItems, itemForm,
      order, collect_eq_nil.mpr hashes, signed.carried, signed.resolved, signed.found, objects, trusted,
      signature, bind, Except.bind, pure, Except.pure, List.append_nil]

theorem inspect_valid {lib : Platform} {archive : Archive} {explicitKey : Option ByteArray}
    {trust : Trust} : (∃ report, inspect lib archive explicitKey trust = .ok report ∧ report.valid = true) ↔
      ∃ bytes recorded t manifest, read archive (text "manifest.json") = .ok bytes ∧
        read archive (text "manifest.sha256") = .ok recorded ∧ decodeUtf8 recorded = .ok t ∧
        hexDigest lib bytes = strip t ∧ JsonLoads.loads lib.toInterpreter bytes = .ok manifest ∧
        manifestErrors lib archive explicitKey trust bytes manifest = .ok [] := by
  constructor
  · rintro ⟨report, inspected, valid⟩
    rw [inspect, bind_eq_ok] at inspected
    obtain ⟨bytes, manifestRead, inspected⟩ := inspected
    rw [bind_eq_ok] at inspected
    obtain ⟨recorded, recordedRead, inspected⟩ := inspected
    rw [bind_eq_ok] at inspected
    obtain ⟨t, decoded, inspected⟩ := inspected
    split at inspected
    next =>
      split at inspected
      next => cases inspected; cases valid
      next => cases inspected
    next manifest loaded =>
      rw [bind_eq_ok] at inspected
      obtain ⟨errors, clean, inspected⟩ := inspected
      cases inspected
      rw [verdict, List.isEmpty_iff, List.append_eq_nil_iff, check_eq_nil, decide_eq_true_eq] at valid
      obtain ⟨same, rfl⟩ := valid
      exact ⟨bytes, recorded, t, manifest, manifestRead, recordedRead, decoded, same, loaded, clean⟩
  · rintro ⟨bytes, recorded, t, manifest, manifestRead, recordedRead, decoded, same, loaded, clean⟩
    refine ⟨verdict [] (some (hexDigest lib bytes)), ?_, rfl⟩
    simp only [inspect, manifestRead, recordedRead, decoded, loaded, clean, bind, Except.bind, pure,
      Except.pure, ← same, check, decide_true, if_true, List.append_nil]

theorem openErrors_eq_nil {archive : Archive} : openErrors archive = [] ↔
    (names archive).Nodup ∧ ∀ name ∈ required, name ∈ names archive := by
  rw [openErrors, List.append_eq_nil_iff, check_eq_nil, decide_eq_true_eq, each_eq_nil, without_eq_nil]

theorem verifyOpened_valid {lib : Platform} {archive : Archive} {explicitKey : Option ByteArray}
    {trust : Trust} :
    (∃ report, verifyOpened lib archive explicitKey trust = .ok report ∧ report.valid = true) ↔
      ((names archive).Nodup ∧ ∀ name ∈ required, name ∈ names archive) ∧
        ∃ report, inspect lib archive explicitKey trust = .ok report ∧ report.valid = true := by
  rw [← openErrors_eq_nil, verifyOpened]
  split
  next clean => simp [clean]
  next dirty =>
    simp only [dirty, false_and, iff_false, not_exists, not_and]
    intro report answered
    cases answered
    exact Bool.false_ne_true

theorem accepted_opened {lib : Platform} {package : Package} {explicitKey : Option ByteArray}
    {trust : Trust} : Accepted lib package explicitKey trust ↔ ∃ archive, package = .ok archive ∧
      ∃ report, verifyOpened lib archive explicitKey trust = .ok report ∧ report.valid = true := by
  unfold Accepted verifyExportPackage
  cases package with
  | error exc =>
    simp only [bind, Except.bind, reduceCtorEq, false_and, exists_false, iff_false]
    rintro ⟨report, answered, valid⟩
    split at answered
    · cases answered
      cases valid
    · cases answered
  | ok archive =>
    simp only [bind, Except.bind, Except.ok.injEq, exists_eq_left']
    cases verifyOpened lib archive explicitKey trust with
    | ok report => rfl
    | error exc =>
      simp only [reduceCtorEq, false_and, exists_false, iff_false]
      rintro ⟨report, answered, valid⟩
      split at answered
      · cases answered
        cases valid
      · cases answered

theorem accepted_iff {lib : Platform} {package : Package} {explicitKey : Option ByteArray}
    {trust : Trust} : Accepted lib package explicitKey trust ↔
      ∃ archive manifestBytes manifest items, package = .ok archive ∧
        Passed lib archive explicitKey trust manifestBytes manifest items := by
  rw [accepted_opened]
  constructor
  · rintro ⟨archive, rfl, opened⟩
    obtain ⟨⟨unique, complete⟩, inspected⟩ := verifyOpened_valid.mp opened
    obtain ⟨bytes, recorded, t, manifest, manifestRead, recordedRead, decoded, same, loaded, clean⟩ :=
      inspect_valid.mp inspected
    obtain ⟨head, items, evidence, order, objects, hashes, signed⟩ := manifestErrors_eq_nil.mp clean
    obtain ⟨written, version, algorithm⟩ := headErrors_eq_nil.mp head
    obtain ⟨found, expected⟩ := objectErrors_eq_nil.mp objects
    exact ⟨archive, bytes, manifest, items, rfl, unique, complete, manifestRead,
      ⟨recorded, t, recordedRead, decoded, same⟩, loaded, written, version, algorithm, evidence,
      sortErrors_eq_nil.mp order, expected,
      fun item mem => (hashErrors_eq_nil (found item mem)).mp (hashes item mem), signed⟩
  · rintro ⟨archive, bytes, manifest, items, rfl, passed⟩
    obtain ⟨recorded, t, recordedRead, decoded, same⟩ := passed.recorded
    have found : ∀ item ∈ items, objectName item.evidenceId ∈ names archive := fun item mem =>
      (passed.stored item mem).elim fun data stored => mem_names_of_read stored.1
    refine ⟨archive, rfl, verifyOpened_valid.mpr ⟨⟨passed.unique, passed.complete⟩,
      inspect_valid.mpr ⟨bytes, recorded, t, manifest, passed.manifestRead, recordedRead, decoded, same,
        passed.loaded, manifestErrors_eq_nil.mpr ⟨?_, items, passed.evidence, ?_, ?_, ?_, passed.signed⟩⟩⟩⟩
    · exact headErrors_eq_nil.mpr ⟨passed.written, passed.version, passed.algorithm⟩
    · exact sortErrors_eq_nil.mpr passed.order
    · exact objectErrors_eq_nil.mpr ⟨found, passed.objects⟩
    · exact fun item mem => (hashErrors_eq_nil (found item mem)).mpr (passed.stored item mem)

/-! What an accepted package vouches for. -/

/-- The members outside `objects/` that the verifier knows. -/
def known : List Text := required ++ [text "public-key.pem"]

/-- No member outside `objects/` but those that the verifier knows. -/
def NoStray (package : Package) : Prop :=
  ∀ archive, package = .ok archive →
    ∀ name ∈ names archive, isObject name = false → name ∈ known

/-- A signature is only found valid where the holder of the key signed a message
with this digest. -/
def Correct (lib : Platform) (signedBy : ByteArray → ByteArray → Prop) : Prop :=
  ∀ key digest signature, verifySignature lib key digest signature = .ok () →
    ∃ message, signedBy key message ∧ lib.sha256 message = digest

structure Sound (lib : Platform) (signedBy : ByteArray → ByteArray → Prop) (archive : Archive)
    (explicitKey : Option ByteArray) (trust : Trust) (manifestBytes : ByteArray) (manifest : Raw)
    (items : List ValidItem) : Prop where
  manifestRead : read archive (text "manifest.json") = .ok manifestBytes
  loaded : JsonLoads.loads lib.toInterpreter manifestBytes = .ok manifest
  written : canonicalJsonBytes manifest = some manifestBytes
  version : manifest.get? "manifest_version" = some (.str manifestVersion)
  recorded : ∃ bytes t, read archive (text "manifest.sha256") = .ok bytes ∧ decodeUtf8 bytes = .ok t ∧
    hexDigest lib manifestBytes = strip t
  signer : ∃ embedded key, readIfPresent archive (text "public-key.pem") = .ok embedded ∧
    Trusted lib explicitKey trust embedded key ∧ signedBy key manifestBytes
  evidence : manifest.get? "evidence_objects" = some (rows (items.map ValidItem.dict))
  sorted : ∃ sorted, sortEvidence lib (items.map ValidItem.dict) = .ok sorted ∧
    equals (rows (items.map ValidItem.dict)) (rows sorted) = true
  unique : (names archive).Nodup
  objects : ∀ name, name ∈ names archive ∧ isObject name = true ↔
    ∃ item ∈ items, objectName item.evidenceId = name
  stored : ∀ item ∈ items, ∃ data, read archive (objectName item.evidenceId) = .ok data ∧
    hexDigest lib data = item.sha256
  others : ∀ name ∈ names archive, isObject name = false → name ∈ known

theorem Passed.sound {lib : Platform} {signedBy : ByteArray → ByteArray → Prop}
    (injective : Function.Injective lib.sha256) (correct : Correct lib signedBy) {archive : Archive}
    {explicitKey : Option ByteArray} {trust : Trust} {manifestBytes : ByteArray} {manifest : Raw}
    {items : List ValidItem}
    (passed : Passed lib archive explicitKey trust manifestBytes manifest items)
    (others : ∀ name ∈ names archive, isObject name = false → name ∈ known) :
    Sound lib signedBy archive explicitKey trust manifestBytes manifest items := by
  obtain ⟨embedded, resolution, key, signed⟩ := passed.signed
  have verified := signed.verified
  rw [bind_eq_ok] at verified
  obtain ⟨signature, _, verified⟩ := verified
  obtain ⟨message, byHolder, same⟩ := correct key _ signature verified
  have signer : signedBy key manifestBytes := injective same ▸ byHolder
  have trusted := (resolveTrustedKey_sound signed.resolved signed.found).1
  refine ⟨passed.manifestRead, passed.loaded, passed.written, passed.version, passed.recorded,
    ⟨embedded, key, signed.carried, trusted, signer⟩, passed.evidence, passed.order, passed.unique,
    fun name => ⟨fun found => passed.objects name found.1 found.2, ?_⟩, passed.stored, others⟩
  rintro ⟨item, mem, rfl⟩
  obtain ⟨data, stored, _⟩ := passed.stored item mem
  exact ⟨mem_names_of_read stored, isObject_objectName _⟩

/-! A package with one evidence object. -/

def sampleItem : Dict :=
  [(text "acquisition_time", .str (text "2026-01-02T03:04:05Z")),
    (text "evidence_id", .str (text "01ARZ3NDEKTSV4RRFFQ69G5FAV")),
    (text "evidence_type", .str (text "LOG")), (text "s3_version_id", .str (text "v1")),
    (text "sha256", .str (text "9173a0e9fad8b022a0e69fefde6b33ee687224a794e7bc666748f268f3685f95")),
    (text "source_id", .str (text "agent-1")), (text "source_sequence", .int 1)]

def sampleManifest : Raw :=
  .obj [(text "evidence_objects", .arr [.obj sampleItem]), (text "manifest_version", .str manifestVersion),
    (text "signing", .obj [(text "algorithm", .str signingAlgorithm)])]

def sampleBytes : ByteArray := (canonicalJsonBytes sampleManifest).getD .empty

def sampleContent : ByteArray := "logon\n".toUTF8

def sampleTable : List (ByteArray × List UInt8) :=
  [(sampleContent, [145, 115, 160, 233, 250, 216, 176, 34, 160, 230, 159, 239, 222, 107, 51, 238, 104,
      114, 36, 167, 148, 231, 188, 102, 103, 72, 242, 104, 243, 104, 95, 149]),
    (sampleBytes, [122, 119, 191, 31, 67, 110, 153, 14, 2, 238, 120, 29, 90, 38, 204, 209, 32, 7, 214,
      246, 114, 201, 46, 30, 76, 47, 153, 231, 230, 10, 126, 85])]

def sampleKey : ByteArray := "-----BEGIN PUBLIC KEY-----".toUTF8

def sampleSignature : ByteArray := "signature".toUTF8

def samplePlatform : Platform :=
  tablePlatform sampleTable fun key digest signature =>
    key = sampleKey && digest = tableHash sampleTable sampleBytes && signature = sampleSignature

def sampleMembers : List (Text × ByteArray) :=
  [(text "manifest.json", sampleBytes),
    (text "manifest.sha256",
      "7a77bf1f436e990e02ee781d5a26ccd12007d6f672c92e1e4c2f99e7e60a7e55\n".toUTF8),
    (text "manifest.sig", sampleSignature), (text "public-key.pem", sampleKey),
    (text "verification-report.txt", .empty),
    (text "objects/01ARZ3NDEKTSV4RRFFQ69G5FAV", sampleContent)]

def sampleTrust : Trust := ⟨none, none, fun _ => ⟨false, [], none⟩⟩

def sampleValid : ValidItem where
  dict := sampleItem
  evidenceId := text "01ARZ3NDEKTSV4RRFFQ69G5FAV"
  sha256 := text "9173a0e9fad8b022a0e69fefde6b33ee687224a794e7bc666748f268f3685f95"
  complete := by decide
  id_eq := rfl
  sha256_eq := rfl

def sampleSignedBy (key message : ByteArray) : Prop := key = sampleKey ∧ message = sampleBytes

set_option maxRecDepth 4000 in
theorem sample_written : canonicalJsonBytes sampleManifest = some sampleBytes :=
  JsonLoads.canonicalJsonBytes_getD (by rfl)

theorem sampleContent_ne : sampleContent ≠ sampleBytes :=
  JsonLoads.ne_of_head sample_written (by decide)

theorem samplePlatform_sha256 : samplePlatform.sha256 = tableHash sampleTable := rfl

theorem sampleTable_bytes : hexDigest samplePlatform sampleBytes =
    text "7a77bf1f436e990e02ee781d5a26ccd12007d6f672c92e1e4c2f99e7e60a7e55" := by
  rw [hexDigest, samplePlatform_sha256, sampleTable, tableHash_rest sampleContent_ne, tableHash_first,
    List.toList_data_toByteArray]
  rfl

theorem sampleTable_content : hexDigest samplePlatform sampleContent =
    text "9173a0e9fad8b022a0e69fefde6b33ee687224a794e7bc666748f268f3685f95" := by
  rw [hexDigest, samplePlatform_sha256, sampleTable, tableHash_first, List.toList_data_toByteArray]
  rfl

theorem samplePlatform_injective : Function.Injective samplePlatform.sha256 := by
  refine tableHash_injective ?_ ?_
  · rw [sampleTable, List.map_cons, List.map_cons, List.map_nil]
    decide
  · intro row mem
    simp only [sampleTable, List.mem_cons, List.not_mem_nil, or_false] at mem
    rcases mem with rfl | rfl
    all_goals rfl

theorem verifySignature_table {table : List (ByteArray × List UInt8)}
    {valid : ByteArray → ByteArray → ByteArray → Bool} {key digest signature : ByteArray} :
    verifySignature (tablePlatform table valid) key digest signature = .ok () ↔
      valid key digest signature = true :=
  tablePlatform_verify table

theorem sample_signature {key digest signature : ByteArray} :
    verifySignature samplePlatform key digest signature = .ok () ↔
      key = sampleKey ∧ digest = tableHash sampleTable sampleBytes ∧ signature = sampleSignature := by
  rw [samplePlatform, verifySignature_table, Bool.and_eq_true, Bool.and_eq_true, decide_eq_true_eq,
    decide_eq_true_eq, decide_eq_true_eq, and_assoc]

theorem samplePlatform_correct : Correct samplePlatform sampleSignedBy := by
  intro key digest signature verified
  obtain ⟨byKey, same, _⟩ := sample_signature.mp verified
  exact ⟨sampleBytes, ⟨byKey, Eq.refl sampleBytes⟩, samplePlatform_sha256 ▸ same.symm⟩

set_option maxRecDepth 4000 in
theorem sample_ordered : JsonLoads.ordered sampleManifest = sampleManifest := by rfl

set_option maxRecDepth 4000 in
theorem sample_readable : JsonLoads.readable samplePlatform.toInterpreter sampleManifest = true := by
  rfl

theorem sample_loaded :
    JsonLoads.loads samplePlatform.toInterpreter sampleBytes = .ok sampleManifest := by
  have loaded := JsonLoads.loads_canonical sample_readable sample_written
  rw [loaded]
  exact congrArg Except.ok sample_ordered

set_option maxRecDepth 4000 in
theorem sample_order : ∃ sorted, sortEvidence samplePlatform [sampleItem] = .ok sorted ∧
    equals (rows [sampleItem]) (rows sorted) = true :=
  ⟨[sampleItem], rfl, by decide⟩

theorem sample_version : sampleManifest.get? "manifest_version" = some (.str manifestVersion) := rfl

theorem sample_algorithm :
    (sampleManifest.get? "signing").bind (·.get? "algorithm") = some (.str signingAlgorithm) := rfl

theorem sample_evidence :
    sampleManifest.get? "evidence_objects" = some (rows ([sampleValid].map ValidItem.dict)) := rfl

theorem sample_passed (extra : List (Text × ByteArray))
    (unique : ((sampleMembers ++ extra).map Prod.fst).Nodup)
    (other : ∀ m ∈ extra, isObject m.1 = false) :
    Passed samplePlatform (written (sampleMembers ++ extra)) (some sampleKey) sampleTrust sampleBytes
      sampleManifest [sampleValid] := by
  have stored : ∀ {name data}, (name, data) ∈ sampleMembers →
      read (written (sampleMembers ++ extra)) name = .ok data :=
    fun mem => read_written unique (List.mem_append_left extra mem)
  have listed : ∀ {name data}, (name, data) ∈ sampleMembers →
      name ∈ names (written (sampleMembers ++ extra)) :=
    fun mem => mem_names_of_read (stored mem)
  have manifestMem : (text "manifest.json", sampleBytes) ∈ sampleMembers := .head _
  have digestMem : (text "manifest.sha256",
      "7a77bf1f436e990e02ee781d5a26ccd12007d6f672c92e1e4c2f99e7e60a7e55\n".toUTF8) ∈ sampleMembers :=
    .tail _ (.head _)
  have signatureMem : (text "manifest.sig", sampleSignature) ∈ sampleMembers :=
    .tail _ (.tail _ (.head _))
  have keyMem : (text "public-key.pem", sampleKey) ∈ sampleMembers :=
    .tail _ (.tail _ (.tail _ (.head _)))
  have reportMem : (text "verification-report.txt", .empty) ∈ sampleMembers :=
    .tail _ (.tail _ (.tail _ (.tail _ (.head _))))
  have objectMem : (objectName sampleValid.evidenceId, sampleContent) ∈ sampleMembers :=
    .tail _ (.tail _ (.tail _ (.tail _ (.tail _ (.head _)))))
  have unique' : (names (written (sampleMembers ++ extra))).Nodup := by
    rw [names_written]
    exact unique
  refine ⟨unique', ?_, stored manifestMem, ?_, sample_loaded, sample_written, sample_version,
    sample_algorithm, sample_evidence, sample_order, ?_, ?_, ?_⟩
  · intro name mem
    simp only [required, List.mem_cons, List.not_mem_nil, or_false] at mem
    rcases mem with rfl | rfl | rfl | rfl
    · exact listed manifestMem
    · exact listed digestMem
    · exact listed signatureMem
    · exact listed reportMem
  · refine ⟨_, _, stored digestMem, decodeUtf8_toUTF8 _, ?_⟩
    rw [sampleTable_bytes]
    decide
  · intro name mem object
    rw [names_written, List.mem_map] at mem
    obtain ⟨m, mem, rfl⟩ := mem
    rcases List.mem_append.mp mem with inside | outside
    · have single : ∀ n ∈ sampleMembers.map Prod.fst, isObject n = true →
          objectName sampleValid.evidenceId = n := by decide
      exact ⟨sampleValid, List.mem_cons_self, single m.1 (List.mem_map_of_mem inside) object⟩
    · rw [other m outside] at object
      cases object
  · intro item mem
    rw [List.mem_singleton.mp mem]
    exact ⟨sampleContent, stored objectMem, sampleTable_content⟩
  · refine ⟨some sampleKey, ⟨some sampleKey, _, _, []⟩, sampleKey, ?_, rfl, rfl, ?_⟩
    · rw [readIfPresent, if_pos (listed keyMem), stored keyMem]
      rfl
    · rw [stored signatureMem, ok_bind, samplePlatform_sha256]
      exact sample_signature.mpr ⟨rfl, rfl, rfl⟩

/-- An accepted package is bound as a whole exactly if it has no stray member. -/
theorem accepted_sound_iff (lib : Platform) (signedBy : ByteArray → ByteArray → Prop)
    (injective : Function.Injective lib.sha256) (correct : Correct lib signedBy) (package : Package)
    (explicitKey : Option ByteArray) (trust : Trust)
    (accepted : Accepted lib package explicitKey trust) :
    (∃ archive manifestBytes manifest items, package = .ok archive ∧
      Sound lib signedBy archive explicitKey trust manifestBytes manifest items) ↔
        NoStray package := by
  constructor
  · rintro ⟨archive, manifestBytes, manifest, items, rfl, sound⟩ archive' same
    cases same
    exact sound.others
  · intro noStray
    obtain ⟨archive, manifestBytes, manifest, items, opened, passed⟩ := accepted_iff.mp accepted
    exact ⟨archive, manifestBytes, manifest, items, opened,
      passed.sound injective correct (noStray archive opened)⟩

theorem sample_accepted (extra : List (Text × ByteArray))
    (unique : ((sampleMembers ++ extra).map Prod.fst).Nodup)
    (other : ∀ m ∈ extra, isObject m.1 = false) :
    Accepted samplePlatform (.ok (written (sampleMembers ++ extra))) (some sampleKey) sampleTrust :=
  accepted_iff.mpr ⟨_, _, _, _, rfl, sample_passed extra unique other⟩

/-- The sample package has no stray member and is bound as a whole. -/
theorem sample_sound : NoStray (.ok (written sampleMembers)) ∧
    ∃ archive manifestBytes manifest items,
      (.ok (written sampleMembers) : Package) = .ok archive ∧
      Sound samplePlatform sampleSignedBy archive (some sampleKey) sampleTrust manifestBytes manifest
        items := by
  have accepted := sample_accepted [] (by decide) (by simp)
  rw [List.append_nil] at accepted
  have noStray : NoStray (.ok (written sampleMembers)) := by
    intro archive opened
    cases opened
    decide
  exact ⟨noStray, (accepted_sound_iff samplePlatform sampleSignedBy samplePlatform_injective
    samplePlatform_correct (.ok (written sampleMembers)) (some sampleKey) sampleTrust accepted).mpr
      noStray⟩

/-- The sample package with a file of notes is accepted, though nothing signed
speaks of the notes. -/
theorem notes_unsigned :
    Accepted samplePlatform (.ok (written (sampleMembers ++ [(text "notes.txt", sampleContent)])))
      (some sampleKey) sampleTrust ∧
    ¬∃ archive manifestBytes manifest items,
      (.ok (written (sampleMembers ++ [(text "notes.txt", sampleContent)])) : Package) = .ok archive ∧
      Sound samplePlatform sampleSignedBy archive (some sampleKey) sampleTrust manifestBytes manifest
        items := by
  refine ⟨sample_accepted _ (by decide) (by simp; decide), ?_⟩
  rintro ⟨archive, manifestBytes, manifest, items, opened, sound⟩
  cases opened
  have reach := sound.others (text "notes.txt") (by rw [names_written]; decide) (by decide)
  exact absurd reach (by decide)

end Mirage.ExportSoundness
