import Mirage.ReportPackage
import Mirage.ExportSoundness

/-! What the signature of a report package covers. The verifier holds the declared report
files against their hashes, but asks of the embedded evidence only that its names are
expected. -/

namespace Mirage.ReportBinding
open PythonText Raw RowLocks SignedPackage ReportPackage
open EvidenceExport (Dict signingAlgorithm rows)
open ExportSoundness (dictGet_eq_get? dictGet_of_get?)
open ReleasePackage (mem_sortKeys)

def Accepted (lib : Platform) (package : Package) (explicitKey : Option ByteArray) (trust : Trust)
    (expectedEvidenceManifestSha256 : Option Text) : Prop :=
  ∃ verification, verifyReportPackage lib package explicitKey trust expectedEvidenceManifestSha256 =
    .ok verification ∧ verification.valid = true

structure Carries (lib : Platform) (archive : Archive) (manifestBytes : ByteArray) (manifest : Raw) :
    Prop where
  manifestRead : read archive (text "manifest.json") = .ok manifestBytes
  loaded : JsonLoads.loads lib.toInterpreter manifestBytes = .ok manifest

section
variable (lib : Platform)

/-- `embedded_evidence_ids` of a manifest, as they stand in member names. -/
def embeddedIds (manifest : Raw) : List Text :=
  match iteratedOr (manifest.get? "embedded_evidence_ids") with
  | .ok values => values.map (strOf lib.printable)
  | .error _ => []

def evidenceObjects (manifest : Raw) : List Raw :=
  match manifest.get? "evidence_objects" with
  | some (.arr items) => items
  | _ => []

def describes (id : Text) (item : Raw) : Bool :=
  (item.get? "evidence_id").any fun value => strOf lib.printable value = id

def digests (manifest : Raw) (id : Text) : List (Option Raw) :=
  ((evidenceObjects manifest).filter (describes lib id)).map fun item => item.get? "sha256"

def HasDigest (manifest : Raw) (id digest : Text) : Prop :=
  digests lib manifest id ≠ [] ∧ ∀ d ∈ digests lib manifest id, d = some (.str digest)

structure Bound (archive : Archive) (manifest : Raw) : Prop where
  stored : ∀ id ∈ embeddedIds lib manifest, ∃ data, read archive (evidenceName id) = .ok data ∧
    HasDigest lib manifest id (hexDigest lib data)
  others : ∀ id, evidenceName id ∈ names archive → id ∈ embeddedIds lib manifest

/-- The manifest declares each embedded file among the report files, with the
digest of its evidence object, and no other file under `evidence/`. -/
structure Declared (manifest : Raw) : Prop where
  stored : ∀ id ∈ embeddedIds lib manifest, ∃ files detail digest,
    manifest.get? "report_files" = some (.obj files) ∧
    member (evidenceName id) files = some (.obj detail) ∧
    member (text "sha256") detail = some (.str digest) ∧ HasDigest lib manifest id digest
  others : ∀ files, manifest.get? "report_files" = some (.obj files) →
    ∀ id, evidenceName id ∈ files.map Prod.fst → id ∈ embeddedIds lib manifest

end

/-! The checks of an accepted package. -/

theorem declaredFiles_eq_nil {found : Option Raw} {files : Dict} :
    declaredFiles found = ([], files) ↔ found = some (.obj files) := by
  unfold declaredFiles
  split <;> simp_all

structure Passed (lib : Platform) (archive : Archive) (explicitKey : Option ByteArray) (trust : Trust)
    (expected : Option Text) (bytes : ByteArray) (manifest : Raw) (files : Dict) (embedded : List Raw) :
    Prop where
  head : headErrors lib archive expected manifest bytes = .ok []
  reportFiles : manifest.get? "report_files" = some (.obj files)
  embeddedIds : iteratedOr (manifest.get? "embedded_evidence_ids") = .ok embedded
  expectedNames : ∀ name ∈ names archive, name ∈ frame ++ files.map Prod.fst ++
    embedded.map fun value => evidenceName (strOf lib.printable value)
  declared : ∀ file ∈ files, declaredErrors lib archive file = .ok []
  trusted : trustErrors lib archive explicitKey trust bytes = .ok []

theorem manifestErrors_eq_nil {lib : Platform} {archive : Archive} {explicitKey : Option ByteArray}
    {trust : Trust} {expected : Option Text} {bytes : ByteArray} {manifest : Raw} :
    manifestErrors lib archive explicitKey trust expected bytes manifest = .ok [] ↔
      ∃ files embedded,
        Passed lib archive explicitKey trust expected bytes manifest files embedded := by
  constructor
  · intro clean
    rw [manifestErrors, bind_eq_ok] at clean
    obtain ⟨head, headOk, clean⟩ := clean
    rw [bind_eq_ok] at clean
    obtain ⟨found, filesGet, clean⟩ := clean
    cases form : declaredFiles found with
    | mk kindErrors files =>
      rw [form] at clean
      simp only at clean
      rw [bind_eq_ok] at clean
      obtain ⟨listed, listedGet, clean⟩ := clean
      rw [bind_eq_ok] at clean
      obtain ⟨embedded, iterated, clean⟩ := clean
      rw [bind_eq_ok] at clean
      obtain ⟨fileErrors, filesOk, clean⟩ := clean
      rw [bind_eq_ok] at clean
      obtain ⟨trusted, trustOk, clean⟩ := clean
      have clean := Except.ok.inj clean
      simp only [List.append_eq_nil_iff, each_eq_nil, without_eq_nil] at clean
      obtain ⟨⟨⟨⟨rfl, rfl⟩, expectedNames⟩, rfl⟩, rfl⟩ := clean
      have declared := collect_eq_nil.mp filesOk
      exact ⟨files, embedded, headOk,
        (dictGet_eq_get? filesGet).trans (declaredFiles_eq_nil.mp form),
        (congrArg iteratedOr (dictGet_eq_get? listedGet)).trans iterated, expectedNames,
        fun file mem => declared file (mem_sortKeys.mpr mem), trustOk⟩
  · rintro ⟨files, embedded, passed⟩
    have declared : collect (declaredErrors lib archive) (JsonLoads.sortKeys files) = .ok [] :=
      collect_eq_nil.mpr fun file mem => passed.declared file (mem_sortKeys.mp mem)
    have expectedNames : each "unexpected file: " (without (names archive) (frame ++ files.map Prod.fst ++
        embedded.map fun value => evidenceName (strOf lib.printable value))) = [] :=
      each_eq_nil.mpr (without_eq_nil.mpr passed.expectedNames)
    rw [manifestErrors, passed.head, ok_bind, dictGet_of_get? passed.reportFiles, ok_bind,
      passed.reportFiles, declaredFiles_eq_nil.mpr rfl]
    simp only
    rw [dictGet_of_get? passed.reportFiles, ok_bind, passed.embeddedIds, ok_bind, declared, ok_bind,
      passed.trusted, ok_bind, expectedNames]
    rfl

theorem inspect_eq_valid {lib : Platform} {archive : Archive} {explicitKey : Option ByteArray}
    {trust : Trust} {expected : Option Text} :
    (∃ verification, inspect lib archive explicitKey trust expected = .ok verification ∧
      verification.valid = true) ↔
      openErrors archive = [] ∧ ∃ bytes manifest files embedded, Carries lib archive bytes manifest ∧
        Passed lib archive explicitKey trust expected bytes manifest files embedded := by
  constructor
  · rintro ⟨verification, inspected, valid⟩
    unfold inspect at inspected
    split at inspected
    next =>
      cases inspected
      cases valid
    next =>
      rw [bind_eq_ok] at inspected
      obtain ⟨bytes, manifestRead, inspected⟩ := inspected
      split at inspected
      next =>
        split at inspected
        next =>
          cases inspected
          cases valid
        next => cases inspected
      next manifest loaded =>
        rw [bind_eq_ok] at inspected
        obtain ⟨found, foundOk, inspected⟩ := inspected
        cases inspected
        have clean := List.isEmpty_iff.mp valid
        rw [List.append_eq_nil_iff] at clean
        obtain ⟨opened, rfl⟩ := clean
        obtain ⟨files, embedded, passed⟩ := manifestErrors_eq_nil.mp foundOk
        exact ⟨opened, bytes, manifest, files, embedded, ⟨manifestRead, loaded⟩, passed⟩
  · rintro ⟨opened, bytes, manifest, files, embedded, carries, passed⟩
    have clean := manifestErrors_eq_nil.mpr ⟨files, embedded, passed⟩
    refine ⟨⟨true, [], some (hexDigest lib bytes)⟩, ?_, rfl⟩
    have member : ¬ text "manifest.json" ∉ names archive :=
      not_not_intro (mem_names_of_read carries.manifestRead)
    rw [inspect, if_neg member, carries.manifestRead, ok_bind, carries.loaded]
    simp only
    rw [clean, ok_bind, opened]
    rfl

theorem accepted_iff {lib : Platform} {package : Package} {explicitKey : Option ByteArray}
    {trust : Trust} {expected : Option Text} :
    Accepted lib package explicitKey trust expected ↔ ∃ archive, package = .ok archive ∧
      openErrors archive = [] ∧ ∃ bytes manifest files embedded, Carries lib archive bytes manifest ∧
        Passed lib archive explicitKey trust expected bytes manifest files embedded := by
  constructor
  · rintro ⟨verification, verified, valid⟩
    unfold verifyReportPackage at verified
    split at verified
    next answer opened =>
      cases verified
      rw [bind_eq_ok] at opened
      obtain ⟨archive, rfl, inspected⟩ := opened
      exact ⟨archive, rfl, inspect_eq_valid.mp ⟨verification, inspected, valid⟩⟩
    next =>
      split at verified
      next =>
        cases verified
        cases valid
      next => cases verified
  · rintro ⟨archive, rfl, passed⟩
    obtain ⟨verification, inspected, valid⟩ := inspect_eq_valid.mpr passed
    refine ⟨verification, ?_, valid⟩
    rw [verifyReportPackage, ok_bind, inspected]

/-! A package without one of its members. -/

def removed (archive : Archive) (name : Text) : Archive := archive.filter fun m => m.name ≠ name

theorem read_removed (archive : Archive) {gone name : Text} (other : name ≠ gone) :
    read (removed archive gone) name = read archive name := by
  have keep : (fun m : Member => decide (decide (m.name ≠ gone) = true ∧ decide (m.name = name) = true)) =
      fun m => decide (m.name = name) := by
    funext m
    rw [decide_eq_decide, decide_eq_true_eq, decide_eq_true_eq, and_iff_right_iff_imp]
    rintro rfl
    exact other
  rw [SignedPackage.read, removed, ← List.filter_reverse, List.find?_filter, keep, SignedPackage.read]

theorem mem_names_removed {archive : Archive} {gone name : Text} :
    name ∈ names (removed archive gone) ↔ name ∈ names archive ∧ name ≠ gone := by
  simp only [mem_names, removed, List.mem_filter, decide_eq_true_eq]
  constructor
  · rintro ⟨m, ⟨mem, keep⟩, rfl⟩
    exact ⟨⟨m, mem, rfl⟩, keep⟩
  · rintro ⟨⟨m, mem, rfl⟩, keep⟩
    exact ⟨m, ⟨mem, keep⟩, rfl⟩

def fixedNames : List Text := required ++ frame

theorem evidenceName_ne {id name : Text} (mem : name ∈ fixedNames) : name ≠ evidenceName id := by
  rintro rfl
  have apart : ∀ name ∈ fixedNames, (text "evidence/").isPrefixOf name = false := by decide
  have starts : (text "evidence/").isPrefixOf (evidenceName id) = true :=
    List.isPrefixOf_iff_prefix.mpr (List.prefix_append _ _)
  rw [apart _ mem] at starts
  cases starts

section
variable {lib : Platform} {archive : Archive} {gone : Text}

theorem present_removed {name : Text} (other : name ≠ gone) :
    name ∈ names (removed archive gone) ↔ name ∈ names archive := by
  rw [mem_names_removed, and_iff_left other]

theorem openErrors_removed (free : gone ∉ fixedNames) (opened : openErrors archive = []) :
    openErrors (removed archive gone) = [] := by
  rw [openErrors, List.append_eq_nil_iff, check_eq_nil, each_eq_nil, without_eq_nil,
    decide_eq_true_eq] at opened ⊢
  refine ⟨opened.1.sublist (List.filter_sublist.map _), fun name mem => ?_⟩
  have other : name ≠ gone := fun same => free (same ▸ List.mem_append_left _ mem)
  exact (present_removed other).mpr (opened.2 name mem)

theorem readIfPresent_removed {name : Text} (other : name ≠ gone) :
    readIfPresent (removed archive gone) name = readIfPresent archive name := by
  simp only [readIfPresent, present_removed other, read_removed archive other]

theorem trustErrors_removed (free : gone ∉ fixedNames) (explicitKey : Option ByteArray) (trust : Trust)
    (bytes : ByteArray) : trustErrors lib (removed archive gone) explicitKey trust bytes =
      trustErrors lib archive explicitKey trust bytes := by
  have key : text "public-key.pem" ≠ gone := fun same => free (same ▸ by decide)
  have signature : text "manifest.sig" ≠ gone := fun same => free (same ▸ by decide)
  have errors : ∀ keyBytes, EvidenceExport.signatureErrors lib (removed archive gone) bytes keyBytes =
      EvidenceExport.signatureErrors lib archive bytes keyBytes := by
    intro keyBytes
    unfold EvidenceExport.signatureErrors
    rw [read_removed archive signature]
  simp only [trustErrors, readIfPresent_removed key, present_removed signature, errors]

theorem headErrors_removed (free : gone ∉ fixedNames) (expected : Option Text) (manifest : Raw)
    (bytes : ByteArray) : headErrors lib (removed archive gone) expected manifest bytes =
      headErrors lib archive expected manifest bytes := by
  have digest : text "manifest.sha256" ≠ gone := fun same => free (same ▸ by decide)
  simp only [headErrors, recordedDigest, present_removed digest, read_removed archive digest]

theorem declaredErrors_removed {file : Text × Raw} (other : file.1 ≠ gone) :
    declaredErrors lib (removed archive gone) file = declaredErrors lib archive file := by
  simp only [declaredErrors, present_removed other, read_removed archive other]

theorem Passed.removed {explicitKey : Option ByteArray} {trust : Trust} {expected : Option Text}
    {bytes : ByteArray} {manifest : Raw} {files : Dict} {embedded : List Raw}
    (passed : Passed lib archive explicitKey trust expected bytes manifest files embedded)
    (free : gone ∉ fixedNames) (undeclared : gone ∉ files.map Prod.fst) :
    Passed lib (removed archive gone) explicitKey trust expected bytes manifest files embedded where
  head := (headErrors_removed free expected manifest bytes).trans passed.head
  reportFiles := passed.reportFiles
  embeddedIds := passed.embeddedIds
  expectedNames name mem := passed.expectedNames name (mem_names_removed.mp mem).1
  declared file mem := by
    have other : file.1 ≠ gone := fun same => undeclared (same ▸ List.mem_map_of_mem mem)
    exact (declaredErrors_removed other).trans (passed.declared file mem)
  trusted := (trustErrors_removed free explicitKey trust bytes).trans passed.trusted

end

/-! An accepted package and its evidence. -/

section
variable {lib : Platform} {archive : Archive} {explicitKey : Option ByteArray} {trust : Trust}
  {expected : Option Text} {bytes : ByteArray} {manifest : Raw} {files : Dict} {embedded : List Raw}

theorem Carries.same {bytes' : ByteArray} {manifest' : Raw} (carries : Carries lib archive bytes manifest)
    (other : Carries lib archive bytes' manifest') : bytes = bytes' ∧ manifest = manifest' := by
  obtain rfl := Except.ok.inj (carries.manifestRead.symm.trans other.manifestRead)
  exact ⟨rfl, Except.ok.inj (carries.loaded.symm.trans other.loaded)⟩

theorem Accepted.passed (accepted : Accepted lib (.ok archive) explicitKey trust expected)
    (carries : Carries lib archive bytes manifest) : openErrors archive = [] ∧ ∃ files embedded,
      Passed lib archive explicitKey trust expected bytes manifest files embedded := by
  obtain ⟨archive', same, opened, bytes', manifest', files, embedded, carries', passed⟩ :=
    accepted_iff.mp accepted
  cases same
  obtain ⟨rfl, rfl⟩ := carries.same carries'
  exact ⟨opened, files, embedded, passed⟩

theorem Passed.ids (passed : Passed lib archive explicitKey trust expected bytes manifest files embedded) :
    ReportBinding.embeddedIds lib manifest = embedded.map (strOf lib.printable) := by
  rw [ReportBinding.embeddedIds, passed.embeddedIds]

theorem evidenceName_injective : Function.Injective evidenceName :=
  fun _ _ same => List.append_cancel_left same

theorem Passed.read_declared
    (passed : Passed lib archive explicitKey trust expected bytes manifest files embedded) {name : Text}
    {value : Raw} (mem : (name, value) ∈ files) : ∃ detail data, value = .obj detail ∧
      read archive name = .ok data ∧ member (text "sha256") detail = some (.str (hexDigest lib data)) := by
  have clean := passed.declared (name, value) mem
  unfold declaredErrors at clean
  split at clean
  next => cases clean
  next =>
    split at clean
    next detail form =>
      rw [bind_eq_ok] at clean
      obtain ⟨data, dataRead, clean⟩ := clean
      have clean := Except.ok.inj clean
      rw [List.append_eq_nil_iff, check_eq_nil, isText_iff] at clean
      exact ⟨detail, data, form, dataRead, clean.1⟩
    next => cases clean

theorem Passed.bound
    (passed : Passed lib archive explicitKey trust expected bytes manifest files embedded)
    (declared : Declared lib manifest) : Bound lib archive manifest where
  stored id mem := by
    obtain ⟨files', detail, digest, filesGet, found, digestGet, known⟩ := declared.stored id mem
    have same := filesGet.symm.trans passed.reportFiles
    cases same
    obtain ⟨detail', data, form, dataRead, digestData⟩ := passed.read_declared (mem_of_member found)
    cases form
    have digest_eq : hexDigest lib data = digest := by
      have texts := digestData.symm.trans digestGet
      injection texts with texts
      injection texts
    rw [← digest_eq] at known
    exact ⟨data, dataRead, known⟩
  others id mem := by
    rcases List.mem_append.mp (passed.expectedNames _ mem) with known | listed
    · rcases List.mem_append.mp known with fixed | file
      · have other : evidenceName id ≠ evidenceName id := evidenceName_ne (List.mem_append_right _ fixed)
        exact absurd rfl other
      · exact declared.others files passed.reportFiles id file
    · obtain ⟨value, memValue, same⟩ := List.mem_map.mp listed
      rw [passed.ids, ← evidenceName_injective same]
      exact List.mem_map_of_mem memValue

/-- Where a package is bound and stays so without its undeclared members, the
evidence is declared. -/
theorem Passed.declared_of_bound
    (passed : Passed lib archive explicitKey trust expected bytes manifest files embedded)
    (bound : Bound lib archive manifest)
    (without : ∀ id, evidenceName id ∉ files.map Prod.fst →
      Bound lib (ReportBinding.removed archive (evidenceName id)) manifest) : Declared lib manifest where
  stored id mem := by
    obtain ⟨data, dataRead, known⟩ := bound.stored id mem
    by_cases listed : evidenceName id ∈ files.map Prod.fst
    · obtain ⟨value, found⟩ := exists_member listed
      obtain ⟨detail, data', rfl, dataRead', digest⟩ := passed.read_declared (mem_of_member found)
      cases dataRead.symm.trans dataRead'
      exact ⟨files, detail, _, passed.reportFiles, found, digest, known⟩
    · obtain ⟨gone, goneRead, _⟩ := (without id listed).stored id mem
      exact absurd rfl (mem_names_removed.mp (mem_names_of_read goneRead)).2
  others files' filesGet id mem := by
    have same := filesGet.symm.trans passed.reportFiles
    cases same
    obtain ⟨⟨name, value⟩, memFile, rfl⟩ := List.mem_map.mp mem
    obtain ⟨_, data, _, dataRead, _⟩ := passed.read_declared memFile
    exact bound.others id (mem_names_of_read dataRead)

end

def Covered (lib : Platform) (manifestBytes : ByteArray) (manifest : Raw) : Prop :=
  ∀ archive explicitKey trust expected, Accepted lib (.ok archive) explicitKey trust expected →
    Carries lib archive manifestBytes manifest → Bound lib archive manifest

/-! The packages that `create_report_package` makes. -/

theorem createReportPackage_manifest {lib : Platform} {artifacts : Artifacts} {signer : EvidenceExport.Signer}
    {keyId exportMode : Text} {m : EvidenceManifest} {objects : EvidenceBytes} {manifest : Raw}
    {archive : Archive}
    (created : createReportPackage lib artifacts signer keyId exportMode m objects = .ok (manifest, archive)) :
    ∃ manifestId sha256 verification references, manifest =
      reportManifest lib artifacts keyId exportMode manifestId sha256 (sortedEvidence lib m)
        (reportFiles artifacts verification references) objects.ids := by
  simp only [createReportPackage, bind_eq_ok, pure, Except.pure, Except.ok.injEq, Prod.mk.injEq] at created
  obtain ⟨_, _, _, _, _, _, _, _, verification, _, references, _, bytes, _, manifestId, _, _, _, _, _, _, _,
    same, _⟩ := created
  exact ⟨manifestId, _, verification, references, same.symm⟩

def emptyFile : Raw :=
  .obj [(text "sha256", .str (text "e3b0c44298fc1c149afbf4c8996fb92427ae41e4649b934ca495991b7852b855")),
    (text "size_bytes", .int 0)]

def sampleId : Text := text "01ARZ3NDEKTSV4RRFFQ69G5FAV"

def sampleFiles : Dict :=
  [(text "README-verification.txt", emptyFile), (text "case.json", emptyFile),
    (text "evidence-references.json", emptyFile), (text "report.docx", emptyFile),
    (text "report.pdf", emptyFile), (text "verification-report.json", emptyFile),
    (text "verification-report.txt", emptyFile)]

def sampleManifest : Raw :=
  .obj [(text "embedded_evidence_ids", .arr [.str sampleId]),
    (text "evidence_objects", .arr [.obj [(text "evidence_id", .str sampleId),
      (text "sha256", .str (text "9173a0e9fad8b022a0e69fefde6b33ee687224a794e7bc666748f268f3685f95"))]]),
    (text "manifest_type", .str (text "MIRAGE_CASE_REPORT")), (text "report_files", .obj sampleFiles),
    (text "signing", .obj [(text "algorithm", .str signingAlgorithm)])]

def sampleBytes : ByteArray := (canonicalJsonBytes sampleManifest).getD .empty

def sampleContent : ByteArray := "logon\n".toUTF8

def sampleTable : List (ByteArray × List UInt8) :=
  [(.empty, [227, 176, 196, 66, 152, 252, 28, 20, 154, 251, 244, 200, 153, 111, 185, 36, 39, 174, 65, 228,
      100, 155, 147, 76, 164, 149, 153, 27, 120, 82, 184, 85]),
    (sampleContent, [145, 115, 160, 233, 250, 216, 176, 34, 160, 230, 159, 239, 222, 107, 51, 238, 104,
      114, 36, 167, 148, 231, 188, 102, 103, 72, 242, 104, 243, 104, 95, 149]),
    (sampleBytes, [6, 67, 218, 126, 200, 249, 64, 94, 2, 90, 208, 19, 20, 43, 27, 192, 156, 46, 103, 164,
      37, 244, 94, 92, 233, 66, 134, 26, 249, 212, 117, 173])]

def sampleKey : ByteArray := "-----BEGIN PUBLIC KEY-----".toUTF8

def sampleSignature : ByteArray := "signature".toUTF8

def samplePlatform : Platform :=
  tablePlatform sampleTable fun key digest signature =>
    key = sampleKey && digest = tableHash sampleTable sampleBytes && signature = sampleSignature

def sampleTrust : Trust := ⟨none, none, fun _ => ⟨false, [], none⟩⟩

def sampleMembers : List (Text × ByteArray) :=
  [(text "manifest.json", sampleBytes),
    (text "manifest.sha256",
      "0643da7ec8f9405e025ad013142b1bc09c2e67a425f45e5ce942861af9d475ad\n".toUTF8),
    (text "manifest.sig", sampleSignature), (text "public-key.pem", sampleKey)] ++
    sampleFiles.map fun file => (file.1, .empty)

set_option maxRecDepth 8000 in
theorem sample_written : canonicalJsonBytes sampleManifest = some sampleBytes :=
  JsonLoads.canonicalJsonBytes_getD (by rfl)

set_option maxRecDepth 8000 in
theorem sample_readable : JsonLoads.readable samplePlatform.toInterpreter sampleManifest = true := by
  rfl

set_option maxRecDepth 8000 in
theorem sample_ordered : JsonLoads.ordered sampleManifest = sampleManifest := by rfl

theorem sample_loaded :
    JsonLoads.loads samplePlatform.toInterpreter sampleBytes = .ok sampleManifest := by
  have loaded := JsonLoads.loads_canonical sample_readable sample_written
  rw [loaded]
  exact congrArg Except.ok sample_ordered

theorem samplePlatform_sha256 : samplePlatform.sha256 = tableHash sampleTable := rfl

theorem sample_emptyDigest : hexDigest samplePlatform .empty =
    text "e3b0c44298fc1c149afbf4c8996fb92427ae41e4649b934ca495991b7852b855" := by
  rw [hexDigest, samplePlatform_sha256, sampleTable, tableHash_first, List.toList_data_toByteArray]
  rfl

theorem sample_manifestDigest : hexDigest samplePlatform sampleBytes =
    text "0643da7ec8f9405e025ad013142b1bc09c2e67a425f45e5ce942861af9d475ad" := by
  have content : sampleContent ≠ sampleBytes := JsonLoads.ne_of_head sample_written (by decide)
  have empty : ByteArray.empty ≠ sampleBytes := JsonLoads.ne_of_head sample_written (by decide)
  rw [hexDigest, samplePlatform_sha256, sampleTable, tableHash_rest empty, tableHash_rest content,
    tableHash_first, List.toList_data_toByteArray]
  rfl

def samplePackage (log : Option ByteArray) : Archive :=
  written (sampleMembers ++ log.toList.map fun data => (evidenceName sampleId, data))

section
variable (log : Option ByteArray)

theorem samplePackage_unique :
    ((sampleMembers ++ log.toList.map fun data => (evidenceName sampleId, data)).map Prod.fst).Nodup := by
  cases log with
  | none => decide
  | some data =>
    have names : (sampleMembers.map Prod.fst ++ [evidenceName sampleId]).Nodup := by decide
    rw [Option.toList_some, List.map_singleton, List.map_append, List.map_singleton]
    exact names

theorem read_samplePackage {name : Text} {data : ByteArray} (mem : (name, data) ∈ sampleMembers) :
    read (samplePackage log) name = .ok data :=
  read_written (samplePackage_unique log) (List.mem_append_left _ mem)

theorem sample_head : headErrors samplePlatform (samplePackage log) none sampleManifest sampleBytes =
    .ok [] := by
  have digest : (text "manifest.sha256",
      "0643da7ec8f9405e025ad013142b1bc09c2e67a425f45e5ce942861af9d475ad\n".toUTF8) ∈ sampleMembers :=
    .tail _ (.head _)
  have digestRead := read_samplePackage log digest
  have recorded : recordedDigest (samplePackage log) = .ok (some
      (text "0643da7ec8f9405e025ad013142b1bc09c2e67a425f45e5ce942861af9d475ad\n")) := by
    rw [recordedDigest, if_pos (mem_names_of_read digestRead), digestRead, ok_bind, decodeUtf8_toUTF8]
    rfl
  have stripped : strip (text "0643da7ec8f9405e025ad013142b1bc09c2e67a425f45e5ce942861af9d475ad\n") =
      text "0643da7ec8f9405e025ad013142b1bc09c2e67a425f45e5ce942861af9d475ad" := by decide
  have kind : dictGet sampleManifest "manifest_type" = .ok (some (.str (text "MIRAGE_CASE_REPORT"))) := rfl
  have signing : dictGet sampleManifest "signing" =
    .ok (some (.obj [(text "algorithm", .str signingAlgorithm)])) := rfl
  have algorithm : dictGet ((some (.obj [(text "algorithm", .str signingAlgorithm)]) : Option Raw).getD
    (.obj [])) "algorithm" = .ok (some (.str signingAlgorithm)) := rfl
  have linked : dictGet sampleManifest "evidence_manifest_sha256" = .ok none := rfl
  rw [headErrors, canonical_eq_ok.mpr sample_written, ok_bind, recorded, ok_bind, kind, ok_bind, signing,
    ok_bind, algorithm, ok_bind, linked, ok_bind, Option.all_some, stripped, sample_manifestDigest]
  simp [check, isText, pure, Except.pure]

theorem sample_declared (file : Text × Raw) (mem : file ∈ sampleFiles) :
    declaredErrors samplePlatform (samplePackage log) file = .ok [] := by
  have empty : ∀ file ∈ sampleFiles, file.2 = emptyFile := by
    simp only [sampleFiles, List.forall_mem_cons]
    simp
  have fileRead : read (samplePackage log) file.1 = .ok .empty :=
    read_samplePackage log (List.mem_append_right _ (List.mem_map_of_mem mem))
  have digest : member (text "sha256") [(text "sha256",
      .str (text "e3b0c44298fc1c149afbf4c8996fb92427ae41e4649b934ca495991b7852b855")),
      (text "size_bytes", .int 0)] =
      some (.str (text "e3b0c44298fc1c149afbf4c8996fb92427ae41e4649b934ca495991b7852b855")) := rfl
  have size : member (text "size_bytes") [(text "sha256",
      .str (text "e3b0c44298fc1c149afbf4c8996fb92427ae41e4649b934ca495991b7852b855")),
      (text "size_bytes", .int 0)] = some (.int 0) := rfl
  rw [declaredErrors, if_neg (not_not_intro (mem_names_of_read fileRead)), empty file mem, emptyFile]
  simp only [fileRead, ok_bind, digest, size, sample_emptyDigest]
  simp [check, isText, pure, Except.pure, equals_int]

theorem sample_trusted : trustErrors samplePlatform (samplePackage log) (some sampleKey) sampleTrust
    sampleBytes = .ok [] := by
  have key : (text "public-key.pem", sampleKey) ∈ sampleMembers := .tail _ (.tail _ (.tail _ (.head _)))
  have signature : (text "manifest.sig", sampleSignature) ∈ sampleMembers := .tail _ (.tail _ (.head _))
  have keyRead := read_samplePackage log key
  have signatureRead := read_samplePackage log signature
  have verified : EvidenceExport.verifySignature samplePlatform sampleKey
      (samplePlatform.sha256 sampleBytes) sampleSignature = .ok () := by
    rw [samplePlatform, ExportSoundness.verifySignature_table]
    simp [tablePlatform]
  have clean : EvidenceExport.signatureErrors samplePlatform (samplePackage log) sampleBytes
      (some sampleKey) = [] := by
    rw [ExportSoundness.signatureErrors_eq_nil, signatureRead, ok_bind, verified]
  have present : readIfPresent (samplePackage log) (text "public-key.pem") = .ok (some sampleKey) := by
    rw [readIfPresent, if_pos (mem_names_of_read keyRead), keyRead]
    rfl
  rw [trustErrors, present, ok_bind, if_neg (not_not_intro (mem_names_of_read signatureRead))]
  simp only [resolveTrustedKey, ok_bind, clean, List.append_nil]
  rfl

theorem sample_carries : Carries samplePlatform (samplePackage log) sampleBytes sampleManifest :=
  ⟨read_samplePackage log (.head _), sample_loaded⟩

theorem sample_accepted :
    Accepted samplePlatform (.ok (samplePackage log)) (some sampleKey) sampleTrust none := by
  have unique := samplePackage_unique log
  have fixed : ∀ name ∈ required, name ∈ sampleMembers.map Prod.fst := by decide
  have expected : ∀ name ∈ sampleMembers.map Prod.fst, name ∈ frame ++ sampleFiles.map Prod.fst := by decide
  have listed : names (samplePackage log) =
      sampleMembers.map Prod.fst ++ log.toList.map fun _ => evidenceName sampleId := by
    rw [samplePackage, names_written, List.map_append, List.map_map]
    rfl
  have opened : openErrors (samplePackage log) = [] := by
    rw [openErrors, List.append_eq_nil_iff, check_eq_nil, each_eq_nil, without_eq_nil, decide_eq_true_eq,
      listed]
    refine ⟨?_, fun name mem => List.mem_append_left _ (fixed name mem)⟩
    rw [← listed, samplePackage, names_written]
    exact unique
  refine accepted_iff.mpr ⟨_, rfl, opened, sampleBytes, sampleManifest, sampleFiles, [.str sampleId],
    sample_carries log, sample_head log, rfl, rfl, ?_, sample_declared log, sample_trusted log⟩
  intro name mem
  rw [listed] at mem
  rcases List.mem_append.mp mem with fixed | evidence
  · exact List.mem_append_left _ (expected name fixed)
  · obtain ⟨_, _, rfl⟩ := List.mem_map.mp evidence
    exact List.mem_append_right _ List.mem_cons_self

end

/-- Every accepted package with the manifest has its evidence exactly if the
manifest declares the evidence among the report files. -/
theorem evidence_bound_iff (lib : Platform) (archive : Archive) (explicitKey : Option ByteArray)
    (trust : Trust) (expected : Option Text) (manifestBytes : ByteArray) (manifest : Raw)
    (accepted : Accepted lib (.ok archive) explicitKey trust expected)
    (carries : Carries lib archive manifestBytes manifest) :
    Covered lib manifestBytes manifest ↔ Declared lib manifest := by
  obtain ⟨opened, files, embedded, passed⟩ := accepted.passed carries
  constructor
  · intro covered
    refine passed.declared_of_bound (covered archive explicitKey trust expected accepted carries) ?_
    intro id undeclared
    have free : evidenceName id ∉ fixedNames := fun mem => evidenceName_ne mem rfl
    have json : text "manifest.json" ≠ evidenceName id := evidenceName_ne (by decide)
    have carries' : Carries lib (removed archive (evidenceName id)) manifestBytes manifest :=
      ⟨(read_removed archive json).trans carries.manifestRead, carries.loaded⟩
    exact covered _ explicitKey trust expected (accepted_iff.mpr ⟨_, rfl, openErrors_removed free opened,
      manifestBytes, manifest, files, embedded, carries', passed.removed free undeclared⟩) carries'
  · intro declared archive' explicitKey' trust' expected' accepted' carries'
    obtain ⟨_, _, _, passed'⟩ := accepted'.passed carries'
    exact passed'.bound declared

/-- The sample manifest does not declare its log among the report files. -/
theorem sample_uncovered : ¬ Covered samplePlatform sampleBytes sampleManifest := by
  intro covered
  have declared := (evidence_bound_iff samplePlatform (samplePackage (some sampleContent)) (some sampleKey)
    sampleTrust none sampleBytes sampleManifest (sample_accepted _) (sample_carries _)).mp covered
  obtain ⟨files, detail, digest, filesGet, found, _⟩ := declared.stored sampleId List.mem_cons_self
  have same : files = sampleFiles := by
    have filesGet : some (Raw.obj sampleFiles) = some (Raw.obj files) := filesGet
    injection filesGet with filesGet
    injection filesGet with filesGet
    exact filesGet.symm
  rw [same] at found
  have listed : evidenceName sampleId ∈ sampleFiles.map Prod.fst :=
    List.mem_map_of_mem (mem_of_member found)
  exact absurd listed (by decide)

/-- The sample package is accepted without its log, and with another log in its place. -/
theorem log_unprotected :
    (Accepted samplePlatform (.ok (samplePackage none)) (some sampleKey) sampleTrust none ∧
      ¬ Bound samplePlatform (samplePackage none) sampleManifest) ∧
    Accepted samplePlatform (.ok (samplePackage (some .empty))) (some sampleKey) sampleTrust none ∧
      ¬ Bound samplePlatform (samplePackage (some .empty)) sampleManifest := by
  refine ⟨⟨sample_accepted none, fun bound => ?_⟩, sample_accepted _, fun bound => ?_⟩
  · obtain ⟨data, dataRead, _⟩ := bound.stored sampleId List.mem_cons_self
    have mem := mem_names_of_read dataRead
    rw [samplePackage, names_written] at mem
    exact absurd mem (by decide)
  · obtain ⟨data, dataRead, _, known⟩ := bound.stored sampleId List.mem_cons_self
    have emptyRead : read (samplePackage (some .empty)) (evidenceName sampleId) = .ok .empty :=
      read_written (samplePackage_unique _) (List.mem_append_right _ List.mem_cons_self)
    cases dataRead.symm.trans emptyRead
    have digest := known (some (.str
      (text "9173a0e9fad8b022a0e69fefde6b33ee687224a794e7bc666748f268f3685f95"))) List.mem_cons_self
    rw [sample_emptyDigest] at digest
    injection digest with digest
    injection digest with digest
    exact absurd digest (by decide)

end Mirage.ReportBinding
