import Mirage.ReleasePackage
import Mirage.ExportRoundTrip
import Mathlib.Data.Nat.Digits.Defs

/-! What an accepted release is, and that a release which `build_release` wrote is
accepted under the key of its signer. -/

namespace Mirage.ReleaseSoundness
open PythonText Raw RowLocks SignedPackage ReleasePackage OrderedJson
open EvidenceExport (Dict)
open ExportSoundness (dictGet_eq_get? dictGet_of_get?)
open ExportRoundTrip (Serialisable serialisable_obj serialisable_text Writable writable_text writeZipBytes_eq)

def Accepted (lib : Platform) (package : Package) (publicKey : Option (Except Raised ByteArray))
    (trust : Trust) : Prop :=
  ∃ answer, verifyRelease lib package publicKey trust = .ok answer ∧ answer.valid = true

structure Signed (lib : Platform) (archive : Archive) (publicKey : Option (Except Raised ByteArray))
    (trust : Trust) (manifestBytes : ByteArray) (embedded explicitKey : Option ByteArray)
    (resolution : TrustResolution) (key : ByteArray) : Prop where
  carried : readIfPresent archive releaseKeyName = .ok embedded
  given : readKey publicKey = .ok explicitKey
  resolved : resolveTrustedKey lib explicitKey trust embedded = .ok resolution
  found : resolution.keyBytes = some key
  verified : ∃ loaded, lib.loadPemPublicKey key = .ok loaded ∧ lib.isRsa loaded = true ∧
    (read archive releaseSignatureName >>= lib.verifyPss loaded (lib.sha256 manifestBytes)) = .ok ()

structure Passed (lib : Platform) (archive : Archive) (publicKey : Option (Except Raised ByteArray))
    (trust : Trust) (manifestBytes : ByteArray) (manifest : Raw) (files : Dict) : Prop where
  unique : (names archive).Nodup
  signature : releaseSignatureName ∈ names archive
  manifestRead : read archive releaseManifestName = .ok manifestBytes
  loaded : JsonLoads.loads lib.toInterpreter manifestBytes = .ok manifest
  written : canonicalJsonBytes manifest = some manifestBytes
  version : manifest.get? "manifest_version" = some (.str releaseManifestVersion)
  declared : manifest.get? "files" = some (.obj files)
  expected : ∀ name ∈ names archive,
    name ∈ releaseManifestName :: releaseSignatureName :: files.map Prod.fst
  stored : ∀ file ∈ files, Stored lib archive file
  signed : ∃ embedded explicitKey resolution key,
    Signed lib archive publicKey trust manifestBytes embedded explicitKey resolution key

/-! Each group of checks without an error. -/

theorem filesOr_eq_nil {message : String} {found : Option Raw} {files : Dict} :
    filesOr message found = ([], files) ↔ found = some (.obj files) := by
  unfold filesOr
  split <;> simp_all

theorem collect_fileErrors {lib : Platform} {archive : Archive} {files : Dict} :
    collect (fileErrors lib archive) (JsonLoads.sortKeys files) = .ok [] ↔
      ∀ file ∈ files, Stored lib archive file := by
  simp only [collect_eq_nil, fileErrors_eq_nil, mem_sortKeys]

theorem releaseOpenErrors_eq_nil {archive : Archive} : releaseOpenErrors archive = [] ↔
    (names archive).Nodup ∧ releaseManifestName ∈ names archive ∧ releaseSignatureName ∈ names archive := by
  rw [releaseOpenErrors, List.append_eq_nil_iff, check_eq_nil, each_eq_nil, without_eq_nil,
    decide_eq_true_eq, List.forall_mem_cons, List.forall_mem_singleton]

theorem releaseSignatureErrors_eq_nil {lib : Platform} {archive : Archive} {bytes : ByteArray}
    {resolution : TrustResolution} : releaseSignatureErrors lib archive bytes resolution = .ok [] ↔
      releaseSignatureName ∈ names archive ∧ ∃ key, resolution.keyBytes = some key ∧
        ∃ loaded, lib.loadPemPublicKey key = .ok loaded ∧ lib.isRsa loaded = true ∧
          (read archive releaseSignatureName >>= lib.verifyPss loaded (lib.sha256 bytes)) = .ok () := by
  rw [releaseSignatureErrors]
  split
  next present =>
    simp only [resolvedErrors_eq_nil, rsaErrors_eq_nil, present, true_and]
  next absent =>
    simp [absent]

theorem releaseErrors_eq_nil {lib : Platform} {archive : Archive}
    {publicKey : Option (Except Raised ByteArray)} {trust : Trust} {bytes : ByteArray} {manifest : Raw}
    (opened : releaseOpenErrors archive = []) (manifestRead : read archive releaseManifestName = .ok bytes)
    (loaded : JsonLoads.loads lib.toInterpreter bytes = .ok manifest) :
    releaseErrors lib archive publicKey trust bytes manifest = .ok [] ↔
      ∃ files, Passed lib archive publicKey trust bytes manifest files := by
  rw [releaseOpenErrors_eq_nil] at opened
  obtain ⟨unique, _, signature⟩ := opened
  constructor
  · intro clean
    rw [releaseErrors, bind_eq_ok] at clean
    obtain ⟨written, canonical, clean⟩ := clean
    rw [bind_eq_ok] at clean
    obtain ⟨version, versionGet, clean⟩ := clean
    rw [bind_eq_ok] at clean
    obtain ⟨found, filesGet, clean⟩ := clean
    cases form : filesOr "files manifest is invalid" found with
    | mk kindErrors files =>
      rw [form] at clean
      simp only at clean
      rw [bind_eq_ok] at clean
      obtain ⟨fileErrors, filesOk, clean⟩ := clean
      rw [bind_eq_ok] at clean
      obtain ⟨embedded, carried, clean⟩ := clean
      rw [bind_eq_ok] at clean
      obtain ⟨explicitKey, given, clean⟩ := clean
      rw [bind_eq_ok] at clean
      obtain ⟨resolution, resolved, clean⟩ := clean
      rw [bind_eq_ok] at clean
      obtain ⟨signatureErrors, signatureOk, clean⟩ := clean
      have clean := Except.ok.inj clean
      simp only [List.append_eq_nil_iff, check_eq_nil, decide_eq_true_eq, isText_iff, each_eq_nil,
        without_eq_nil] at clean
      obtain ⟨⟨⟨⟨⟨⟨rfl, rfl⟩, rfl⟩, expected⟩, rfl⟩, _⟩, rfl⟩ := clean
      obtain ⟨_, key, foundKey, verified⟩ := releaseSignatureErrors_eq_nil.mp signatureOk
      exact ⟨files, unique, signature, manifestRead, loaded, canonical_eq_ok.mp canonical,
        dictGet_eq_get? versionGet, (dictGet_eq_get? filesGet).trans (filesOr_eq_nil.mp form), expected,
        collect_fileErrors.mp filesOk, embedded, explicitKey, resolution, key,
        ⟨carried, given, resolved, foundKey, verified⟩⟩
  · rintro ⟨files, passed⟩
    obtain ⟨embedded, explicitKey, resolution, key, signed⟩ := passed.signed
    have files_ok := collect_fileErrors.mpr passed.stored
    have expected : each "unexpected file: " (without (names archive)
        (releaseManifestName :: releaseSignatureName :: files.map Prod.fst)) = [] :=
      each_eq_nil.mpr (without_eq_nil.mpr passed.expected)
    have errors : resolution.errors = [] := (resolveTrustedKey_sound signed.resolved signed.found).2.2
    have signature_ok : releaseSignatureErrors lib archive bytes resolution = .ok [] :=
      releaseSignatureErrors_eq_nil.mpr ⟨signature, key, signed.found, signed.verified⟩
    rw [releaseErrors, canonical_eq_ok.mpr passed.written, ok_bind, dictGet_of_get? passed.version, ok_bind,
      dictGet_of_get? passed.version, ok_bind, passed.declared, filesOr_eq_nil.mpr rfl]
    simp only
    rw [files_ok, ok_bind, signed.carried, ok_bind, signed.given, ok_bind, signed.resolved, ok_bind,
      signature_ok, ok_bind, passed.version, expected, errors, isText_iff.mpr rfl]
    simp [check, pure, Except.pure]

theorem accepted_iff {lib : Platform} {package : Package} {publicKey : Option (Except Raised ByteArray)}
    {trust : Trust} : Accepted lib package publicKey trust ↔ ∃ archive bytes manifest files,
      package = .ok archive ∧ Passed lib archive publicKey trust bytes manifest files := by
  constructor
  · rintro ⟨answer, verified, valid⟩
    rw [verifyRelease, bind_eq_ok] at verified
    obtain ⟨archive, rfl, verified⟩ := verified
    split at verified
    next =>
      cases verified
      cases valid
    next =>
      rw [bind_eq_ok] at verified
      obtain ⟨bytes, manifestRead, verified⟩ := verified
      rw [bind_eq_ok] at verified
      obtain ⟨manifest, loaded, verified⟩ := verified
      rw [bind_eq_ok] at verified
      obtain ⟨errors, errorsOk, verified⟩ := verified
      cases verified
      have clean := List.isEmpty_iff.mp valid
      rw [List.append_eq_nil_iff] at clean
      obtain ⟨opened, rfl⟩ := clean
      obtain ⟨files, passed⟩ := (releaseErrors_eq_nil opened manifestRead loaded).mp errorsOk
      exact ⟨archive, bytes, manifest, files, rfl, passed⟩
  · rintro ⟨archive, bytes, manifest, files, rfl, passed⟩
    have present := mem_names_of_read passed.manifestRead
    have opened := releaseOpenErrors_eq_nil.mpr ⟨passed.unique, present, passed.signature⟩
    have clean := (releaseErrors_eq_nil opened passed.manifestRead passed.loaded).mpr ⟨files, passed⟩
    refine ⟨verdict [], ?_, rfl⟩
    rw [verifyRelease, ok_bind, if_neg (not_not_intro present), passed.manifestRead, ok_bind, passed.loaded,
      ok_bind, clean, ok_bind, opened]
    rfl

/-- The key that the caller names, or a key of the trust store that is not
revoked and that the archive carries as well. -/
inductive Signer (lib : Platform) (archive : Archive) (publicKey : Option (Except Raised ByteArray))
    (trust : Trust) (key : ByteArray) : Prop where
  | explicit (given : publicKey = some (.ok key))
  | stored (none : publicKey = none) (keys : List ByteArray) (revoked : List Text)
    (loaded : loadTrustStore (trust.store (resolveTrustStoreDir trust)) = .ok keys)
    (listed : loadRevoked lib (trust.store (resolveTrustStoreDir trust)) = .ok revoked)
    (mem : key ∈ keys) (valid : fingerprint lib key ∉ revoked)
    (carried : read archive releaseKeyName = .ok key)

structure Sound (lib : Platform) (signedBy : ByteArray → ByteArray → Prop) (archive : Archive)
    (publicKey : Option (Except Raised ByteArray)) (trust : Trust) (manifestBytes : ByteArray)
    (manifest : Raw) (files : Dict) : Prop where
  manifestRead : read archive releaseManifestName = .ok manifestBytes
  loaded : JsonLoads.loads lib.toInterpreter manifestBytes = .ok manifest
  written : canonicalJsonBytes manifest = some manifestBytes
  version : manifest.get? "manifest_version" = some (.str releaseManifestVersion)
  declared : manifest.get? "files" = some (.obj files)
  unique : (names archive).Nodup
  members : ∀ name, name ≠ releaseManifestName → name ≠ releaseSignatureName →
    (name ∈ names archive ↔ name ∈ files.map Prod.fst)
  stored : ∀ file ∈ files, Stored lib archive file
  signer : ∃ key, Signer lib archive publicKey trust key ∧ signedBy key manifestBytes

section
variable {lib : Platform} {archive : Archive} {publicKey : Option (Except Raised ByteArray)}
  {trust : Trust} {manifestBytes : ByteArray} {manifest : Raw} {files : Dict}

theorem mem_of_stored {file : Text × Raw} (stored : Stored lib archive file) : file.1 ∈ names archive := by
  obtain ⟨_, _, _, _, dataRead, _⟩ := stored
  exact mem_names_of_read dataRead

theorem Signed.signer (injective : Function.Injective lib.sha256) {embedded explicitKey : Option ByteArray}
    {resolution : TrustResolution} {key : ByteArray}
    (signed : Signed lib archive publicKey trust manifestBytes embedded explicitKey resolution key) :
    Signer lib archive publicKey trust key := by
  have trusted := (resolveTrustedKey_sound signed.resolved signed.found).1
  have given := signed.given
  cases trusted with
  | explicit named =>
    rw [named] at given
    cases publicKey with
    | none => cases given
    | some file =>
      cases file with
      | error exc => cases given
      | ok key' =>
        have same : key' = key := by simpa [readKey, Except.map] using given
        exact .explicit (by rw [same])
  | stored none keys revoked carried loaded listed named mem same valid =>
    rw [none] at given
    cases publicKey with
    | none =>
      have equal : key = carried := hexDigest_injective injective same
      have present := signed.carried
      rw [named, readIfPresent] at present
      split at present
      next =>
        have found : read archive releaseKeyName = .ok carried := by
          cases content : read archive releaseKeyName with
          | error exc =>
            rw [content] at present
            cases present
          | ok data =>
            rw [content] at present
            have same : data = carried := by simpa [Except.map] using present
            rw [same]
        exact .stored rfl keys revoked loaded listed mem valid (by rw [found, equal])
      next => cases present
    | some file => cases file <;> cases given

theorem Passed.sound {signedBy : ByteArray → ByteArray → Prop} (injective : Function.Injective lib.sha256)
    (correct : ExportSoundness.Correct lib signedBy)
    (passed : Passed lib archive publicKey trust manifestBytes manifest files) :
    Sound lib signedBy archive publicKey trust manifestBytes manifest files := by
  obtain ⟨embedded, explicitKey, resolution, key, signed⟩ := passed.signed
  obtain ⟨loaded, keyLoaded, rsa, verified⟩ := signed.verified
  rw [bind_eq_ok] at verified
  obtain ⟨signature, _, verified⟩ := verified
  have checked : EvidenceExport.verifySignature lib key (lib.sha256 manifestBytes) signature = .ok () := by
    rw [EvidenceExport.verifySignature, keyLoaded, ok_bind, rsa]
    exact verified
  obtain ⟨message, byHolder, same⟩ := correct key _ signature checked
  have bySigner : signedBy key manifestBytes := injective same ▸ byHolder
  refine ⟨passed.manifestRead, passed.loaded, passed.written, passed.version, passed.declared,
    passed.unique, fun name notManifest notSignature => ⟨fun mem => ?_, fun mem => ?_⟩, passed.stored,
    key, signed.signer injective, bySigner⟩
  · have expected := passed.expected name mem
    rw [List.mem_cons, List.mem_cons] at expected
    exact (expected.resolve_left notManifest).resolve_left notSignature
  · obtain ⟨file, memFile, rfl⟩ := List.mem_map.mp mem
    exact mem_of_stored (passed.stored file memFile)

theorem read_absent {archive : Archive} {name : Text} (absent : name ∉ names archive) :
    read archive name = .error .keyError := by
  have none : (archive.reverse.find? fun m => decide (m.name = name)) = none := by
    rw [List.find?_eq_none]
    intro m mem found
    rw [decide_eq_true_eq] at found
    exact absent (mem_names.mpr ⟨m, List.mem_reverse.mp mem, found⟩)
  rw [SignedPackage.read, none]

theorem Sound.contents {signedBy : ByteArray → ByteArray → Prop} (injective : Function.Injective lib.sha256)
    {archive' : Archive} {publicKey' : Option (Except Raised ByteArray)} {trust' : Trust} {manifest' : Raw}
    {files' : Dict} (sound : Sound lib signedBy archive publicKey trust manifestBytes manifest files)
    (sound' : Sound lib signedBy archive' publicKey' trust' manifestBytes manifest' files') {name : Text}
    (other : name ≠ releaseSignatureName) : read archive name = read archive' name := by
  by_cases isManifest : name = releaseManifestName
  · rw [isManifest, sound.manifestRead, sound'.manifestRead]
  · have loaded := sound.loaded.symm.trans sound'.loaded
    cases loaded
    have declared := sound.declared.symm.trans sound'.declared
    cases declared
    by_cases listed : name ∈ files.map Prod.fst
    · obtain ⟨file, mem, rfl⟩ := List.mem_map.mp listed
      obtain ⟨detail, data, _, form, dataRead, digest, _⟩ := sound.stored file mem
      obtain ⟨detail', data', _, form', dataRead', digest', _⟩ := sound'.stored file mem
      cases form.symm.trans form'
      have texts := digest.symm.trans digest'
      injection texts with texts
      injection texts with texts
      rw [dataRead, dataRead', hexDigest_injective injective texts]
    · have absent := mt (sound.members name isManifest other).mp listed
      have absent' := mt (sound'.members name isManifest other).mp listed
      rw [read_absent absent, read_absent absent']

end

/-! What `build_release` writes. -/

theorem keys_put (entries : List (Text × ByteArray)) (name : Text) (data : ByteArray) :
    (put entries name data).map Prod.fst =
      if name ∈ entries.map Prod.fst then entries.map Prod.fst else entries.map Prod.fst ++ [name] := by
  induction entries with
  | nil => simp [put]
  | cons entry rest ih =>
    obtain ⟨other, old⟩ := entry
    by_cases same : other = name
    · simp [put, same]
    · have different : name ≠ other := Ne.symm same
      rw [put, if_neg same, List.map_cons, ih, List.map_cons]
      by_cases listed : name ∈ rest.map Prod.fst
      · rw [if_pos listed, if_pos (List.mem_cons_of_mem _ listed)]
      · have absent : name ∉ other :: rest.map Prod.fst := by
          rw [List.mem_cons, not_or]
          exact ⟨different, listed⟩
        rw [if_neg listed, if_neg absent]
        rfl

structure Named (allowed : List Text) (entries : List (Text × ByteArray)) : Prop where
  unique : (entries.map Prod.fst).Nodup
  known : ∀ name ∈ entries.map Prod.fst, name ∈ allowed

theorem Named.put {allowed : List Text} {entries : List (Text × ByteArray)} (named : Named allowed entries)
    {name : Text} (mem : name ∈ allowed) (data : ByteArray) :
    Named allowed (ReleasePackage.put entries name data) := by
  constructor
  · rw [keys_put]
    split
    next => exact named.unique
    next absent =>
      rw [List.nodup_append]
      refine ⟨named.unique, List.nodup_singleton _, ?_⟩
      rintro a memA b memB rfl
      rw [List.mem_singleton.mp memB] at memA
      exact absent memA
  · intro other memOther
    rw [keys_put] at memOther
    split at memOther
    next => exact named.known other memOther
    next =>
      rcases List.mem_append.mp memOther with old | new
      · exact named.known other old
      · rw [List.mem_singleton.mp new]
        exact mem

theorem Named.mono {allowed more : List Text} {entries : List (Text × ByteArray)}
    (named : Named allowed entries) (sub : allowed ⊆ more) : Named more entries :=
  ⟨named.unique, fun name mem => sub (named.known name mem)⟩

theorem Named.putOptional {allowed : List Text} {entries : List (Text × ByteArray)}
    (named : Named allowed entries) {name : String} (mem : text name ∈ allowed) (data : Option ByteArray) :
    Named allowed (ReleasePackage.putOptional entries name data) := by
  cases data with
  | none => exact named
  | some data => exact named.put mem data

theorem relativeEntries_keys {r : ReleaseInput} {files : List String} {entries : List (Text × ByteArray)}
    (built : relativeEntries r files = .ok entries) : entries.map Prod.fst = files.map text := by
  induction files generalizing entries with
  | nil =>
    cases built
    rfl
  | cons file rest ih =>
    rw [relativeEntries, bind_eq_ok] at built
    obtain ⟨data, _, built⟩ := built
    rw [bind_eq_ok] at built
    obtain ⟨more, moreOk, built⟩ := built
    cases built
    rw [List.map_cons, ih moreOk, List.map_cons]

def generatedNames : List String :=
  ["packages/MirageEndpoint.msi", "packages/MirageSandbox.msi", "manifests/contracts.json",
    "manifests/migrations.json", "sbom/mirage-source.cdx.json", "container-image-digests.json",
    "public-keys/release-signing.pem", "RELEASE-NOTES.md", "UPGRADE.md", "ROLLBACK.md",
    "KNOWN-LIMITATIONS.md"]

def wheelPath (r : ReleaseInput) : Text := text "packages/" ++ r.wheelName

def entryNames (r : ReleaseInput) : List Text :=
  wheelPath r :: (relativeFiles ++ generatedNames).map text

theorem releaseEntries_named {r : ReleaseInput} {key : SigningKey} {entries : List (Text × ByteArray)}
    (built : releaseEntries r key = .ok entries) : Named (entryNames r) entries := by
  have generated : ∀ name ∈ generatedNames, text name ∈ entryNames r := fun name mem =>
    List.mem_cons_of_mem _ (List.mem_map_of_mem (List.mem_append_right _ mem))
  rw [releaseEntries, bind_eq_ok] at built
  obtain ⟨relative, relativeOk, built⟩ := built
  rw [bind_eq_ok] at built
  obtain ⟨contracts, _, built⟩ := built
  rw [bind_eq_ok] at built
  obtain ⟨migrations, _, built⟩ := built
  rw [bind_eq_ok] at built
  obtain ⟨components, _, built⟩ := built
  rw [bind_eq_ok] at built
  obtain ⟨digests, _, built⟩ := built
  rw [bind_eq_ok] at built
  obtain ⟨notes, _, built⟩ := built
  cases built
  have keys := relativeEntries_keys relativeOk
  have start : Named (entryNames r) relative := by
    constructor
    · rw [keys]
      have apart : relativeFiles.Nodup := by decide
      exact apart.map text_injective
    · intro name mem
      rw [keys] at mem
      obtain ⟨file, memFile, rfl⟩ := List.mem_map.mp mem
      exact List.mem_cons_of_mem _ (List.mem_map_of_mem (List.mem_append_left _ memFile))
  have wheel := start.put (show wheelPath r ∈ entryNames r from List.mem_cons_self) r.wheel
  have endpoint := wheel.putOptional (generated "packages/MirageEndpoint.msi" (by decide)) r.endpointPackage
  have sandbox := endpoint.putOptional (generated "packages/MirageSandbox.msi" (by decide)) r.sandboxPackage
  have contracts := sandbox.put (generated "manifests/contracts.json" (by decide)) contracts
  have migrations := contracts.put (generated "manifests/migrations.json" (by decide)) migrations
  have components := migrations.put (generated "sbom/mirage-source.cdx.json" (by decide)) components
  have digests := components.put (generated "container-image-digests.json" (by decide)) digests
  have signing := digests.put (generated "public-keys/release-signing.pem" (by decide)) key.publicKeyPem
  have notes := signing.put (generated "RELEASE-NOTES.md" (by decide)) notes
  have upgrade := notes.put (generated "UPGRADE.md" (by decide)) upgradeNotes
  have rollback := upgrade.put (generated "ROLLBACK.md" (by decide)) rollbackNotes
  exact rollback.put (generated "KNOWN-LIMITATIONS.md" (by decide)) knownLimitations

def reservedNames : List String :=
  ["release-manifest.json", "release-manifest.sig", "acceptance-manifest.json", "acceptance-manifest.sig",
    "acceptance-public-key.pem"]

theorem entryNames_proper {r : ReleaseInput} {name : Text} (mem : name ∈ entryNames r) :
    (0 : CodePoint) ∉ name ∧ name ∉ reservedNames.map text := by
  have plain : ∀ s ∈ relativeFiles ++ generatedNames, (0 : CodePoint) ∉ text s := by decide +kernel
  have apart : ∀ s ∈ relativeFiles ++ generatedNames, s ∉ reservedNames := by decide +kernel
  rcases List.mem_cons.mp mem with rfl | listed
  · have packages : ∀ other ∈ reservedNames.map text, (text "packages/").isPrefixOf other = false := by
      decide +kernel
    have starts : (text "packages/").isPrefixOf (wheelPath r) = true :=
      List.isPrefixOf_iff_prefix.mpr (List.prefix_append _ _)
    refine ⟨?_, fun reserved => ?_⟩
    · rw [wheelPath, List.mem_append, not_or]
      exact ⟨by decide, r.wheelName_proper⟩
    · rw [packages _ reserved] at starts
      cases starts
  · obtain ⟨s, memS, rfl⟩ := List.mem_map.mp listed
    refine ⟨plain s memS, fun reserved => ?_⟩
    obtain ⟨other, memOther, same⟩ := List.mem_map.mp reserved
    exact apart s memS (text_injective same ▸ memOther)

theorem encoded_eq_ok {t : Text} {bytes : ByteArray} (written : EvidenceExport.encoded t = .ok bytes) :
    scalar t = true := by
  rw [EvidenceExport.encoded, present_eq_ok] at written
  cases proper : scalar t with
  | true => rfl
  | false =>
    rw [(encodeUtf8_eq_none_iff t).mpr proper] at written
    cases written

theorem writeAll_eq_ok {members : List (Text × ByteArray)} {archive : Archive}
    (proper : ∀ m ∈ members, (0 : CodePoint) ∉ m.1) (written : writeAll members = .ok archive) :
    archive = SignedPackage.written members ∧ ∀ m ∈ members, scalar m.1 = true := by
  induction members generalizing archive with
  | nil =>
    cases written
    exact ⟨rfl, nofun⟩
  | cons m rest ih =>
    obtain ⟨name, data⟩ := m
    rw [List.forall_mem_cons] at proper
    rw [writeAll, bind_eq_ok] at written
    obtain ⟨first, firstOk, written⟩ := written
    rw [bind_eq_ok] at written
    obtain ⟨more, moreOk, written⟩ := written
    cases written
    have scalar_name : scalar name = true := by
      rw [EvidenceExport.writeZipBytes, bind_eq_ok] at firstOk
      obtain ⟨_, encodedName, _⟩ := firstOk
      exact encoded_eq_ok encodedName
    have writable : Writable name := ⟨scalar_name, fun p mem zero => proper.1 (zero ▸ mem)⟩
    rw [writeZipBytes_eq writable, Except.ok.injEq] at firstOk
    obtain ⟨rfl, scalars⟩ := ih proper.2 moreOk
    rw [← firstOk]
    exact ⟨rfl, List.forall_mem_cons.mpr ⟨scalar_name, scalars⟩⟩

def Signs (lib : Platform) (key : SigningKey) : Prop :=
  ∃ loaded, lib.loadPemPublicKey key.publicKeyPem = .ok loaded ∧ lib.isRsa loaded = true ∧
    ∀ message, lib.verifyPss loaded (lib.sha256 message) (key.sign message) = .ok ()

def Sized (archive : Archive) : Prop :=
  ∀ m ∈ archive, ∀ data, m.content = .ok data → data.size < 2 ^ 63

theorem readable_size {lib : Platform} {data : ByteArray} (small : data.size < 2 ^ 63) :
    JsonLoads.readable lib.toInterpreter (.int data.size) = true := by
  have short : (Nat.repr data.size).length ≤ 19 := Nat.repr_length data.size 19 (by omega) (by omega)
  rw [JsonLoads.readable, decide_eq_true_eq, Int.natAbs_natCast]
  have limit : 19 ≤ maxStrDigits := by decide
  omega

theorem readable_fileRecord {lib : Platform} {data : ByteArray} (small : data.size < 2 ^ 63) :
    JsonLoads.readable lib.toInterpreter (fileRecord lib data) = true := by
  refine (readable_obj _).mpr ⟨by simp only [List.map_cons, List.map_nil]; decide, ?_⟩
  simp only [List.forall_mem_cons]
  exact ⟨rfl, readable_size small, fun m mem => absurd mem List.not_mem_nil⟩

theorem readable_fileManifest {lib : Platform} {entries : List (Text × ByteArray)}
    (unique : (entries.map Prod.fst).Nodup) (small : ∀ e ∈ entries, e.2.size < 2 ^ 63) :
    JsonLoads.readable lib.toInterpreter (fileManifest lib entries) = true := by
  have perm := List.perm_insertionSort (fun a b : Text × ByteArray => a.1 ≤ b.1) entries
  refine (readable_obj _).mpr ⟨?_, ?_⟩
  · rw [List.map_map]
    exact (perm.map Prod.fst).nodup_iff.mpr unique
  · rw [List.forall_mem_map]
    exact fun e mem => readable_fileRecord (small e (perm.mem_iff.mp mem))

theorem readable_releaseManifest {lib : Platform} (r : ReleaseInput) {entries : List (Text × ByteArray)}
    (unique : (entries.map Prod.fst).Nodup) (small : ∀ e ∈ entries, e.2.size < 2 ^ 63) :
    JsonLoads.readable lib.toInterpreter (releaseManifest lib r entries) = true := by
  refine (readable_obj _).mpr ⟨by simp only [List.map_cons, List.map_nil]; decide, ?_⟩
  simp only [List.forall_mem_cons]
  exact ⟨rfl, rfl, rfl, rfl, readable_fileManifest unique small, rfl, fun m mem => absurd mem List.not_mem_nil⟩

def readFiles (lib : Platform) (entries : List (Text × ByteArray)) : Dict :=
  JsonLoads.sortKeys (JsonLoads.orderedMembers ((sortEntries entries).map fun e => (e.1, fileRecord lib e.2)))

theorem mem_readFiles {lib : Platform} {entries : List (Text × ByteArray)} {file : Text × Raw} :
    file ∈ readFiles lib entries ↔
      ∃ e ∈ entries, file = (e.1, JsonLoads.ordered (fileRecord lib e.2)) := by
  rw [readFiles, mem_sortKeys, JsonLoads.orderedMembers_eq, List.mem_map]
  constructor
  · rintro ⟨m, mem, rfl⟩
    obtain ⟨e, memE, rfl⟩ := List.mem_map.mp mem
    exact ⟨e, (List.mem_insertionSort _).mp memE, rfl⟩
  · rintro ⟨e, mem, rfl⟩
    exact ⟨_, List.mem_map_of_mem ((List.mem_insertionSort _).mpr mem), rfl⟩

theorem stored_entry {lib : Platform} {archive : Archive} {name : Text} {data : ByteArray}
    (small : data.size < 2 ^ 63) (dataRead : read archive name = .ok data) :
    Stored lib archive (name, JsonLoads.ordered (fileRecord lib data)) := by
  have readable : JsonLoads.readable lib.toInterpreter (fileRecord lib data) = true :=
    readable_fileRecord small
  have digest := get?_ordered readable "sha256"
  have size := get?_ordered readable "size_bytes"
  have same : equals (.int data.size) (.int data.size) = true := by
    rw [equals_int]
    exact decide_eq_true rfl
  exact ⟨_, data, .int data.size, rfl, dataRead, digest, size, same⟩

structure Built (lib : Platform) (r : ReleaseInput) (key : SigningKey) (signed : SignedBytes)
    (archive : Archive) (entries : List (Text × ByteArray)) : Prop where
  named : Named (entryNames r) entries
  manifest : canonicalJsonBytes (releaseManifest lib r entries) = some signed.message
  signature : signed.signature = key.sign signed.message
  written : archive = SignedPackage.written ((releaseManifestName, signed.message) ::
    (releaseSignatureName, signed.signature) :: sortEntries entries)

theorem buildRelease_eq_ok {lib : Platform} {r : ReleaseInput} {key : SigningKey} {signed : SignedBytes}
    {archive : Archive} (built : buildRelease lib r key = .ok (signed, archive)) :
    ∃ entries, Built lib r key signed archive entries := by
  rw [buildRelease, bind_eq_ok] at built
  obtain ⟨_, _, built⟩ := built
  rw [bind_eq_ok] at built
  obtain ⟨_, _, built⟩ := built
  rw [bind_eq_ok] at built
  obtain ⟨entries, entriesOk, built⟩ := built
  rw [bind_eq_ok] at built
  obtain ⟨bytes, bytesOk, built⟩ := built
  rw [bind_eq_ok] at built
  obtain ⟨members, membersOk, built⟩ := built
  cases built
  have named := releaseEntries_named entriesOk
  have proper : ∀ m ∈ (releaseManifestName, bytes) :: (releaseSignatureName, key.sign bytes) ::
      sortEntries entries, (0 : CodePoint) ∉ m.1 := by
    simp only [List.forall_mem_cons]
    refine ⟨by decide, by decide, fun m mem => ?_⟩
    have listed : m ∈ entries := (List.mem_insertionSort _).mp mem
    exact (entryNames_proper (named.known m.1 (List.mem_map_of_mem listed))).1
  exact ⟨entries, named, canonical_eq_ok.mp bytesOk, rfl, (writeAll_eq_ok proper membersOk).1⟩

theorem Built.unique {lib : Platform} {r : ReleaseInput} {key : SigningKey} {signed : SignedBytes}
    {archive : Archive} {entries : List (Text × ByteArray)} (built : Built lib r key signed archive entries) :
    (((releaseManifestName, signed.message) :: (releaseSignatureName, signed.signature) ::
      sortEntries entries).map Prod.fst).Nodup := by
  have perm := (List.perm_insertionSort (fun a b : Text × ByteArray => a.1 ≤ b.1) entries).map Prod.fst
  have proper : ∀ name ∈ (sortEntries entries).map Prod.fst,
      name ≠ releaseManifestName ∧ name ≠ releaseSignatureName := by
    intro name mem
    have free := (entryNames_proper (built.named.known name (perm.mem_iff.mp mem))).2
    refine ⟨fun same => free ?_, fun same => free ?_⟩
    · rw [same]
      exact .head _
    · rw [same]
      exact .tail _ (.head _)
  rw [List.map_cons, List.map_cons, List.nodup_cons, List.nodup_cons]
  refine ⟨fun mem => ?_, fun mem => (proper _ mem).2 rfl, perm.nodup_iff.mpr built.named.unique⟩
  rcases List.mem_cons.mp mem with same | listed
  · have apart : releaseManifestName ≠ releaseSignatureName := by decide
    exact apart same
  · exact (proper _ listed).1 rfl

theorem Built.small {lib : Platform} {r : ReleaseInput} {key : SigningKey} {signed : SignedBytes}
    {archive : Archive} {entries : List (Text × ByteArray)} (built : Built lib r key signed archive entries)
    (sized : Sized archive) : ∀ e ∈ entries, e.2.size < 2 ^ 63 := by
  intro e mem
  have listed : (⟨e.1, .ok e.2⟩ : Member) ∈ archive := by
    rw [built.written]
    exact List.mem_map.mpr ⟨e, .tail _ (.tail _ ((List.mem_insertionSort _).mpr mem)), rfl⟩
  exact sized _ listed e.2 rfl

theorem Built.accepted {lib : Platform} {r : ReleaseInput} {key : SigningKey} {signed : SignedBytes}
    {archive : Archive} {entries : List (Text × ByteArray)} (built : Built lib r key signed archive entries)
    (signs : Signs lib key) (sized : Sized archive) (trust : Trust) :
    Accepted lib (.ok archive) (some (.ok key.publicKeyPem)) trust := by
  obtain ⟨loaded, keyLoaded, rsa, verifies⟩ := signs
  have unique := built.unique
  have found : ∀ {name data}, (name, data) ∈ (releaseManifestName, signed.message) ::
      (releaseSignatureName, signed.signature) :: sortEntries entries → read archive name = .ok data := by
    intro name data mem
    rw [built.written]
    exact read_written unique mem
  have manifestRead : read archive releaseManifestName = .ok signed.message := found List.mem_cons_self
  have signatureRead : read archive releaseSignatureName = .ok signed.signature := found (.tail _ (.head _))
  have small := built.small sized
  have readable : JsonLoads.readable lib.toInterpreter (releaseManifest lib r entries) = true :=
    readable_releaseManifest r built.named.unique small
  have declared : (JsonLoads.ordered (releaseManifest lib r entries)).get? "files" =
      some (.obj (readFiles lib entries)) := by
    rw [get?_ordered readable]
    rfl
  have version : (JsonLoads.ordered (releaseManifest lib r entries)).get? "manifest_version" =
      some (.str releaseManifestVersion) := by
    rw [get?_ordered readable]
    rfl
  have loads : JsonLoads.loads lib.toInterpreter signed.message =
      .ok (JsonLoads.ordered (releaseManifest lib r entries)) :=
    JsonLoads.loads_canonical readable built.manifest
  obtain ⟨embedded, carried⟩ : ∃ embedded, readIfPresent archive releaseKeyName = .ok embedded := by
    rw [built.written]
    exact readIfPresent_written unique releaseKeyName
  refine accepted_iff.mpr ⟨archive, signed.message, _, readFiles lib entries, rfl, ?_,
    mem_names_of_read signatureRead, manifestRead, loads, ?_, version, declared, ?_, ?_, embedded,
    some key.publicKeyPem, _, key.publicKeyPem, carried, rfl, rfl, rfl, loaded, keyLoaded, rsa, ?_⟩
  · rw [built.written, names_written]
    exact unique
  · rw [canonical_ordered, built.manifest]
  · intro name mem
    rw [built.written, names_written, List.map_cons, List.map_cons] at mem
    rcases List.mem_cons.mp mem with rfl | mem
    · exact List.mem_cons_self
    · rcases List.mem_cons.mp mem with rfl | mem
      · exact .tail _ (.head _)
      · obtain ⟨e, memE, rfl⟩ := List.mem_map.mp mem
        have file : (e.1, JsonLoads.ordered (fileRecord lib e.2)) ∈ readFiles lib entries :=
          mem_readFiles.mpr ⟨e, (List.mem_insertionSort _).mp memE, rfl⟩
        have key : e.1 ∈ (readFiles lib entries).map Prod.fst := List.mem_map_of_mem file
        exact .tail _ (.tail _ key)
  · intro file mem
    obtain ⟨e, memE, rfl⟩ := mem_readFiles.mp mem
    exact stored_entry (small e memE) (found (.tail _ (.tail _ ((List.mem_insertionSort _).mpr memE))))
  · rw [signatureRead, ok_bind, built.signature]
    exact verifies signed.message

/-- Accepted releases are sound, those of one manifest have the same contents
but for the signature, and written releases are accepted. -/
theorem release_sound (lib : Platform) (signedBy : ByteArray → ByteArray → Prop)
    (injective : Function.Injective lib.sha256) (correct : ExportSoundness.Correct lib signedBy) :
    (∀ package publicKey trust, Accepted lib package publicKey trust →
      ∃ archive manifestBytes manifest files, package = .ok archive ∧
        Sound lib signedBy archive publicKey trust manifestBytes manifest files) ∧
    (∀ archive archive' publicKey publicKey' trust trust', Accepted lib (.ok archive) publicKey trust →
      Accepted lib (.ok archive') publicKey' trust' →
      read archive releaseManifestName = read archive' releaseManifestName →
      (∀ name, name ∈ names archive ↔ name ∈ names archive') ∧
        ∀ name, name ≠ releaseSignatureName → read archive name = read archive' name) ∧
    ∀ r key signed archive, Signs lib key → buildRelease lib r key = .ok (signed, archive) →
      Sized archive → ∀ trust, Accepted lib (.ok archive) (some (.ok key.publicKeyPem)) trust := by
  refine ⟨fun package publicKey trust accepted => ?_, ?_, ?_⟩
  · obtain ⟨archive, bytes, manifest, files, opened, passed⟩ := accepted_iff.mp accepted
    exact ⟨archive, bytes, manifest, files, opened, passed.sound injective correct⟩
  · intro archive archive' publicKey publicKey' trust trust' accepted accepted' same
    obtain ⟨_, bytes, manifest, files, opened, passed⟩ := accepted_iff.mp accepted
    obtain ⟨_, bytes', manifest', files', opened', passed'⟩ := accepted_iff.mp accepted'
    cases opened
    cases opened'
    rw [passed.manifestRead, passed'.manifestRead, Except.ok.injEq] at same
    subst same
    have sound := passed.sound injective correct
    have sound' := passed'.sound injective correct
    refine ⟨fun name => ?_, fun name => sound.contents injective sound'⟩
    by_cases other : name = releaseSignatureName
    · rw [other]
      exact iff_of_true passed.signature passed'.signature
    · have loaded := sound.loaded.symm.trans sound'.loaded
      cases loaded
      have declared := sound.declared.symm.trans sound'.declared
      cases declared
      by_cases isManifest : name = releaseManifestName
      · rw [isManifest]
        exact iff_of_true (mem_names_of_read passed.manifestRead) (mem_names_of_read passed'.manifestRead)
      · rw [sound.members name isManifest other, sound'.members name isManifest other]
  · intro r key signed archive signs written sized trust
    obtain ⟨entries, built⟩ := buildRelease_eq_ok written
    exact built.accepted signs sized trust

/-! Two manifests without entries: one declares no file, one its own signature. -/

def minimalManifest (files : Dict) : Raw :=
  .obj [(text "files", .obj files), (text "manifest_version", .str releaseManifestVersion)]

def firstSignature : ByteArray := "signature".toUTF8

def secondSignature : ByteArray := "another signature".toUTF8

def signatureFile : Dict :=
  [(releaseSignatureName, .obj [(text "sha256",
      .str (text "1a2fc26dc7ea5a2a4748b7cb2b1ef193d96ab2c99f93092f69e63075b28d1278")),
    (text "size_bytes", .int 9)])]

def emptyBytes : ByteArray := (canonicalJsonBytes (minimalManifest [])).getD .empty

def selfBytes : ByteArray := (canonicalJsonBytes (minimalManifest signatureFile)).getD .empty

def sampleTable : List (ByteArray × List UInt8) :=
  [(firstSignature, [26, 47, 194, 109, 199, 234, 90, 42, 71, 72, 183, 203, 43, 30, 241, 147, 217, 106, 178,
      201, 159, 147, 9, 47, 105, 230, 48, 117, 178, 141, 18, 120]),
    (emptyBytes, [239, 158, 63, 59, 79, 187, 102, 133, 71, 174, 167, 246, 35, 75, 10, 5, 64, 75, 114, 99,
      53, 24, 212, 246, 67, 229, 151, 183, 216, 89, 110, 238]),
    (selfBytes, [207, 236, 213, 128, 139, 27, 37, 141, 125, 156, 18, 187, 176, 120, 55, 11, 6, 243, 48, 1,
      112, 194, 208, 69, 103, 110, 39, 161, 31, 220, 86, 101])]

def sampleKey : ByteArray := "-----BEGIN PUBLIC KEY-----".toUTF8

def sampleSignedBy (key message : ByteArray) : Prop :=
  key = sampleKey ∧ (message = emptyBytes ∨ message = selfBytes)

def samplePlatform : Platform :=
  tablePlatform sampleTable fun key digest signature =>
    key = sampleKey && (digest = tableHash sampleTable emptyBytes || digest = tableHash sampleTable selfBytes) &&
      (signature = firstSignature || signature = secondSignature)

def sampleTrust : Trust := ⟨none, none, fun _ => ⟨false, [], none⟩⟩

theorem samplePlatform_injective : Function.Injective samplePlatform.sha256 := by
  refine tableHash_injective ?_ ?_
  · rw [sampleTable, List.map_cons, List.map_cons, List.map_cons, List.map_nil]
    decide
  · intro row mem
    simp only [sampleTable, List.mem_cons, List.not_mem_nil, or_false] at mem
    rcases mem with rfl | rfl | rfl
    all_goals rfl

theorem samplePlatform_sha256 : samplePlatform.sha256 = tableHash sampleTable := rfl

theorem sample_verify {key digest signature : ByteArray} :
    samplePlatform.verifyPss key digest signature = .ok () ↔ key = sampleKey ∧
      (digest = tableHash sampleTable emptyBytes ∨ digest = tableHash sampleTable selfBytes) ∧
      (signature = firstSignature ∨ signature = secondSignature) := by
  change (tablePlatform sampleTable _).verifyPss key digest signature = .ok () ↔ _
  rw [tablePlatform_verify, Bool.and_eq_true, Bool.and_eq_true, Bool.or_eq_true,
    Bool.or_eq_true, decide_eq_true_eq, decide_eq_true_eq, decide_eq_true_eq, decide_eq_true_eq,
    decide_eq_true_eq, and_assoc]

theorem samplePlatform_correct : ExportSoundness.Correct samplePlatform sampleSignedBy := by
  intro key digest signature verified
  obtain ⟨byKey, same, _⟩ := sample_verify.mp verified
  rw [samplePlatform_sha256]
  rcases same with same | same
  · exact ⟨emptyBytes, ⟨byKey, .inl (Eq.refl emptyBytes)⟩, same.symm⟩
  · exact ⟨selfBytes, ⟨byKey, .inr (Eq.refl selfBytes)⟩, same.symm⟩

def minimalMembers (bytes signature : ByteArray) : List (Text × ByteArray) :=
  [(releaseManifestName, bytes), (releaseSignatureName, signature)]

def minimalRelease (bytes signature : ByteArray) : Archive := written (minimalMembers bytes signature)

theorem minimalMembers_unique (bytes signature : ByteArray) :
    ((minimalMembers bytes signature).map Prod.fst).Nodup := by
  have apart : [releaseManifestName, releaseSignatureName].Nodup := by decide
  exact apart

theorem minimalRelease_signature (bytes signature : ByteArray) :
    read (minimalRelease bytes signature) releaseSignatureName = .ok signature :=
  read_written (minimalMembers_unique bytes signature) (.tail _ (.head _))

theorem minimal_accepted {files : Dict} {bytes signature : ByteArray}
    (canonical : canonicalJsonBytes (minimalManifest files) = some bytes)
    (loaded : JsonLoads.loads samplePlatform.toInterpreter bytes = .ok (minimalManifest files))
    (stored : ∀ file ∈ files, Stored samplePlatform (minimalRelease bytes signature) file)
    (signedBytes : bytes = emptyBytes ∨ bytes = selfBytes)
    (valid : signature = firstSignature ∨ signature = secondSignature) :
    Accepted samplePlatform (.ok (minimalRelease bytes signature)) (some (.ok sampleKey)) sampleTrust := by
  have unique := minimalMembers_unique bytes signature
  have signatureRead := minimalRelease_signature bytes signature
  have manifestRead : read (minimalRelease bytes signature) releaseManifestName = .ok bytes :=
    read_written unique (.head _)
  have listed : names (minimalRelease bytes signature) = [releaseManifestName, releaseSignatureName] := by
    rw [minimalRelease, names_written]
    rfl
  obtain ⟨embedded, carried⟩ : ∃ embedded,
      readIfPresent (minimalRelease bytes signature) releaseKeyName = .ok embedded :=
    readIfPresent_written unique releaseKeyName
  have digest : samplePlatform.sha256 bytes = tableHash sampleTable emptyBytes ∨
      samplePlatform.sha256 bytes = tableHash sampleTable selfBytes := by
    rw [samplePlatform_sha256]
    exact signedBytes.imp (congrArg _) (congrArg _)
  refine accepted_iff.mpr ⟨_, bytes, minimalManifest files, files, rfl, ?_, ?_, manifestRead, loaded, canonical,
    rfl, rfl, ?_, stored, embedded, some sampleKey, _, sampleKey, carried, rfl, rfl, rfl, sampleKey, rfl,
    rfl, ?_⟩
  · rw [listed]
    decide
  · rw [listed]
    exact .tail _ (.head _)
  · intro name mem
    rw [listed, List.mem_cons, List.mem_singleton] at mem
    rcases mem with rfl | rfl
    · exact .head _
    · exact .tail _ (.head _)
  · rw [signatureRead, ok_bind]
    exact sample_verify.mpr ⟨rfl, digest, valid⟩

set_option maxRecDepth 4000 in
theorem empty_written : canonicalJsonBytes (minimalManifest []) = some emptyBytes :=
  JsonLoads.canonicalJsonBytes_getD (by rfl)

set_option maxRecDepth 4000 in
theorem self_written : canonicalJsonBytes (minimalManifest signatureFile) = some selfBytes :=
  JsonLoads.canonicalJsonBytes_getD (by rfl)

set_option maxRecDepth 4000 in
theorem empty_loaded :
    JsonLoads.loads samplePlatform.toInterpreter emptyBytes = .ok (minimalManifest []) :=
  JsonLoads.loads_canonical (by rfl) empty_written

set_option maxRecDepth 4000 in
theorem self_loaded :
    JsonLoads.loads samplePlatform.toInterpreter selfBytes = .ok (minimalManifest signatureFile) :=
  JsonLoads.loads_canonical (by rfl) self_written

theorem empty_accepted {signature : ByteArray}
    (valid : signature = firstSignature ∨ signature = secondSignature) :
    Accepted samplePlatform (.ok (minimalRelease emptyBytes signature)) (some (.ok sampleKey)) sampleTrust :=
  minimal_accepted empty_written empty_loaded nofun (.inl rfl) valid

theorem firstSignature_digest : hexDigest samplePlatform firstSignature =
    text "1a2fc26dc7ea5a2a4748b7cb2b1ef193d96ab2c99f93092f69e63075b28d1278" := by
  have digest : samplePlatform.sha256 firstSignature = tableHash sampleTable firstSignature := rfl
  rw [hexDigest, digest, sampleTable, tableHash_first, List.toList_data_toByteArray]
  rfl

theorem self_accepted : Accepted samplePlatform (.ok (minimalRelease selfBytes firstSignature))
    (some (.ok sampleKey)) sampleTrust := by
  refine minimal_accepted self_written self_loaded ?_ (.inr rfl) (.inl rfl)
  intro file mem
  rw [List.mem_singleton.mp mem]
  have size : equals (.int firstSignature.size) (.int 9) = true := by decide
  refine ⟨_, firstSignature, .int 9, rfl, minimalRelease_signature _ _, ?_, rfl, size⟩
  rw [firstSignature_digest]
  rfl

/-- The sample platform's accepted releases are sound. -/
theorem sample_release_sound : ∃ archive manifestBytes manifest files,
    (.ok (minimalRelease emptyBytes firstSignature) : Package) = .ok archive ∧
      Sound samplePlatform sampleSignedBy archive (some (.ok sampleKey)) sampleTrust manifestBytes manifest
        files :=
  (release_sound samplePlatform sampleSignedBy samplePlatform_injective samplePlatform_correct).1 _ _ _
    (empty_accepted (.inl rfl))

/-- Two accepted releases of one manifest have different signatures, and a
manifest may declare the signature among its files. -/
theorem signature_differs :
    (∃ archive archive', Accepted samplePlatform (.ok archive) (some (.ok sampleKey)) sampleTrust ∧
      Accepted samplePlatform (.ok archive') (some (.ok sampleKey)) sampleTrust ∧
      read archive releaseManifestName = read archive' releaseManifestName ∧
      read archive releaseSignatureName ≠ read archive' releaseSignatureName) ∧
    Accepted samplePlatform (.ok (minimalRelease selfBytes firstSignature)) (some (.ok sampleKey))
        sampleTrust ∧
      JsonLoads.loads samplePlatform.toInterpreter selfBytes = .ok (minimalManifest signatureFile) ∧
      releaseSignatureName ∈ signatureFile.map Prod.fst := by
  refine ⟨⟨minimalRelease emptyBytes firstSignature, minimalRelease emptyBytes secondSignature,
    empty_accepted (.inl rfl), empty_accepted (.inr rfl), ?_, ?_⟩, self_accepted, self_loaded, .head _⟩
  · have first : read (minimalRelease emptyBytes firstSignature) releaseManifestName = .ok emptyBytes :=
      read_written (minimalMembers_unique _ _) (.head _)
    have second : read (minimalRelease emptyBytes secondSignature) releaseManifestName = .ok emptyBytes :=
      read_written (minimalMembers_unique _ _) (.head _)
    rw [first, second]
  · rw [minimalRelease_signature, minimalRelease_signature]
    intro same
    have same := Except.ok.inj same
    exact absurd same (by decide)

end Mirage.ReleaseSoundness
