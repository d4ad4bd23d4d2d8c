import Mirage.AcceptanceSoundness
import Mirage.LoadsReadable

/-! Releases, acceptance packages and install reports are signed with one scheme under one
trust store. -/

namespace Mirage.PackageSeparation
open PythonText Raw RowLocks SignedPackage ReleasePackage OrderedJson LoadsReadable
open EvidenceExport (Dict)
open ReleaseSoundness (Signs Sized Named)
open ExportRoundTrip (Writable writable_text writeZipBytes_eq scalar_hexDigest)

/-! Filling a manifest with contents. -/

def Describes (lib : Platform) (value : Raw) (data : ByteArray) : Prop :=
  ∃ detail size, value = .obj detail ∧ member (text "sha256") detail = some (.str (hexDigest lib data)) ∧
    member (text "size_bytes") detail = some size ∧ equals (.int data.size) size = true

theorem stored_iff {lib : Platform} {archive : Archive} {file : Text × Raw} : Stored lib archive file ↔
    ∃ data, read archive file.1 = .ok data ∧ Describes lib file.2 data := by
  constructor
  · rintro ⟨detail, data, size, form, dataRead, digest, sizeFound, same⟩
    exact ⟨data, dataRead, detail, size, form, digest, sizeFound, same⟩
  · rintro ⟨data, dataRead, detail, size, form, digest, sizeFound, same⟩
    exact ⟨detail, data, size, form, dataRead, digest, sizeFound, same⟩

/-- There are contents for the files of a manifest, where the fixed members have
theirs already. -/
def Fills (lib : Platform) (fixed : List (Text × ByteArray)) (files : Dict) : Prop :=
  ∀ file ∈ files, ∃ data, Describes lib file.2 data ∧ ∀ m ∈ fixed, m.1 = file.1 → m.2 = data

theorem equals_int_ordered (n : Int) (v : Raw) : equals (.int n) (JsonLoads.ordered v) = equals (.int n) v := by
  cases v <;> rfl

theorem describes_ordered {lib : Platform} {v : Raw} {data : ByteArray}
    (known : JsonLoads.readable lib.toInterpreter v = true) :
    Describes lib (JsonLoads.ordered v) data ↔ Describes lib v data := by
  cases v with
  | obj detail =>
    have unique := ((readable_obj _).mp known).1
    simp only [Describes, JsonLoads.ordered, Raw.obj.injEq, exists_and_left, exists_eq_left',
      member_ordered unique]
    constructor
    · rintro ⟨digest, size, sizeFound, same⟩
      rw [Option.map_eq_some_iff] at digest sizeFound
      obtain ⟨v, found, isText⟩ := digest
      obtain ⟨w, foundSize, rfl⟩ := sizeFound
      have text : v = .str (hexDigest lib data) := by
        cases v with
        | str t => exact isText
        | _ => cases isText
      rw [equals_int_ordered] at same
      exact ⟨text ▸ found, w, foundSize, same⟩
    · rintro ⟨digest, size, sizeFound, same⟩
      rw [digest, sizeFound]
      exact ⟨rfl, _, rfl, (equals_int_ordered _ size).trans same⟩
  | _ => exact ⟨nofun, nofun⟩

theorem mem_readBack {files : Dict} {file : Text × Raw} :
    file ∈ JsonLoads.sortKeys (JsonLoads.orderedMembers files) ↔
      ∃ f ∈ files, file = (f.1, JsonLoads.ordered f.2) := by
  rw [(JsonLoads.sortKeys_perm _).mem_iff, JsonLoads.orderedMembers_eq, List.mem_map]
  constructor
  · rintro ⟨f, mem, rfl⟩
    exact ⟨f, mem, rfl⟩
  · rintro ⟨f, mem, rfl⟩
    exact ⟨f, mem, rfl⟩

theorem fills_readBack {lib : Platform} {fixed : List (Text × ByteArray)} {files : Dict}
    (known : JsonLoads.readable lib.toInterpreter (.obj files) = true) :
    Fills lib fixed (JsonLoads.sortKeys (JsonLoads.orderedMembers files)) ↔ Fills lib fixed files := by
  have values := ((readable_obj _).mp known).2
  constructor
  · intro fills f mem
    obtain ⟨data, describes, fixedEq⟩ := fills (f.1, JsonLoads.ordered f.2) (mem_readBack.mpr ⟨f, mem, rfl⟩)
    exact ⟨data, (describes_ordered (values f mem)).mp describes, fixedEq⟩
  · intro fills file mem
    obtain ⟨f, memF, rfl⟩ := mem_readBack.mp mem
    obtain ⟨data, describes, fixedEq⟩ := fills f memF
    exact ⟨data, (describes_ordered (values f memF)).mpr describes, fixedEq⟩

theorem mem_put_self (entries : List (Text × ByteArray)) (name : Text) (data : ByteArray) :
    (name, data) ∈ put entries name data := by
  induction entries with
  | nil => exact List.mem_singleton.mpr rfl
  | cons e rest ih =>
    obtain ⟨other, old⟩ := e
    rw [put]
    split
    next => exact List.mem_cons_self
    next => exact List.mem_cons_of_mem _ ih

theorem mem_put {entries : List (Text × ByteArray)} {name : Text} {data : ByteArray}
    {e : Text × ByteArray} (mem : e ∈ entries) (same : e.1 = name → e.2 = data) :
    e ∈ put entries name data := by
  by_cases here : e.1 = name
  · have equal : e = (name, data) := Prod.ext here (same here)
    rw [equal]
    exact mem_put_self entries name data
  · induction entries with
    | nil => cases mem
    | cons first rest ih =>
      obtain ⟨other, old⟩ := first
      rw [put]
      split
      next overwritten =>
        rcases List.mem_cons.mp mem with rfl | later
        · exact absurd overwritten here
        · exact List.mem_cons_of_mem _ later
      next =>
        rcases List.mem_cons.mp mem with rfl | later
        · exact List.mem_cons_self
        · exact List.mem_cons_of_mem _ (ih later)

def orAbsent (entries : List (Text × ByteArray)) (name : Text) (data : ByteArray) :
    List (Text × ByteArray) :=
  if name ∈ entries.map Prod.fst then entries else put entries name data

theorem orAbsent_named {allowed : List Text} {entries : List (Text × ByteArray)}
    (named : Named allowed entries) {name : Text} (mem : name ∈ allowed) (data : ByteArray) :
    Named allowed (orAbsent entries name data) := by
  rw [orAbsent]
  split
  next => exact named
  next => exact named.put mem data

theorem mem_orAbsent {entries : List (Text × ByteArray)} {e : Text × ByteArray} (mem : e ∈ entries)
    (name : Text) (data : ByteArray) : e ∈ orAbsent entries name data := by
  rw [orAbsent]
  split
  next => exact mem
  next absent => exact mem_put mem fun same => absurd (same ▸ List.mem_map_of_mem mem) absent

theorem orAbsent_present (entries : List (Text × ByteArray)) (name : Text) (data : ByteArray) :
    ∃ found, (name, found) ∈ orAbsent entries name data := by
  rw [orAbsent]
  split
  next present =>
    obtain ⟨e, mem, rfl⟩ := List.mem_map.mp present
    exact ⟨e.2, mem⟩
  next => exact ⟨data, mem_put_self entries name data⟩

structure Contents (lib : Platform) (fixed : List (Text × ByteArray)) (files : Dict)
    (entries : List (Text × ByteArray)) : Prop where
  named : Named (files.map Prod.fst) entries
  described : ∀ file ∈ files, ∃ data, (file.1, data) ∈ entries ∧ Describes lib file.2 data
  agree : ∀ e ∈ entries, ∀ m ∈ fixed, m.1 = e.1 → m.2 = e.2

theorem Fills.contents {lib : Platform} {fixed : List (Text × ByteArray)} {files : Dict}
    (fills : Fills lib fixed files) (unique : (files.map Prod.fst).Nodup) :
    ∃ entries, Contents lib fixed files entries := by
  choose! data describes agree using fills
  have keys : (files.map fun file => (file.1, data file)).map Prod.fst = files.map Prod.fst := by
    rw [List.map_map]
    rfl
  refine ⟨files.map fun file => (file.1, data file), ⟨?_, ?_⟩, ?_, ?_⟩
  · rw [keys]
    exact unique
  · rw [keys]
    exact fun name mem => mem
  · exact fun file mem => ⟨data file, List.mem_map_of_mem mem, describes file mem⟩
  · rintro e mem m memFixed same
    obtain ⟨file, memFile, rfl⟩ := List.mem_map.mp mem
    exact agree file memFile m memFixed same

/-! The bytes of one package in the place of another. -/

structure Carries (archive : Archive) (manifestName signatureName : Text) (signed : SignedBytes) : Prop where
  manifest : read archive manifestName = .ok signed.message
  signature : read archive signatureName = .ok signed.signature

section
variable (lib : Platform) (signed : SignedBytes)

def TakenAsRelease : Prop :=
  ∃ archive publicKey trust, Carries archive releaseManifestName releaseSignatureName signed ∧
    ReleaseSoundness.Accepted lib (.ok archive) publicKey trust

def TakenAsAcceptance : Prop :=
  ∃ archive explicitKey trust,
    Carries archive AcceptancePackage.manifestName AcceptancePackage.signatureName signed ∧
      AcceptanceSoundness.Accepted lib (.ok archive) explicitKey trust

def TakenAsInstallReport : Prop :=
  ∃ archive publicKey trust, Carries archive installReportName installSignatureName signed ∧
    AcceptanceSoundness.InstallAccepted lib (.ok archive) publicKey trust

def acceptanceFixed : List (Text × ByteArray) :=
  [(AcceptancePackage.manifestName, signed.message), (AcceptancePackage.signatureName, signed.signature)]

def releaseFixed : List (Text × ByteArray) :=
  [(releaseManifestName, signed.message), (releaseSignatureName, signed.signature)]

end

def noStore : Trust := ⟨none, none, fun _ => ⟨false, [], none⟩⟩

structure SignedObject (lib : Platform) (key : SigningKey) (members : Dict) (signed : SignedBytes) : Prop where
  readable : JsonLoads.readable lib.toInterpreter (.obj members) = true
  written : canonicalJsonBytes (.obj members) = some signed.message
  signature : signed.signature = key.sign signed.message

section
variable {lib : Platform} {key : SigningKey} {members : Dict} {signed : SignedBytes}

theorem SignedObject.loaded (object : SignedObject lib key members signed) :
    JsonLoads.loads lib.toInterpreter signed.message = .ok (JsonLoads.ordered (.obj members)) :=
  JsonLoads.loads_canonical object.readable object.written

theorem SignedObject.field (object : SignedObject lib key members signed) (name : String) :
    (JsonLoads.ordered (.obj members)).get? name = (member (text name) members).map JsonLoads.ordered :=
  get?_ordered object.readable name

theorem SignedObject.verifies (object : SignedObject lib key members signed) (signs : Signs lib key) :
    ∃ loaded, lib.loadPemPublicKey key.publicKeyPem = .ok loaded ∧ lib.isRsa loaded = true ∧
      lib.verifyPss loaded (lib.sha256 signed.message) signed.signature = .ok () := by
  obtain ⟨loaded, keyLoaded, rsa, verifies⟩ := signs
  exact ⟨loaded, keyLoaded, rsa, object.signature ▸ verifies signed.message⟩

theorem SignedObject.not_installReport (object : SignedObject lib key members signed)
    (absent : member (text "signer_information") members = none) : ¬ TakenAsInstallReport lib signed := by
  rintro ⟨archive, publicKey, trust, carries, accepted⟩
  obtain ⟨archive', content, report, opened, passed⟩ := accepted.passed
  cases opened
  cases carries.manifest.symm.trans passed.contentRead
  cases object.loaded.symm.trans passed.loaded
  have algorithm := passed.algorithm
  rw [signerOf, object.field, absent] at algorithm
  cases algorithm

theorem ordered_eq_obj {v : Raw} {files : Dict} (form : JsonLoads.ordered v = .obj files) :
    ∃ raw, v = .obj raw ∧ files = JsonLoads.sortKeys (JsonLoads.orderedMembers raw) := by
  cases v with
  | obj raw =>
    rw [JsonLoads.ordered, Raw.obj.injEq] at form
    exact ⟨raw, rfl, form.symm⟩
  | _ => cases form

theorem SignedObject.files (object : SignedObject lib key members signed) {files : Dict}
    (declared : (JsonLoads.ordered (.obj members)).get? "files" = some (.obj files)) :
    ∃ raw, member (text "files") members = some (.obj raw) ∧
      files = JsonLoads.sortKeys (JsonLoads.orderedMembers raw) ∧
      JsonLoads.readable lib.toInterpreter (.obj raw) = true := by
  rw [object.field, Option.map_eq_some_iff] at declared
  obtain ⟨v, found, form⟩ := declared
  obtain ⟨raw, rfl, same⟩ := ordered_eq_obj form
  exact ⟨raw, found, same, ((readable_obj _).mp object.readable).2 _ (mem_of_member found)⟩

theorem SignedObject.declared (object : SignedObject lib key members signed) {raw : Dict}
    (found : member (text "files") members = some (.obj raw)) :
    (JsonLoads.ordered (.obj members)).get? "files" =
      some (.obj (JsonLoads.sortKeys (JsonLoads.orderedMembers raw))) := by
  rw [object.field, found]
  rfl

theorem fills_of_stored {archive : Archive} {fixed : List (Text × ByteArray)} {files : Dict}
    (fixedRead : ∀ m ∈ fixed, read archive m.1 = .ok m.2)
    (stored : ∀ file ∈ files, Stored lib archive file) : Fills lib fixed files := by
  intro file mem
  obtain ⟨data, dataRead, describes⟩ := stored_iff.mp (stored file mem)
  refine ⟨data, describes, fun m memFixed same => ?_⟩
  have fixedData := fixedRead m memFixed
  rw [same, dataRead, Except.ok.injEq] at fixedData
  exact fixedData.symm

theorem SignedObject.acceptance (object : SignedObject lib key members signed) (signs : Signs lib key)
    {raw : Dict} {entries : List (Text × ByteArray)} {explicitKey : Option ByteArray} {trust : Trust}
    (found : member (text "files") members = some (.obj raw))
    (contents : Contents lib (acceptanceFixed signed)
      (JsonLoads.sortKeys (JsonLoads.orderedMembers raw)) entries)
    (resolves : ∀ embedded,
      (AcceptancePackage.keyName, embedded) ∈ orAbsent entries AcceptancePackage.keyName key.publicKeyPem →
        ∃ resolution, resolveTrustedKey lib explicitKey trust (some embedded) = .ok resolution ∧
          resolution.keyBytes = some key.publicKeyPem) :
    ∃ archive, Carries archive AcceptancePackage.manifestName AcceptancePackage.signatureName signed ∧
      AcceptanceSoundness.Accepted lib (.ok archive) explicitKey trust := by
  obtain ⟨loaded, keyLoaded, rsa, verifies⟩ := object.verifies signs
  generalize readFiles : JsonLoads.sortKeys (JsonLoads.orderedMembers raw) = files at contents
  have allowed : ∀ name ∈ AcceptancePackage.required, name ∈ AcceptancePackage.required ++ files.map Prod.fst :=
    fun name mem => List.mem_append_left _ mem
  have base : Named (AcceptancePackage.required ++ files.map Prod.fst)
      (orAbsent entries AcceptancePackage.keyName key.publicKeyPem) :=
    orAbsent_named (contents.named.mono (List.subset_append_right _ _))
      (allowed _ (.tail _ (.tail _ (.head _)))) _
  have withManifest := base.put (allowed AcceptancePackage.manifestName (.head _)) signed.message
  have named := withManifest.put (allowed AcceptancePackage.signatureName (.tail _ (.head _))) signed.signature
  have apart : AcceptancePackage.manifestName ≠ AcceptancePackage.signatureName := by decide
  have keyApart : AcceptancePackage.keyName ≠ AcceptancePackage.manifestName ∧
      AcceptancePackage.keyName ≠ AcceptancePackage.signatureName := by decide
  generalize whole : put (put (orAbsent entries AcceptancePackage.keyName key.publicKeyPem)
    AcceptancePackage.manifestName signed.message) AcceptancePackage.signatureName signed.signature = all at named
  have readAll : ∀ {name data}, (name, data) ∈ all → read (SignedPackage.written all) name = .ok data :=
    fun mem => read_written named.unique mem
  have manifestRead : read (SignedPackage.written all) AcceptancePackage.manifestName = .ok signed.message := by
    refine readAll ?_
    rw [← whole]
    exact mem_put (mem_put_self _ _ _) fun same => absurd same apart
  have signatureRead : read (SignedPackage.written all) AcceptancePackage.signatureName = .ok signed.signature := by
    refine readAll ?_
    rw [← whole]
    exact mem_put_self _ _ _
  obtain ⟨embedded, listed⟩ := orAbsent_present entries AcceptancePackage.keyName key.publicKeyPem
  obtain ⟨resolution, resolved, keyFound⟩ := resolves embedded listed
  have keyRead : read (SignedPackage.written all) AcceptancePackage.keyName = .ok embedded := by
    refine readAll ?_
    rw [← whole]
    exact mem_put (mem_put listed fun same => absurd same keyApart.1) fun same => absurd same keyApart.2
  refine ⟨SignedPackage.written all, ⟨manifestRead, signatureRead⟩, AcceptanceSoundness.accepted_iff.mpr
    ⟨_, signed.message, _, files, rfl, ?_, ?_, manifestRead, object.loaded, ?_,
      readFiles ▸ object.declared found, ?_, ?_, embedded, resolution, key.publicKeyPem, keyRead, resolved,
      keyFound, loaded, keyLoaded, rsa, ?_⟩⟩
  · rw [names_written]
    exact named.unique
  · intro name mem
    simp only [AcceptancePackage.required, List.mem_cons, List.not_mem_nil, or_false] at mem
    rcases mem with rfl | rfl | rfl
    · exact mem_names_of_read manifestRead
    · exact mem_names_of_read signatureRead
    · exact mem_names_of_read keyRead
  · rw [canonical_ordered, object.written]
  · intro name mem
    rw [names_written] at mem
    exact named.known name mem
  · intro file mem
    obtain ⟨data, memEntries, describes⟩ := contents.described file mem
    refine stored_iff.mpr ⟨data, readAll ?_, describes⟩
    have agree := contents.agree _ memEntries
    rw [← whole]
    exact mem_put (mem_put (mem_orAbsent memEntries _ _)
      fun same => (agree _ (.head _) same.symm).symm) fun same => (agree _ (.tail _ (.head _)) same.symm).symm
  · rw [signatureRead, ok_bind, verifies]

theorem SignedObject.contents (object : SignedObject lib key members signed)
    {fixed : List (Text × ByteArray)} {raw : Dict} (found : member (text "files") members = some (.obj raw))
    (fills : Fills lib fixed raw) : ∃ entries, Contents lib fixed
      (JsonLoads.sortKeys (JsonLoads.orderedMembers raw)) entries := by
  have known : JsonLoads.readable lib.toInterpreter (.obj raw) = true :=
    ((readable_obj _).mp object.readable).2 _ (mem_of_member found)
  exact ((fills_readBack known).mpr fills).contents
    ((ordered_obj_names raw).nodup_iff.mpr ((readable_obj _).mp known).1)

theorem SignedObject.takenAsAcceptance_iff (object : SignedObject lib key members signed)
    (signs : Signs lib key) : TakenAsAcceptance lib signed ↔ ∃ files,
      member (text "files") members = some (.obj files) ∧ Fills lib (acceptanceFixed signed) files := by
  constructor
  · rintro ⟨archive, explicitKey, trust, carries, accepted⟩
    obtain ⟨_, bytes, manifest, files, opened, passed⟩ := AcceptanceSoundness.accepted_iff.mp accepted
    cases opened
    cases carries.manifest.symm.trans passed.manifestRead
    cases object.loaded.symm.trans passed.loaded
    obtain ⟨raw, found, rfl, readable⟩ := object.files passed.declared
    have fixedRead : ∀ m ∈ acceptanceFixed signed, read archive m.1 = .ok m.2 := by
      simp only [acceptanceFixed, List.forall_mem_cons]
      exact ⟨carries.manifest, carries.signature, fun m mem => absurd mem List.not_mem_nil⟩
    exact ⟨raw, found, (fills_readBack readable).mp (fills_of_stored fixedRead passed.stored)⟩
  · rintro ⟨raw, found, fills⟩
    obtain ⟨entries, contents⟩ := object.contents found fills
    have resolves : ∀ embedded, (AcceptancePackage.keyName, embedded) ∈
        orAbsent entries AcceptancePackage.keyName key.publicKeyPem → ∃ resolution,
          resolveTrustedKey lib (some key.publicKeyPem) noStore (some embedded) = .ok resolution ∧
            resolution.keyBytes = some key.publicKeyPem := fun _ _ => ⟨_, rfl, rfl⟩
    obtain ⟨archive, carries, accepted⟩ := object.acceptance signs found contents resolves
    exact ⟨archive, _, _, carries, accepted⟩

theorem SignedObject.release (object : SignedObject lib key members signed) (signs : Signs lib key)
    {raw : Dict} {entries : List (Text × ByteArray)}
    (version : member (text "manifest_version") members = some (.str releaseManifestVersion))
    (found : member (text "files") members = some (.obj raw))
    (contents : Contents lib (releaseFixed signed)
      (JsonLoads.sortKeys (JsonLoads.orderedMembers raw)) entries) : TakenAsRelease lib signed := by
  obtain ⟨loaded, keyLoaded, rsa, verifies⟩ := object.verifies signs
  generalize readFiles : JsonLoads.sortKeys (JsonLoads.orderedMembers raw) = files at contents
  have sub : files.map Prod.fst ⊆ releaseManifestName :: releaseSignatureName :: files.map Prod.fst :=
    fun name mem => .tail _ (.tail _ mem)
  have withManifest := (contents.named.mono sub).put List.mem_cons_self signed.message
  have named := withManifest.put
    (show releaseSignatureName ∈ releaseManifestName :: releaseSignatureName :: files.map Prod.fst from
      .tail _ (.head _)) signed.signature
  have apart : releaseManifestName ≠ releaseSignatureName := by decide
  generalize whole : put (put entries releaseManifestName signed.message) releaseSignatureName
    signed.signature = all at named
  have readAll : ∀ {name data}, (name, data) ∈ all → read (SignedPackage.written all) name = .ok data :=
    fun mem => read_written named.unique mem
  have manifestRead : read (SignedPackage.written all) releaseManifestName = .ok signed.message := by
    refine readAll ?_
    rw [← whole]
    exact mem_put (mem_put_self _ _ _) fun same => absurd same apart
  have signatureRead : read (SignedPackage.written all) releaseSignatureName = .ok signed.signature := by
    refine readAll ?_
    rw [← whole]
    exact mem_put_self _ _ _
  obtain ⟨embedded, carried⟩ := readIfPresent_written named.unique releaseKeyName
  have versionRead : (JsonLoads.ordered (.obj members)).get? "manifest_version" =
      some (.str releaseManifestVersion) := by
    rw [object.field, version]
    rfl
  refine ⟨SignedPackage.written all, some (.ok key.publicKeyPem), noStore, ⟨manifestRead, signatureRead⟩,
    ReleaseSoundness.accepted_iff.mpr ⟨_, signed.message, _, files, rfl, ?_,
      mem_names_of_read signatureRead, manifestRead, object.loaded, ?_, versionRead,
      readFiles ▸ object.declared found, ?_, ?_, embedded, some key.publicKeyPem, _, key.publicKeyPem,
      carried, rfl, rfl, rfl, loaded, keyLoaded, rsa, ?_⟩⟩
  · rw [names_written]
    exact named.unique
  · rw [canonical_ordered, object.written]
  · intro name mem
    rw [names_written] at mem
    exact named.known name mem
  · intro file mem
    obtain ⟨data, memEntries, describes⟩ := contents.described file mem
    refine stored_iff.mpr ⟨data, readAll ?_, describes⟩
    have agree := contents.agree _ memEntries
    rw [← whole]
    exact mem_put (mem_put memEntries fun same => (agree _ (.head _) same.symm).symm)
      fun same => (agree _ (.tail _ (.head _)) same.symm).symm
  · rw [signatureRead, ok_bind, verifies]

theorem SignedObject.takenAsRelease_iff (object : SignedObject lib key members signed)
    (signs : Signs lib key) : TakenAsRelease lib signed ↔
      member (text "manifest_version") members = some (.str releaseManifestVersion) ∧ ∃ files,
        member (text "files") members = some (.obj files) ∧ Fills lib (releaseFixed signed) files := by
  constructor
  · rintro ⟨archive, publicKey, trust, carries, accepted⟩
    obtain ⟨_, bytes, manifest, files, opened, passed⟩ := ReleaseSoundness.accepted_iff.mp accepted
    cases opened
    cases carries.manifest.symm.trans passed.manifestRead
    cases object.loaded.symm.trans passed.loaded
    obtain ⟨raw, found, rfl, readable⟩ := object.files passed.declared
    have fixedRead : ∀ m ∈ releaseFixed signed, read archive m.1 = .ok m.2 := by
      simp only [releaseFixed, List.forall_mem_cons]
      exact ⟨carries.manifest, carries.signature, fun m mem => absurd mem List.not_mem_nil⟩
    have version := passed.version
    rw [object.field, Option.map_eq_some_iff] at version
    obtain ⟨v, versionFound, form⟩ := version
    have text : v = .str releaseManifestVersion := by
      cases v with
      | str t => exact form
      | _ => cases form
    exact ⟨text ▸ versionFound, raw, found,
      (fills_readBack readable).mp (fills_of_stored fixedRead passed.stored)⟩
  · rintro ⟨version, raw, found, fills⟩
    obtain ⟨entries, contents⟩ := object.contents found fills
    exact object.release signs version found contents

end

/-! The contents that are signed. -/

inductive Content where
  | release (r : ReleaseInput)
  | acceptance (output : AcceptancePackage.Output) (createdAt : Text)
  | installReport (journal generatedAt : Text)

def produce (lib : Platform) (key : SigningKey) : Content → Except Raised (SignedBytes × Archive)
  | .release r => buildRelease lib r key
  | .acceptance output createdAt => AcceptancePackage.signPackage lib output createdAt key
  | .installReport journal generatedAt => generateInstallReport lib journal generatedAt key

def Separated (lib : Platform) (signed : SignedBytes) : Content → Prop
  | .release _ => ¬ TakenAsAcceptance lib signed ∧ ¬ TakenAsInstallReport lib signed
  | .acceptance _ _ => ¬ TakenAsRelease lib signed ∧ ¬ TakenAsInstallReport lib signed
  | .installReport _ _ => ¬ TakenAsRelease lib signed ∧ ¬ TakenAsAcceptance lib signed

/-- The files that a record names cannot be filled in the place of an acceptance
package, nor in the place of a release if it names the version of one. -/
def Unfillable (lib : Platform) (signed : SignedBytes) (record : Dict) : Prop :=
  ∀ files, member (text "files") record = some (.obj files) →
    ¬ Fills lib (acceptanceFixed signed) files ∧
      (member (text "manifest_version") record = some (.str releaseManifestVersion) →
        ¬ Fills lib (releaseFixed signed) files)

def Distinct (lib : Platform) (signed : SignedBytes) : Content → Prop
  | .release _ => False
  | .acceptance _ _ => True
  | .installReport journal _ => ∀ record,
      JsonLoads.loadsText lib.toInterpreter journal = .ok (.obj record) → Unfillable lib signed record

section
variable {lib : Platform} {key : SigningKey} {signed : SignedBytes} {archive : Archive}

theorem fills_fileManifest {fixed entries : List (Text × ByteArray)}
    (apart : ∀ e ∈ entries, ∀ m ∈ fixed, m.1 ≠ e.1) :
    Fills lib fixed ((sortEntries entries).map fun e => (e.1, fileRecord lib e.2)) := by
  intro file mem
  obtain ⟨e, memE, rfl⟩ := List.mem_map.mp mem
  have listed : e ∈ entries := (List.mem_insertionSort _).mp memE
  have size : equals (.int e.2.size) (.int e.2.size) = true := by
    rw [equals_int]
    exact decide_eq_true rfl
  exact ⟨e.2, ⟨_, .int e.2.size, rfl, rfl, rfl, size⟩, fun m memM same => absurd same (apart e listed m memM)⟩

def releaseMembers (lib : Platform) (r : ReleaseInput) (entries : List (Text × ByteArray)) : Dict :=
  [(text "manifest_version", .str releaseManifestVersion), (text "release_version", .str r.version),
    (text "created_at", .str r.createdAt), (text "builder_platform", .str r.builderPlatform),
    (text "files", fileManifest lib entries), (text "signature_algorithm", .str signatureAlgorithm)]

theorem release_object {r : ReleaseInput} {entries : List (Text × ByteArray)}
    (built : ReleaseSoundness.Built lib r key signed archive entries) (sized : Sized archive) :
    SignedObject lib key (releaseMembers lib r entries) signed where
  readable := ReleaseSoundness.readable_releaseManifest r built.named.unique (built.small sized)
  written := built.manifest
  signature := built.signature

theorem entryNames_acceptance {r : ReleaseInput} {name : Text} (mem : name ∈ ReleaseSoundness.entryNames r) :
    name ∉ AcceptancePackage.required := fun reserved =>
  (ReleaseSoundness.entryNames_proper mem).2 (List.mem_of_mem_drop (i := 2) reserved)

theorem release_fills {r : ReleaseInput} {entries : List (Text × ByteArray)}
    (named : Named (ReleaseSoundness.entryNames r) entries) :
    Fills lib (acceptanceFixed signed) ((sortEntries entries).map fun e => (e.1, fileRecord lib e.2)) := by
  refine fills_fileManifest fun e mem m memM same => ?_
  have apart := entryNames_acceptance (named.known e.1 (List.mem_map_of_mem mem))
  rw [← same] at apart
  simp only [acceptanceFixed, List.mem_cons, List.not_mem_nil, or_false] at memM
  rcases memM with rfl | rfl
  · exact apart (.head _)
  · exact apart (.tail _ (.head _))

def acceptanceMembers (lib : Platform) (output : AcceptancePackage.Output) (createdAt : Text)
    (profile accepted : Option Raw) : Dict :=
  [(text "schema_version", .str (text "mirage.acceptance-manifest/1.0")),
    (text "profile", profile.getD .null), (text "accepted", .bool (accepted.any isTrue)),
    (text "created_at", .str createdAt), (text "signature_algorithm", .str signatureAlgorithm),
    (text "files", fileManifest lib (AcceptancePackage.entries output))]

theorem readable_dictGet {found : Raw} {name : String} {value : Option Raw}
    (known : JsonLoads.readable lib.toInterpreter found = true) (got : dictGet found name = .ok value) :
    JsonLoads.readable lib.toInterpreter (value.getD .null) = true := by
  obtain ⟨members, rfl, same⟩ := dictGet_eq_ok.mp got
  cases value with
  | none => rfl
  | some v => exact ((readable_obj _).mp known).2 _ (mem_of_member same)

theorem entries_proper {output : AcceptancePackage.Output} {e : Text × ByteArray}
    (mem : e ∈ AcceptancePackage.entries output) :
    (0 : CodePoint) ∉ e.1 ∧ e.1 ∉ AcceptancePackage.excluded := by
  obtain ⟨file, kept⟩ := List.mem_filter.mp mem
  exact ⟨output.proper e file, of_decide_eq_true kept⟩

theorem acceptance_object (law : FloatsRead lib.toInterpreter) {output : AcceptancePackage.Output}
    {createdAt : Text} (signing : AcceptancePackage.signPackage lib output createdAt key = .ok (signed, archive))
    (sized : Sized archive) : ∃ profile accepted,
      SignedObject lib key (acceptanceMembers lib output createdAt profile accepted) signed := by
  rw [AcceptancePackage.signPackage, bind_eq_ok] at signing
  obtain ⟨found, foundOk, signing⟩ := signing
  rw [bind_eq_ok] at signing
  obtain ⟨profile, profileOk, signing⟩ := signing
  rw [bind_eq_ok] at signing
  obtain ⟨accepted, _, signing⟩ := signing
  rw [bind_eq_ok] at signing
  obtain ⟨bytes, bytesOk, signing⟩ := signing
  rw [bind_eq_ok] at signing
  obtain ⟨_, _, signing⟩ := signing
  rw [bind_eq_ok] at signing
  obtain ⟨members, membersOk, signing⟩ := signing
  cases signing
  rw [AcceptancePackage.results, bind_eq_ok] at foundOk
  obtain ⟨file, _, loaded⟩ := foundOk
  have readableFound := loads_readable law loaded
  have unique : ((AcceptancePackage.entries output).map Prod.fst).Nodup :=
    output.unique.sublist (List.filter_sublist.map _)
  have start : Named ((AcceptancePackage.entries output).map Prod.fst ++ AcceptancePackage.required)
      (AcceptancePackage.entries output) := ⟨unique, fun name mem => List.mem_append_left _ mem⟩
  have fixed : ∀ name ∈ AcceptancePackage.required, name ∈
      (AcceptancePackage.entries output).map Prod.fst ++ AcceptancePackage.required :=
    fun name mem => List.mem_append_right _ mem
  have withManifest := start.put (fixed AcceptancePackage.manifestName (.head _)) bytes
  have withSignature := withManifest.put (fixed AcceptancePackage.signatureName (.tail _ (.head _)))
    (key.sign bytes)
  have named := withSignature.put (fixed AcceptancePackage.keyName (.tail _ (.tail _ (.head _))))
    key.publicKeyPem
  have proper : ∀ m ∈ sortEntries (put (put (put (AcceptancePackage.entries output)
      AcceptancePackage.manifestName bytes) AcceptancePackage.signatureName (key.sign bytes))
      AcceptancePackage.keyName key.publicKeyPem), (0 : CodePoint) ∉ m.1 := by
    intro m mem
    have listed := named.known m.1 (List.mem_map_of_mem ((List.mem_insertionSort _).mp mem))
    rcases List.mem_append.mp listed with entry | reserved
    · obtain ⟨e, memE, same⟩ := List.mem_map.mp entry
      rw [← same]
      exact (entries_proper memE).1
    · have plain : ∀ name ∈ AcceptancePackage.required, (0 : CodePoint) ∉ name := by decide
      exact plain _ reserved
  obtain ⟨rfl, _⟩ := ReleaseSoundness.writeAll_eq_ok proper membersOk
  have small : ∀ e ∈ AcceptancePackage.entries output, e.2.size < 2 ^ 63 := by
    intro e mem
    have other : ∀ name ∈ AcceptancePackage.required, e.1 ≠ name := by
      rintro name reserved rfl
      exact (entries_proper mem).2 (List.mem_append_left _ reserved)
    have kept : e ∈ put (put (put (AcceptancePackage.entries output) AcceptancePackage.manifestName bytes)
        AcceptancePackage.signatureName (key.sign bytes)) AcceptancePackage.keyName key.publicKeyPem :=
      mem_put (mem_put (mem_put mem fun same => absurd same (other AcceptancePackage.manifestName (.head _)))
        fun same => absurd same (other AcceptancePackage.signatureName (.tail _ (.head _))))
        fun same => absurd same (other AcceptancePackage.keyName (.tail _ (.tail _ (.head _))))
    have written : (⟨e.1, .ok e.2⟩ : Member) ∈ SignedPackage.written (sortEntries _) :=
      List.mem_map.mpr ⟨e, (List.mem_insertionSort _).mpr kept, rfl⟩
    exact sized _ written e.2 rfl
  refine ⟨profile, accepted, (readable_obj _).mpr ⟨?_, ?_⟩, canonical_eq_ok.mp bytesOk, rfl⟩
  · simp only [acceptanceMembers, List.map_cons, List.map_nil]
    decide
  · simp only [acceptanceMembers, List.forall_mem_cons]
    exact ⟨rfl, readable_dictGet readableFound profileOk, rfl, rfl, rfl,
      ReleaseSoundness.readable_fileManifest unique small, fun m mem => absurd mem List.not_mem_nil⟩

theorem member_reportRecord (generatedAt : Text) (record : Dict) {name : Text}
    (other : name ∉ ["report_version", "generated_at", "signer_information"].map text) :
    member name (reportRecord lib generatedAt key record) = member name record := by
  simp only [List.map_cons, List.map_nil, List.mem_cons, List.not_mem_nil, or_false, not_or] at other
  obtain ⟨version, generated, signer⟩ := other
  rw [reportRecord, member_setMember, if_neg signer, member_setMember, if_neg generated, member_setMember,
    if_neg version]

theorem install_object (law : FloatsRead lib.toInterpreter) {journal generatedAt : Text}
    (generated : generateInstallReport lib journal generatedAt key = .ok (signed, archive)) :
    ∃ record, JsonLoads.loadsText lib.toInterpreter journal = .ok (.obj record) ∧
      SignedObject lib key (reportRecord lib generatedAt key record) signed := by
  rw [generateInstallReport, bind_eq_ok] at generated
  obtain ⟨record, recordOk, generated⟩ := generated
  rw [bind_eq_ok] at generated
  obtain ⟨_, _, generated⟩ := generated
  rw [bind_eq_ok] at generated
  obtain ⟨_, _, generated⟩ := generated
  rw [bind_eq_ok] at generated
  obtain ⟨bytes, bytesOk, generated⟩ := generated
  rw [bind_eq_ok] at generated
  obtain ⟨members, _, generated⟩ := generated
  cases generated
  rw [bind_eq_ok] at recordOk
  obtain ⟨v, loaded, form⟩ := recordOk
  cases v with
  | obj members =>
    cases form
    have signerReadable : JsonLoads.readable lib.toInterpreter (signerInformation lib key) = true := by
      refine (readable_obj _).mpr ⟨by simp only [List.map_cons, List.map_nil]; decide, ?_⟩
      simp only [List.forall_mem_cons]
      exact ⟨rfl, rfl, rfl, rfl, fun m mem => absurd mem List.not_mem_nil⟩
    refine ⟨record, loaded, ?_, canonical_eq_ok.mp bytesOk, rfl⟩
    exact readable_setMember (readable_setMember (readable_setMember (loadsText_readable law loaded) rfl) rfl)
      signerReadable
  | _ => cases form

/-- What separates each kind of signed content from the other two. -/
theorem separated_iff (lib : Platform) (law : FloatsRead lib.toInterpreter) (key : SigningKey)
    (signs : Signs lib key) (content : Content) (signed : SignedBytes) (archive : Archive)
    (produced : produce lib key content = .ok (signed, archive)) (sized : Sized archive) :
    Separated lib signed content ↔ Distinct lib signed content := by
  cases content with
  | release r =>
    obtain ⟨entries, built⟩ := ReleaseSoundness.buildRelease_eq_ok produced
    have object := release_object built sized
    have taken : TakenAsAcceptance lib signed :=
      (object.takenAsAcceptance_iff signs).mpr ⟨_, rfl, release_fills built.named⟩
    exact ⟨fun apart => apart.1 taken, False.elim⟩
  | acceptance output createdAt =>
    obtain ⟨profile, accepted, object⟩ := acceptance_object law produced sized
    refine ⟨fun _ => trivial, fun _ => ⟨fun taken => ?_, object.not_installReport rfl⟩⟩
    have version := ((object.takenAsRelease_iff signs).mp taken).1
    cases version
  | installReport journal generatedAt =>
    obtain ⟨record, loaded, object⟩ := install_object law produced
    have files : member (text "files") (reportRecord lib generatedAt key record) =
        member (text "files") record := member_reportRecord generatedAt record (by decide)
    have version : member (text "manifest_version") (reportRecord lib generatedAt key record) =
        member (text "manifest_version") record := member_reportRecord generatedAt record (by decide)
    have asRelease := object.takenAsRelease_iff signs
    have asAcceptance := object.takenAsAcceptance_iff signs
    rw [files] at asRelease asAcceptance
    rw [version] at asRelease
    constructor
    · intro apart record' loaded' filesDict found
      cases loaded.symm.trans loaded'
      exact ⟨fun fills => apart.2 (asAcceptance.mpr ⟨filesDict, found, fills⟩),
        fun named fills => apart.1 (asRelease.mpr ⟨named, filesDict, found, fills⟩)⟩
    · intro distinct
      refine ⟨fun taken => ?_, fun taken => ?_⟩
      · obtain ⟨named, filesDict, found, fills⟩ := asRelease.mp taken
        exact (distinct record loaded filesDict found).2 named fills
      · obtain ⟨filesDict, found, fills⟩ := asAcceptance.mp taken
        exact (distinct record loaded filesDict found).1 fills

/-! A release under the trust store. -/

structure InStore (lib : Platform) (trust : Trust) (publicKeyPem : ByteArray) (keys : List ByteArray)
    (revoked : List Text) : Prop where
  loaded : loadTrustStore (trust.store (resolveTrustStoreDir trust)) = .ok keys
  listed : loadRevoked lib (trust.store (resolveTrustStoreDir trust)) = .ok revoked
  mem : publicKeyPem ∈ keys
  valid : fingerprint lib publicKeyPem ∉ revoked

theorem InStore.resolves (injective : Function.Injective lib.sha256) {trust : Trust}
    {publicKeyPem : ByteArray} {keys : List ByteArray} {revoked : List Text}
    (inStore : InStore lib trust publicKeyPem keys revoked) :
    ∃ resolution, resolveTrustedKey lib none trust (some publicKeyPem) = .ok resolution ∧
      resolution.keyBytes = some publicKeyPem := by
  have found : trustedKey lib keys (fingerprint lib publicKeyPem) = some publicKeyPem := by
    cases known : trustedKey lib keys (fingerprint lib publicKeyPem) with
    | none =>
      rw [trustedKey, List.find?_eq_none] at known
      have absent := known publicKeyPem (List.mem_reverse.mpr inStore.mem)
      simp at absent
    | some key =>
      rw [hexDigest_injective injective (trustedKey_eq_some known).2]
  have stored : keys ≠ [] := List.ne_nil_of_mem inStore.mem
  refine ⟨⟨some publicKeyPem, fingerprint lib publicKeyPem, some .trustStore, []⟩, ?_, rfl⟩
  simp only [resolveTrustedKey, inStore.loaded, ok_bind, stored, if_false, resolveEmbedded, inStore.listed,
    inStore.valid, found]
  rfl

/-- Every release is accepted as an acceptance package under every trust store
that holds its signer. -/
theorem release_accepted {r : ReleaseInput} {entries : List (Text × ByteArray)} {trust : Trust}
    {keys : List ByteArray} {revoked : List Text} (injective : Function.Injective lib.sha256)
    (signs : Signs lib key) (object : SignedObject lib key (releaseMembers lib r entries) signed)
    (named : Named (ReleaseSoundness.entryNames r) entries)
    (inStore : InStore lib trust key.publicKeyPem keys revoked) :
    ∃ archive, Carries archive AcceptancePackage.manifestName AcceptancePackage.signatureName signed ∧
      AcceptanceSoundness.Accepted lib (.ok archive) none trust := by
  obtain ⟨contents, filled⟩ := object.contents rfl (release_fills named)
  refine object.acceptance signs rfl filled fun embedded mem => ?_
  have free : AcceptancePackage.keyName ∉ contents.map Prod.fst := by
    intro listed
    obtain ⟨⟨name, value⟩, memFile, same⟩ := List.mem_map.mp (filled.named.known _ listed)
    obtain ⟨file, memFile, same'⟩ := mem_readBack.mp memFile
    obtain ⟨e, memE, rfl⟩ := List.mem_map.mp memFile
    have entry : e ∈ entries := (List.mem_insertionSort _).mp memE
    have apart := entryNames_acceptance (named.known e.1 (List.mem_map_of_mem entry))
    have names : e.1 = AcceptancePackage.keyName := by
      rw [← same, same']
    rw [names] at apart
    exact apart (.tail _ (.tail _ (.head _)))
  have unique : (orAbsent contents AcceptancePackage.keyName key.publicKeyPem).map Prod.fst |>.Nodup :=
    (orAbsent_named (filled.named.mono (List.subset_append_left _ [AcceptancePackage.keyName]))
      (List.mem_append_right _ List.mem_cons_self) _).unique
  have own : (AcceptancePackage.keyName, key.publicKeyPem) ∈
      orAbsent contents AcceptancePackage.keyName key.publicKeyPem := by
    rw [orAbsent, if_neg free]
    exact mem_put_self _ _ _
  have same := List.inj_on_of_nodup_map unique mem own rfl
  cases same
  exact inStore.resolves injective

end
/-! A small release, and an install report whose record names no files. -/

theorem small_put {entries : List (Text × ByteArray)} (known : ∀ e ∈ entries, e.2.size < 2 ^ 63)
    (name : Text) {data : ByteArray} (new : data.size < 2 ^ 63) :
    ∀ e ∈ put entries name data, e.2.size < 2 ^ 63 := by
  induction entries with
  | nil => exact List.forall_mem_singleton.mpr new
  | cons first rest ih =>
    obtain ⟨other, old⟩ := first
    rw [List.forall_mem_cons] at known
    rw [put]
    split
    next => exact List.forall_mem_cons.mpr ⟨new, known.2⟩
    next => exact List.forall_mem_cons.mpr ⟨known.1, ih known.2⟩

theorem relativeEntries_total {r : ReleaseInput} {data : String → ByteArray} {files : List String}
    (present : ∀ f ∈ files, r.file f = some (data f)) :
    relativeEntries r files = .ok (files.map fun f => (text f, data f)) := by
  induction files with
  | nil => rfl
  | cons f rest ih =>
    rw [List.forall_mem_cons] at present
    rw [relativeEntries, present.1, ih present.2]
    rfl

theorem size_encodeUtf8 {t : Text} {bytes : ByteArray} (written : encodeUtf8 t = some bytes) :
    bytes.size ≤ 4 * t.length := by
  rw [encodeUtf8] at written
  split at written
  next =>
    have size : bytes.size = bytes.data.toList.length := rfl
    have bound : ∀ chars : List Char, (chars.flatMap String.utf8EncodeChar).length ≤ 4 * chars.length := by
      intro chars
      induction chars with
      | nil => exact Nat.zero_le _
      | cons c rest ih =>
        have one := Char.utf8Size_le_four c
        rw [List.flatMap_cons, List.length_append, String.length_utf8EncodeChar, List.length_cons]
        omega
    have whole := bound (t.map toChar)
    rw [List.length_map] at whole
    rw [size, ← Option.some.inj written, JsonLoads.toUTF8_bytes]
    exact whole
  next => cases written

theorem canonical_small {v : Raw} (proper : isScalar v = true) (short : (dumps v).length < 2 ^ 60) :
    ∃ bytes, canonical v = .ok bytes ∧ bytes.size < 2 ^ 63 := by
  have written := JsonLoads.canonicalJsonBytes_getD proper
  have bound := size_encodeUtf8 written
  exact ⟨_, canonical_eq_ok.mpr written, by omega⟩

theorem encoded_small {t : Text} (proper : scalar t = true) (short : t.length < 2 ^ 60) :
    ∃ bytes, EvidenceExport.encoded t = .ok bytes ∧ bytes.size < 2 ^ 63 := by
  have written : encodeUtf8 t = some (String.ofList (t.map toChar)).toUTF8 := by
    rw [encodeUtf8, if_pos proper]
  have bound := size_encodeUtf8 written
  exact ⟨_, by rw [EvidenceExport.encoded, written]; rfl, by omega⟩

theorem scalar_fileManifest (lib : Platform) {entries : List (Text × ByteArray)}
    (names : ∀ e ∈ entries, scalar e.1 = true) : isScalar (fileManifest lib entries) = true := by
  refine scalarMembers_iff.mpr fun m mem => ?_
  obtain ⟨e, memE, rfl⟩ := List.mem_map.mp mem
  refine ⟨names e ((List.mem_insertionSort _).mp memE), scalarMembers_iff.mpr ?_⟩
  simp only [List.forall_mem_cons, scalar_text, true_and]
  exact ⟨scalar_hexDigest lib e.2, rfl, fun m mem => absurd mem List.not_mem_nil⟩

theorem scalar_releaseManifest (lib : Platform) {r : ReleaseInput} {entries : List (Text × ByteArray)}
    (texts : scalar r.version = true ∧ scalar r.createdAt = true ∧ scalar r.builderPlatform = true)
    (names : ∀ e ∈ entries, scalar e.1 = true) : isScalar (releaseManifest lib r entries) = true := by
  refine scalarMembers_iff.mpr ?_
  simp only [List.forall_mem_cons, scalar_text, true_and]
  exact ⟨scalar_text _, texts.1, texts.2.1, texts.2.2, scalar_fileManifest lib names, scalar_text _,
    fun m mem => absurd mem List.not_mem_nil⟩

theorem writeAll_total {members : List (Text × ByteArray)}
    (writable : ∀ m ∈ members, Writable m.1) :
    writeAll members = .ok (SignedPackage.written members) := by
  induction members with
  | nil => rfl
  | cons m rest ih =>
    rw [List.forall_mem_cons] at writable
    rw [writeAll, writeZipBytes_eq writable.1, ok_bind, ih writable.2]
    rfl

def sampleKey : SigningKey := ⟨3072, fun _ => "signature".toUTF8, "-----BEGIN PUBLIC KEY-----".toUTF8⟩

def sampleInput : ReleaseInput where
  version := text "1.0.0"
  createdAt := text "2026-01-02T03:04:05Z"
  builderPlatform := text "Linux"
  file _ := some .empty
  wheelName := text "mirage-1.0.0-py3-none-any.whl"
  wheelName_proper := by decide
  wheel := .empty
  endpointPackage := none
  sandboxPackage := none
  contracts := .null
  migrations := .null
  components := .arr []

set_option maxRecDepth 8000 in
theorem sampleEntries_small : ∃ entries, releaseEntries sampleInput sampleKey = .ok entries ∧
    ∀ e ∈ entries, e.2.size < 2 ^ 63 := by
  have relative : relativeEntries sampleInput relativeFiles =
      .ok (relativeFiles.map fun f => (text f, .empty)) := relativeEntries_total fun _ _ => rfl
  obtain ⟨contracts, contractsOk, contractsSmall⟩ :=
    canonical_small (v := sampleInput.contracts) rfl (by decide +kernel)
  obtain ⟨migrations, migrationsOk, migrationsSmall⟩ :=
    canonical_small (v := sampleInput.migrations) rfl (by decide +kernel)
  obtain ⟨components, componentsOk, componentsSmall⟩ :=
    canonical_small (v := sbom sampleInput) rfl (by decide +kernel)
  have digestsScalar : isScalar imageDigests = true := by
    simp only [imageDigests, isScalar, scalarMembers, scalarItems, scalar_text, Bool.and_true]
  obtain ⟨digests, digestsOk, digestsSmall⟩ := canonical_small digestsScalar (by decide +kernel)
  obtain ⟨notes, notesOk, notesSmall⟩ :=
    encoded_small (t := releaseNotes sampleInput.version) rfl (by decide +kernel)
  have empty : ByteArray.empty.size < 2 ^ 63 := by decide +kernel
  have files : ∀ e ∈ relativeFiles.map fun f => (text f, ByteArray.empty), e.2.size < 2 ^ 63 :=
    List.forall_mem_map.mpr fun _ _ => empty
  have key : sampleKey.publicKeyPem.size < 2 ^ 63 := by decide +kernel
  have upgrade : upgradeNotes.size < 2 ^ 63 := by decide +kernel
  have rollback : rollbackNotes.size < 2 ^ 63 := by decide +kernel
  have limitations : knownLimitations.size < 2 ^ 63 := by decide +kernel
  have packages := small_put files (text "packages/" ++ sampleInput.wheelName) empty
  have manifests := small_put (small_put packages (text "manifests/contracts.json") contractsSmall)
    (text "manifests/migrations.json") migrationsSmall
  have described := small_put (small_put manifests (text "sbom/mirage-source.cdx.json") componentsSmall)
    (text "container-image-digests.json") digestsSmall
  have keyed := small_put (small_put described releaseKeyName key) (text "RELEASE-NOTES.md") notesSmall
  have guides := small_put (small_put keyed (text "UPGRADE.md") upgrade) (text "ROLLBACK.md") rollback
  refine ⟨_, ?_, small_put guides (text "KNOWN-LIMITATIONS.md") limitations⟩
  rw [releaseEntries, relative, ok_bind, contractsOk, ok_bind, migrationsOk, ok_bind, componentsOk, ok_bind,
    digestsOk, ok_bind, notesOk, ok_bind]
  rfl

def sampleRecord : Dict :=
  [(text "configuration_sha256", .str []), (text "container_image_digests", .obj []),
    (text "contract_versions", .arr []), (text "host_fingerprint", .str []),
    (text "installed_time", .str (text "2026-01-02T03:04:05Z")),
    (text "installer_version", .str (text "1.0.0")), (text "migration_versions", .arr []),
    (text "package_sha256", .str []), (text "sbom_hashes", .obj []),
    (text "service_health", .str (text "PASS")), (text "synthetic_transaction_result", .str (text "PASS"))]

def sampleReport : Dict :=
  sampleRecord ++ ([(text "report_version", .str (text "mirage-install-report/1.0")),
    (text "generated_at", .str (text "2026-01-02T03:04:05Z")),
    (text "signer_information", .obj [(text "signature_algorithm", .str (text "RSA-PSS-SHA256")),
      (text "public_key_sha256",
        .str (text "59a58325e88756ac23f5bb454ca0de6a1ae0701d3bce4e05ca78483beca46bec")),
      (text "signature_member", .str (text "install-report.sig")),
      (text "public_key_member", .str (text "public-key.pem"))])] : Dict)

def sampleBytes : ByteArray := (canonicalJsonBytes (.obj sampleReport)).getD .empty

def sampleTable : List (ByteArray × List UInt8) :=
  [(sampleKey.publicKeyPem, [89, 165, 131, 37, 232, 135, 86, 172, 35, 245, 187, 69, 76, 160, 222, 106, 26,
      224, 112, 29, 59, 206, 78, 5, 202, 120, 72, 59, 236, 164, 107, 236]),
    (sampleBytes, [205, 179, 124, 235, 28, 10, 183, 21, 194, 14, 140, 87, 67, 209, 241, 29, 91, 179, 147,
      182, 75, 238, 134, 253, 116, 221, 73, 193, 63, 208, 148, 233])]

def samplePlatform : Platform := tablePlatform sampleTable fun key _ _ => key = sampleKey.publicKeyPem

theorem samplePlatform_injective : Function.Injective samplePlatform.sha256 := by
  refine tableHash_injective ?_ ?_
  · rw [sampleTable, List.map_cons, List.map_cons, List.map_nil]
    decide
  · intro row mem
    simp only [sampleTable, List.mem_cons, List.not_mem_nil, or_false] at mem
    rcases mem with rfl | rfl
    all_goals rfl

theorem samplePlatform_floats : FloatsRead samplePlatform.toInterpreter := fun _ => by
  have known : JsonLoads.readableFloat samplePlatform.toInterpreter "NaN" none = true := by decide
  exact known

theorem samplePlatform_signs : Signs samplePlatform sampleKey :=
  ⟨sampleKey.publicKeyPem, rfl, rfl, fun _ => rfl⟩

def sampleStore : Trust := ⟨none, none, fun _ => ⟨true, [.ok sampleKey.publicKeyPem], none⟩⟩

theorem sampleStore_key : InStore samplePlatform sampleStore sampleKey.publicKeyPem
    [sampleKey.publicKeyPem] [] := ⟨rfl, rfl, List.mem_cons_self, List.not_mem_nil⟩

/-- The sample release is signed, and its bytes are accepted as an acceptance
package under the trust store. -/
theorem release_taken : ∃ signed archive,
    buildRelease samplePlatform sampleInput sampleKey = .ok (signed, archive) ∧
      ∃ other, Carries other AcceptancePackage.manifestName AcceptancePackage.signatureName signed ∧
        AcceptanceSoundness.Accepted samplePlatform (.ok other) none sampleStore := by
  obtain ⟨entries, entriesOk, small⟩ := sampleEntries_small
  have named := ReleaseSoundness.releaseEntries_named entriesOk
  have proper : ∀ name ∈ ReleaseSoundness.entryNames sampleInput, scalar name = true := by
    intro name mem
    rcases List.mem_cons.mp mem with rfl | listed
    · decide
    · obtain ⟨s, _, rfl⟩ := List.mem_map.mp listed
      exact scalar_text s
  have names : ∀ e ∈ entries, Writable e.1 := by
    intro e mem
    have listed := named.known e.1 (List.mem_map_of_mem mem)
    have free := (ReleaseSoundness.entryNames_proper listed).1
    exact ⟨proper e.1 listed, fun p memP zero => free (zero ▸ memP)⟩
  have scalarManifest := scalar_releaseManifest samplePlatform (r := sampleInput)
    ⟨scalar_text _, scalar_text _, scalar_text _⟩ fun e mem => (names e mem).1
  have written := JsonLoads.canonicalJsonBytes_getD scalarManifest
  generalize (canonicalJsonBytes (releaseManifest samplePlatform sampleInput entries)).getD .empty = bytes
    at written
  have writable : ∀ m ∈ (releaseManifestName, bytes) :: (releaseSignatureName, sampleKey.sign bytes) ::
      sortEntries entries, Writable m.1 := by
    simp only [List.forall_mem_cons]
    exact ⟨writable_text (by decide), writable_text (by decide),
      fun m mem => names m ((List.mem_insertionSort _).mp mem)⟩
  have built : buildRelease samplePlatform sampleInput sampleKey =
      .ok (⟨bytes, sampleKey.sign bytes⟩, SignedPackage.written ((releaseManifestName, bytes) ::
        (releaseSignatureName, sampleKey.sign bytes) :: sortEntries entries)) := by
    have version : require (decide (sampleInput.version ≠ [] ∧
        sampleInput.version.all versionCharacter)) Raised.valueError = .ok () := by
      rw [require_eq_ok]
      decide
    have size : require (decide (3072 ≤ sampleKey.keySize)) Raised.valueError = .ok () := rfl
    rw [buildRelease, version, ok_bind, size, ok_bind, entriesOk, ok_bind, canonical_eq_ok.mpr written,
      ok_bind, writeAll_total writable, ok_bind]
    rfl
  have object : SignedObject samplePlatform sampleKey (releaseMembers samplePlatform sampleInput entries)
      ⟨bytes, sampleKey.sign bytes⟩ :=
    ⟨ReleaseSoundness.readable_releaseManifest sampleInput named.unique small, written, rfl⟩
  exact ⟨_, _, built, release_accepted samplePlatform_injective samplePlatform_signs object named
    sampleStore_key⟩

theorem sampleKey_fingerprint : fingerprint samplePlatform sampleKey.publicKeyPem =
    text "59a58325e88756ac23f5bb454ca0de6a1ae0701d3bce4e05ca78483beca46bec" := by
  have digest : samplePlatform.sha256 = tableHash sampleTable := rfl
  rw [fingerprint, hexDigest, digest, sampleTable, tableHash_first, List.toList_data_toByteArray]
  rfl

set_option maxRecDepth 4000 in
theorem sampleReport_eq :
    reportRecord samplePlatform (text "2026-01-02T03:04:05Z") sampleKey sampleRecord = sampleReport := by
  rw [reportRecord, signerInformation, sampleKey_fingerprint]
  rfl

def sampleJournal : Text := dumps (.obj sampleRecord)

set_option maxRecDepth 8000 in
theorem sampleJournal_loaded :
    JsonLoads.loadsText samplePlatform.toInterpreter sampleJournal = .ok (.obj sampleRecord) := by
  have readable : JsonLoads.readable samplePlatform.toInterpreter (.obj sampleRecord) = true := by rfl
  have plain : JsonLoads.ordered (.obj sampleRecord) = .obj sampleRecord := by rfl
  have mark : sampleJournal.head? ≠ some 0xFEFF := by
    obtain ⟨c, _, rest, form⟩ := JsonLoads.dumps_obj_head sampleRecord
    have brace : some (ofChar '\x7b') ≠ some 0xFEFF := by decide
    rw [sampleJournal, form]
    exact brace
  rw [JsonLoads.loadsText, if_neg mark, sampleJournal, JsonLoads.decode_dumps readable, plain]

def reportMembers : List (Text × ByteArray) :=
  [(installReportName, sampleBytes), (installSignatureName, sampleKey.sign sampleBytes),
    (installKeyName, sampleKey.publicKeyPem)]

theorem sampleReport_written : canonicalJsonBytes (.obj sampleReport) = some sampleBytes := by
  have empty : scalar [] = true := rfl
  refine JsonLoads.canonicalJsonBytes_getD ?_
  simp only [sampleReport, sampleRecord, List.cons_append, List.nil_append, isScalar, scalarMembers, scalarItems,
    scalar_text, empty, Bool.and_true]

set_option maxRecDepth 8000 in
theorem sampleReport_generated : produce samplePlatform sampleKey
      (.installReport sampleJournal (text "2026-01-02T03:04:05Z")) =
    .ok (⟨sampleBytes, sampleKey.sign sampleBytes⟩, SignedPackage.written reportMembers) := by
  have fields : (journalFields.all fun name => (member name sampleReport).isSome) = true := by decide
  have size : require (decide (3072 ≤ sampleKey.keySize)) Raised.valueError = .ok () := rfl
  have writable : ∀ m ∈ reportMembers, Writable m.1 := by
    simp only [reportMembers, List.forall_mem_cons]
    exact ⟨writable_text (by decide), writable_text (by decide), writable_text (by decide),
      fun m mem => absurd mem List.not_mem_nil⟩
  have archive := writeAll_total writable
  rw [reportMembers] at archive
  rw [produce, generateInstallReport, sampleJournal_loaded, ok_bind]
  simp only [dictionary, ok_bind, sampleReport_eq]
  rw [size, ok_bind, fields, require_true, ok_bind, canonical_eq_ok.mpr sampleReport_written, ok_bind, archive]
  rfl

set_option maxRecDepth 8000 in
theorem reportMembers_sized : Sized (SignedPackage.written reportMembers) := by
  have short : (dumps (.obj sampleReport)).length < 2 ^ 60 := by decide +kernel
  have bound := size_encodeUtf8 sampleReport_written
  intro m mem data content
  have signature : (sampleKey.sign sampleBytes).size < 2 ^ 63 := by decide
  have key : sampleKey.publicKeyPem.size < 2 ^ 63 := by decide
  have known : ∀ e ∈ reportMembers, e.2.size < 2 ^ 63 := by
    simp only [reportMembers, List.forall_mem_cons]
    exact ⟨by omega, signature, key, fun e mem => absurd mem List.not_mem_nil⟩
  obtain ⟨e, memE, rfl⟩ := List.mem_map.mp mem
  have same : e.2 = data := Except.ok.inj content
  rw [← same]
  exact known e memE

/-- The sample report names no files and is taken neither for a release nor for an
acceptance package. -/
theorem sample_separated : ∃ signed archive, produce samplePlatform sampleKey
      (.installReport sampleJournal (text "2026-01-02T03:04:05Z")) = .ok (signed, archive) ∧
    Separated samplePlatform signed (.installReport sampleJournal (text "2026-01-02T03:04:05Z")) := by
  refine ⟨_, _, sampleReport_generated, (separated_iff samplePlatform samplePlatform_floats sampleKey
    samplePlatform_signs _ _ _ sampleReport_generated reportMembers_sized).mpr ?_⟩
  intro record loaded files found
  cases sampleJournal_loaded.symm.trans loaded
  have none : member (text "files") sampleRecord = none := by decide
  rw [none] at found
  cases found

end Mirage.PackageSeparation
