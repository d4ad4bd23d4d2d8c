import Mirage.ReportBinding
import Mirage.PackageSeparation

/-! The manifests of evidence exports and of report packages are signed by one signer, with one version and
one algorithm. The verifier of reports asks for the manifest's type; the verifier of exports does not. -/

namespace Mirage.ManifestSeparation
open PythonText Raw RowLocks SignedPackage OrderedJson
open EvidenceExport (Dict Signer ManifestInput manifestVersion signingAlgorithm rows objectName isObject
  requiredEvidenceFields sortEvidence signManifest buildManifest ValidItem)
open ManifestOrder (IsText textField)
open ExportRoundTrip (Signs readBack ordered_rows rows_injective utf8 decodeUtf8_utf8 scalar_hexDigest
  hexDigest_plain strip_newline)
open ReleasePackage (SignedBytes writeAll sortEntries)
open ReportPackage (Artifacts EvidenceManifest EvidenceBytes createReportPackage sortedEvidence evidenceName)

/-- The archive has these bytes as its manifest and its signature, and `zipfile` can return it: a name
ends before its first null. -/
structure Carries (archive : Archive) (signed : SignedBytes) : Prop where
  manifest : read archive (text "manifest.json") = .ok signed.message
  signature : read archive (text "manifest.sig") = .ok signed.signature
  proper : ∀ name ∈ names archive, (0 : CodePoint) ∉ name

inductive Content where
  | report (artifacts : Artifacts) (keyId exportMode : Text) (m : EvidenceManifest) (objects : EvidenceBytes)
  | «export» (m : ManifestInput)

section
variable (lib : Platform) (signer : Signer)

def produce : Content → Except Raised (Raw × SignedBytes)
  | .report artifacts keyId exportMode m objects => do
    let (manifest, archive) ← createReportPackage lib artifacts signer keyId exportMode m objects
    let message ← read archive (text "manifest.json")
    let signature ← read archive (text "manifest.sig")
    return (manifest, ⟨message, signature⟩)
  | .export m => do
    let manifest ← buildManifest lib m
    let signed ← signManifest lib manifest signer
    return (manifest, ⟨signed.canonicalBytes, signed.signature⟩)

def TakenAsExport (signed : SignedBytes) : Prop :=
  ∃ archive trust, Carries archive signed ∧
    ExportSoundness.Accepted lib (.ok archive) (some signer.publicKeyPem) trust

def TakenAsReport (signed : SignedBytes) : Prop :=
  ∃ archive trust expected, Carries archive signed ∧
    ReportBinding.Accepted lib (.ok archive) (some signer.publicKeyPem) trust expected

def Separated (signed : SignedBytes) : Content → Prop
  | .report _ _ _ _ _ => ¬ TakenAsExport lib signer signed
  | .export _ => ¬ TakenAsReport lib signer signed

structure Complete (d : Dict) : Prop where
  fields : ∀ name ∈ requiredEvidenceFields, (member name d).isSome
  evidenceId : IsText d "evidence_id"
  sha256 : IsText d "sha256"
  proper : (0 : CodePoint) ∉ textField d "evidence_id"
  content : ∃ data, hexDigest lib data = textField d "sha256"

structure Exportlike (ds : List Dict) : Prop where
  complete : ∀ d ∈ ds, Complete lib d
  consistent : ∀ d ∈ ds, ∀ e ∈ ds, textField d "evidence_id" = textField e "evidence_id" →
    textField d "sha256" = textField e "sha256"
  sorted : ∃ sorted, sortEvidence lib (ds.map readBack) = .ok sorted ∧
    equals (rows (ds.map readBack)) (rows sorted) = true

def Distinct : Content → Prop
  | .report _ _ _ m _ => ¬ Exportlike lib (sortedEvidence lib m)
  | .export _ => True

end

section
variable {lib : Platform} {signer : Signer} {manifest : Raw} {bytes signature : ByteArray} {ds : List Dict}

theorem readable_get? {v found : Raw} {name : String} (readable : JsonLoads.readable lib.toInterpreter v = true)
    (known : v.get? name = some found) : JsonLoads.readable lib.toInterpreter found = true := by
  cases v with
  | obj members => exact ((readable_obj _).mp readable).2 _ (mem_of_member known)
  | _ => cases known

theorem ordered_eq_str {v : Raw} {t : Text} (form : JsonLoads.ordered v = .str t) : v = .str t := by
  cases v with
  | str s => exact form
  | _ => cases form

theorem isText_of_readBack {d : Dict} (unique : (d.map Prod.fst).Nodup) {name : String} {t : Text}
    (found : member (text name) (readBack d) = some (.str t)) : IsText d name ∧ textField d name = t := by
  rw [readBack, member_ordered unique, Option.map_eq_some_iff] at found
  obtain ⟨v, known, form⟩ := found
  rw [ordered_eq_str form] at known
  have field : textField d name = t := by rw [textField, known]
  exact ⟨by rw [IsText, known, field], field⟩

theorem readBack_of_isText {d : Dict} (unique : (d.map Prod.fst).Nodup) {name : String} (known : IsText d name) :
    member (text name) (readBack d) = some (.str (textField d name)) := by
  rw [readBack, member_ordered unique, known]
  rfl

theorem isSome_readBack {d : Dict} (unique : (d.map Prod.fst).Nodup) (name : Text) :
    (member name (readBack d)).isSome = (member name d).isSome := by
  rw [readBack, member_ordered unique, Option.isSome_map]

theorem evidence_unique (readable : JsonLoads.readable lib.toInterpreter manifest = true)
    (evidence : manifest.get? "evidence_objects" = some (rows ds)) {d : Dict} (mem : d ∈ ds) :
    (d.map Prod.fst).Nodup := by
  have items := (readable_arr _).mp (readable_get? readable evidence)
  exact ((readable_obj _).mp (items (.obj d) (List.mem_map_of_mem mem))).1

theorem algorithm_ordered (readable : JsonLoads.readable lib.toInterpreter manifest = true)
    (algorithm : (manifest.get? "signing").bind (·.get? "algorithm") = some (.str signingAlgorithm)) :
    ((JsonLoads.ordered manifest).get? "signing").bind (·.get? "algorithm") =
      some (.str signingAlgorithm) := by
  rw [Option.bind_eq_some_iff] at algorithm
  obtain ⟨signing, found, algorithm⟩ := algorithm
  rw [get?_ordered readable, found, Option.map_some, Option.bind_some,
    get?_ordered (readable_get? readable found), algorithm]
  rfl

theorem loads_manifest (written : canonicalJsonBytes manifest = some bytes)
    (readable : JsonLoads.readable lib.toInterpreter manifest = true) {name : String} {found : Raw}
    (field : manifest.get? name = some found) :
    JsonLoads.loads lib.toInterpreter bytes = .ok (JsonLoads.ordered manifest) := by
  cases manifest with
  | obj members => exact JsonLoads.loads_canonical readable written
  | _ => cases field

/-! A manifest that is taken for an export. -/

def itemOf (d : Dict) (unique : (d.map Prod.fst).Nodup) (complete : Complete lib d) : ValidItem where
  dict := readBack d
  evidenceId := textField d "evidence_id"
  sha256 := textField d "sha256"
  complete name mem := by
    rw [isSome_readBack unique]
    exact complete.fields name mem
  id_eq := readBack_of_isText unique complete.evidenceId
  sha256_eq := readBack_of_isText unique complete.sha256

def objectMembers (content : Text → ByteArray) (ds : List Dict) : List (Text × ByteArray) :=
  ((ds.map fun d => textField d "evidence_id").dedup).map fun id => (objectName id, content id)

def exportMembers (lib : Platform) (signed : SignedBytes) (content : Text → ByteArray) (ds : List Dict) :
    List (Text × ByteArray) :=
  [(text "manifest.json", signed.message),
    (text "manifest.sha256", utf8 (hexDigest lib signed.message ++ text "\n")),
    (text "manifest.sig", signed.signature), (text "verification-report.txt", .empty)] ++ objectMembers content ds

theorem mem_objectMembers {content : Text → ByteArray} {m : Text × ByteArray} :
    m ∈ objectMembers content ds ↔ ∃ d ∈ ds,
      m = (objectName (textField d "evidence_id"), content (textField d "evidence_id")) := by
  simp only [objectMembers, List.mem_map, List.mem_dedup]
  constructor
  · rintro ⟨_, ⟨d, mem, rfl⟩, rfl⟩
    exact ⟨d, mem, rfl⟩
  · rintro ⟨d, mem, rfl⟩
    exact ⟨_, ⟨d, mem, rfl⟩, rfl⟩

theorem objectName_injective : Function.Injective objectName := fun _ _ same => List.append_cancel_left same

theorem exportMembers_unique (signed : SignedBytes) (content : Text → ByteArray) (ds : List Dict) :
    ((exportMembers lib signed content ds).map Prod.fst).Nodup := by
  rw [exportMembers, List.map_append, List.nodup_append']
  refine ⟨by simp only [List.map_cons, List.map_nil]; decide, ?_, ?_⟩
  · rw [objectMembers, List.map_map]
    exact (List.nodup_dedup _).map objectName_injective
  · intro name fixed object
    obtain ⟨m, mem, rfl⟩ := List.mem_map.mp object
    obtain ⟨d, -, rfl⟩ := mem_objectMembers.mp mem
    have plain : ∀ name ∈ [text "manifest.json", text "manifest.sha256", text "manifest.sig",
        text "verification-report.txt"], isObject name = false := by decide
    have starts := ExportSoundness.isObject_objectName (textField d "evidence_id")
    rw [plain _ fixed] at starts
    cases starts

theorem Exportlike.contents (like : Exportlike lib ds) : ∃ content : Text → ByteArray,
    ∀ d ∈ ds, hexDigest lib (content (textField d "evidence_id")) = textField d "sha256" := by
  have each : ∀ id, ∃ data, ∀ d ∈ ds, textField d "evidence_id" = id → hexDigest lib data = textField d "sha256" := by
    intro id
    by_cases listed : ∃ d ∈ ds, textField d "evidence_id" = id
    · obtain ⟨d, mem, named⟩ := listed
      obtain ⟨data, digest⟩ := (like.complete d mem).content
      exact ⟨data, fun e memE same => digest.trans (like.consistent d mem e memE (named.trans same.symm))⟩
    · exact ⟨.empty, fun d mem named => absurd ⟨d, mem, named⟩ listed⟩
  choose content digests using each
  exact ⟨content, fun d mem => digests _ d mem rfl⟩

theorem exportMembers_carries (like : Exportlike lib ds) (signed : SignedBytes) (content : Text → ByteArray) :
    Carries (written (exportMembers lib signed content ds)) signed where
  manifest := read_written (exportMembers_unique signed content ds) (.head _)
  signature := read_written (exportMembers_unique signed content ds) (.tail _ (.tail _ (.head _)))
  proper name mem := by
    rw [names_written, exportMembers, List.map_append] at mem
    rcases List.mem_append.mp mem with fixed | object
    · have plain : ∀ name ∈ [text "manifest.json", text "manifest.sha256", text "manifest.sig",
          text "verification-report.txt"], (0 : CodePoint) ∉ name := by decide
      exact plain name fixed
    · obtain ⟨m, memM, rfl⟩ := List.mem_map.mp object
      obtain ⟨d, memD, rfl⟩ := mem_objectMembers.mp memM
      intro zero
      rcases List.mem_append.mp zero with inside | inside
      · exact absurd inside (by decide)
      · exact (like.complete d memD).proper inside

/-- The bytes of a signed manifest are taken for an export exactly if its evidence objects could be those
of one. -/
theorem takenAsExport_iff (signs : Signs lib signer) (written : canonicalJsonBytes manifest = some bytes)
    (readable : JsonLoads.readable lib.toInterpreter manifest = true)
    (version : manifest.get? "manifest_version" = some (.str manifestVersion))
    (algorithm : (manifest.get? "signing").bind (·.get? "algorithm") = some (.str signingAlgorithm))
    (evidence : manifest.get? "evidence_objects" = some (rows ds)) :
    TakenAsExport lib signer ⟨bytes, signer.signDigest (lib.sha256 bytes)⟩ ↔ Exportlike lib ds := by
  have unique := fun d mem => evidence_unique (d := d) readable evidence mem
  have loaded := loads_manifest written readable version
  have readEvidence : (JsonLoads.ordered manifest).get? "evidence_objects" = some (rows (ds.map readBack)) := by
    rw [get?_ordered readable, evidence, Option.map_some, ordered_rows]
  constructor
  · rintro ⟨archive, trust, carries, accepted⟩
    obtain ⟨_, bytes', manifest', items, opened, passed⟩ := ExportSoundness.accepted_iff.mp accepted
    cases opened
    cases carries.manifest.symm.trans passed.manifestRead
    cases loaded.symm.trans passed.loaded
    have dicts : ds.map readBack = items.map ValidItem.dict :=
      rows_injective (Option.some.inj (readEvidence.symm.trans passed.evidence))
    -- each object is read back as an item
    have item : ∀ d ∈ ds, ∃ v ∈ items, v.dict = readBack d := by
      intro d mem
      have listed : readBack d ∈ items.map ValidItem.dict := dicts ▸ List.mem_map_of_mem mem
      exact List.mem_map.mp listed
    have fields : ∀ d ∈ ds, ∀ v : ValidItem, v.dict = readBack d →
        (IsText d "evidence_id" ∧ textField d "evidence_id" = v.evidenceId) ∧
          IsText d "sha256" ∧ textField d "sha256" = v.sha256 := by
      intro d mem v same
      exact ⟨isText_of_readBack (unique d mem) (same ▸ v.id_eq), isText_of_readBack (unique d mem) (same ▸ v.sha256_eq)⟩
    refine ⟨fun d mem => ?_, fun d mem e memE named => ?_, by rw [dicts]; exact passed.order⟩
    · obtain ⟨v, listed, same⟩ := item d mem
      obtain ⟨⟨idText, id⟩, hashText, hash⟩ := fields d mem v same
      obtain ⟨data, stored, digest⟩ := passed.stored v listed
      refine ⟨fun name required => ?_, idText, hashText, ?_, data, digest.trans hash.symm⟩
      · rw [← isSome_readBack (unique d mem), ← same]
        exact v.complete name required
      · rw [id]
        exact fun zero => carries.proper _ (mem_names_of_read stored) (List.mem_append_right _ zero)
    · obtain ⟨v, listed, same⟩ := item d mem
      obtain ⟨v', listed', same'⟩ := item e memE
      obtain ⟨⟨-, id⟩, -, hash⟩ := fields d mem v same
      obtain ⟨⟨-, id'⟩, -, hash'⟩ := fields e memE v' same'
      obtain ⟨data, stored, digest⟩ := passed.stored v listed
      obtain ⟨data', stored', digest'⟩ := passed.stored v' listed'
      rw [← id, named, id'] at stored
      cases stored.symm.trans stored'
      rw [hash, hash', ← digest, digest']
  · intro like
    obtain ⟨content, digests⟩ := like.contents
    generalize same : SignedBytes.mk bytes (signer.signDigest (lib.sha256 bytes)) = signed
    have message : signed.message = bytes := by rw [← same]
    have signature : signed.signature = signer.signDigest (lib.sha256 bytes) := by rw [← same]
    have members := @exportMembers_unique lib signed content ds
    have carries := exportMembers_carries like signed content
    have objectRead : ∀ d ∈ ds, read (SignedPackage.written (exportMembers lib signed content ds))
        (objectName (textField d "evidence_id")) = .ok (content (textField d "evidence_id")) :=
      fun d mem => read_written members (List.mem_append_right _ (mem_objectMembers.mpr ⟨d, mem, rfl⟩))
    let items := ds.attach.map fun d => itemOf d.1 (unique d.1 d.2) (like.complete d.1 d.2)
    have dicts : items.map ValidItem.dict = ds.map readBack := by
      rw [List.map_map]
      exact List.attach_map_val (f := readBack)
    have mem_items : ∀ v ∈ items, ∃ d ∈ ds, v.evidenceId = textField d "evidence_id" ∧
        v.sha256 = textField d "sha256" := by
      intro v mem
      obtain ⟨d, -, rfl⟩ := List.mem_map.mp mem
      exact ⟨d.1, d.2, rfl, rfl⟩
    refine ⟨_, ⟨none, none, fun _ => ⟨false, [], none⟩⟩, carries, ExportSoundness.accepted_iff.mpr
      ⟨_, bytes, JsonLoads.ordered manifest, items, rfl, ?_, ?_, message ▸ carries.manifest, ?_, loaded, ?_, ?_,
        algorithm_ordered readable algorithm, ?_, ?_, ?_, ?_, ?_⟩⟩
    · rw [names_written]
      exact members
    · rw [names_written, exportMembers, List.map_append]
      exact fun name required => List.mem_append_left _ ((by decide : ∀ name ∈ EvidenceExport.required,
        name ∈ [text "manifest.json", text "manifest.sha256", text "manifest.sig",
          text "verification-report.txt"]) name required)
    · refine ⟨_, _, read_written members (.tail _ (.head _)), decodeUtf8_utf8 ?_, ?_⟩
      · rw [scalar_append, scalar_hexDigest, scalar_text]
        rfl
      · rw [strip_newline fun p mem => (hexDigest_plain p mem).1, message]
    · rw [canonical_ordered, written]
    · rw [get?_ordered readable, version]
      rfl
    · rw [readEvidence, dicts]
    · rw [dicts]
      exact like.sorted
    · intro name mem object
      rw [names_written, exportMembers, List.map_append] at mem
      rcases List.mem_append.mp mem with fixed | found
      · have plain : ∀ name ∈ [text "manifest.json", text "manifest.sha256", text "manifest.sig",
            text "verification-report.txt"], isObject name = false := by decide
        rw [plain name fixed] at object
        cases object
      · obtain ⟨m, memM, rfl⟩ := List.mem_map.mp found
        obtain ⟨d, memD, rfl⟩ := mem_objectMembers.mp memM
        exact ⟨_, List.mem_map.mpr ⟨⟨d, memD⟩, List.mem_attach ds _, rfl⟩, rfl⟩
    · intro v mem
      obtain ⟨d, memD, id, hash⟩ := mem_items v mem
      rw [id, hash]
      exact ⟨_, objectRead d memD, digests d memD⟩
    · obtain ⟨embedded, carried⟩ := readIfPresent_written members (text "public-key.pem")
      obtain ⟨key, keyLoaded, rsa, verifies⟩ := signs
      refine ⟨embedded, _, signer.publicKeyPem, carried, rfl, rfl, ?_⟩
      rw [carries.signature, signature, ok_bind, EvidenceExport.verifySignature, keyLoaded, ok_bind, rsa]
      exact verifies _

end

/-! The package of a report has the manifest and the signature that were made for it. -/

section
variable {lib : Platform} {signer : Signer} {manifest : Raw} {archive : Archive}

theorem writeAll_members {members : List (Text × ByteArray)} (ok : writeAll members = .ok archive) :
    archive = members.map fun m => ⟨m.1.takeWhile fun p => p ≠ 0, .ok m.2⟩ := by
  induction members generalizing archive with
  | nil =>
    cases ok
    rfl
  | cons m rest ih =>
    rw [writeAll, bind_eq_ok] at ok
    obtain ⟨first, firstOk, ok⟩ := ok
    rw [bind_eq_ok] at ok
    obtain ⟨more, moreOk, ok⟩ := ok
    cases ok
    rw [EvidenceExport.writeZipBytes, bind_eq_ok] at firstOk
    obtain ⟨_, -, firstOk⟩ := firstOk
    cases firstOk
    rw [ih moreOk, List.map_cons]

theorem read_of_all {name : Text} {data : ByteArray} (present : name ∈ names archive)
    (same : ∀ m ∈ archive, m.name = name → m.content = .ok data) : read archive name = .ok data := by
  obtain ⟨m, mem, named⟩ := mem_names.mp present
  rw [SignedPackage.read]
  cases found : archive.reverse.find? fun m => m.name = name with
  | none =>
    have none := List.find?_eq_none.mp found m (List.mem_reverse.mpr mem)
    rw [decide_eq_true_eq] at none
    exact absurd named none
  | some m' =>
    have named' := List.find?_some found
    rw [decide_eq_true_eq] at named'
    exact same m' (List.mem_reverse.mp (List.mem_of_find?_eq_some found)) named'

theorem takeWhile_text {s : String} (plain : s.toList.all (fun c => c.toNat ≠ 0) = true) :
    (text s).takeWhile (fun p => p ≠ 0) = text s :=
  List.takeWhile_eq_self_iff.mpr fun p mem => decide_eq_true ((ExportRoundTrip.writable_text plain).2 p mem)

theorem evidenceName_takeWhile (id : Text) :
    (evidenceName id).takeWhile (fun p => p ≠ 0) = evidenceName (id.takeWhile fun p => p ≠ 0) := by
  have plain : ∀ p ∈ text "evidence/", decide (p ≠ 0) = true := fun p mem =>
    decide_eq_true ((ExportRoundTrip.writable_text (by decide)).2 p mem)
  rw [evidenceName, List.takeWhile_append_of_pos plain, evidenceName]

theorem createReportPackage_signed {artifacts : Artifacts} {keyId exportMode : Text} {m : EvidenceManifest}
    {objects : EvidenceBytes}
    (created : createReportPackage lib artifacts signer keyId exportMode m objects = .ok (manifest, archive)) :
    ∃ bytes, canonicalJsonBytes manifest = some bytes ∧ read archive (text "manifest.json") = .ok bytes ∧
      read archive (text "manifest.sig") = .ok (signer.signDigest (lib.sha256 bytes)) := by
  simp only [createReportPackage, bind_eq_ok, pure, Except.pure, Except.ok.injEq, Prod.mk.injEq] at created
  obtain ⟨_, _, _, _, _, _, _, _, verification, _, references, _, _, _, _, _, signed, signing, line, _, built, members,
    rfl, rfl⟩ := created
  rw [signManifest, bind_eq_ok] at signing
  obtain ⟨bytes, canonicalOk, signing⟩ := signing
  cases signing
  refine ⟨bytes, canonical_eq_ok.mp canonicalOk, ?_⟩
  have listed := writeAll_members members
  let signedMembers := [(text "manifest.json", bytes), (text "manifest.sig", signer.signDigest (lib.sha256 bytes))]
  -- no other member has the name of one of the two
  have head : ∀ e ∈ [(text "manifest.json", bytes), (text "manifest.sha256", line),
      (text "manifest.sig", signer.signDigest (lib.sha256 bytes)), (text "public-key.pem", signer.publicKeyPem)],
      ∀ s ∈ signedMembers, e.1.takeWhile (fun p => p ≠ 0) = s.1 → e.2 = s.2 := by
    intro e memE s memS named
    simp only [signedMembers, List.mem_cons, List.not_mem_nil, or_false] at memE memS
    rcases memE with rfl | rfl | rfl | rfl <;> rcases memS with rfl | rfl
    all_goals first
      | rfl
      | rw [takeWhile_text (by decide)] at named
        dsimp only at named
        exact absurd named (by decide)
  have files : ∀ e ∈ sortEntries (ReportPackage.reportFiles artifacts verification references),
      ∀ s ∈ signedMembers, e.1.takeWhile (fun p => p ≠ 0) ≠ s.1 := by
    intro e memE s memS
    have file := (List.mem_insertionSort _).mp memE
    simp only [ReportPackage.reportFiles, signedMembers, List.mem_cons, List.not_mem_nil, or_false] at file memS
    rcases file with rfl | rfl | rfl | rfl | rfl | rfl | rfl <;> rcases memS with rfl | rfl
    all_goals
      rw [takeWhile_text (by decide)]
      dsimp only
      decide
  have embedded : ∀ e ∈ (sortEntries objects.entries).map (fun e => (evidenceName e.1, e.2)),
      ∀ s ∈ signedMembers, e.1.takeWhile (fun p => p ≠ 0) ≠ s.1 := by
    intro e memE s memS
    obtain ⟨o, -, rfl⟩ := List.mem_map.mp memE
    rw [evidenceName_takeWhile]
    have fixed : ∀ name ∈ [text "manifest.json", text "manifest.sig"], name ∈ ReportBinding.fixedNames := by decide
    exact (ReportBinding.evidenceName_ne (fixed s.1 (List.mem_map_of_mem memS))).symm
  have reads : ∀ s ∈ signedMembers, s.1.takeWhile (fun p => p ≠ 0) = s.1 →
      s ∈ [(text "manifest.json", bytes), (text "manifest.sha256", line),
        (text "manifest.sig", signer.signDigest (lib.sha256 bytes)), (text "public-key.pem", signer.publicKeyPem)] →
      read built s.1 = .ok s.2 := by
    intro s memS plain memHead
    refine read_of_all (mem_names.mpr ⟨⟨s.1.takeWhile fun p => p ≠ 0, .ok s.2⟩, ?_, plain⟩) fun m mem named => ?_
    · rw [listed]
      exact List.mem_map.mpr ⟨s, List.mem_append_left _ (List.mem_append_left _ memHead), rfl⟩
    · rw [listed] at mem
      obtain ⟨e, memE, rfl⟩ := List.mem_map.mp mem
      rcases List.mem_append.mp memE with memE | memE
      · rcases List.mem_append.mp memE with memE | memE
        · exact congrArg Except.ok (head e memE s memS named)
        · exact absurd named (files e memE s memS)
      · exact absurd named (embedded e memE s memS)
  exact ⟨reads _ (.head _) (takeWhile_text (by decide)) (.head _),
    reads _ (.tail _ (.head _)) (takeWhile_text (by decide)) (.tail _ (.tail _ (.head _)))⟩

theorem buildManifest_untyped {m : ManifestInput} (built : buildManifest lib m = .ok manifest) :
    (∃ members, manifest = .obj members) ∧ manifest.get? "manifest_type" = none := by
  simp only [buildManifest, bind_eq_ok, pure, Except.pure, Except.ok.injEq] at built
  obtain ⟨_, _, _, _, _, _, _, _, _, _, _, _, _, _, _, _, rfl⟩ := built
  exact ⟨⟨_, rfl⟩, rfl⟩

theorem not_takenAsReport {signed : SignedBytes} (written : canonicalJsonBytes manifest = some signed.message)
    (readable : JsonLoads.readable lib.toInterpreter manifest = true) (form : ∃ members, manifest = .obj members)
    (untyped : manifest.get? "manifest_type" = none) : ¬ TakenAsReport lib signer signed := by
  rintro ⟨archive, trust, expected, carries, accepted⟩
  obtain ⟨members, rfl⟩ := form
  obtain ⟨-, files, embedded, passed⟩ := accepted.passed
    ⟨carries.manifest, JsonLoads.loads_canonical readable written⟩
  have head := passed.head
  rw [ReportPackage.headErrors, bind_eq_ok] at head
  obtain ⟨_, -, head⟩ := head
  rw [bind_eq_ok] at head
  obtain ⟨_, -, head⟩ := head
  rw [bind_eq_ok] at head
  obtain ⟨kind, kindGet, head⟩ := head
  rw [bind_eq_ok] at head
  obtain ⟨_, -, head⟩ := head
  rw [bind_eq_ok] at head
  obtain ⟨_, -, head⟩ := head
  rw [bind_eq_ok] at head
  obtain ⟨_, -, head⟩ := head
  have clean := Except.ok.inj head
  simp only [List.append_eq_nil_iff, check_eq_nil, isText_iff] at clean
  have typed := ExportSoundness.dictGet_eq_get? kindGet
  rw [get?_ordered readable, untyped, clean.1.1.2] at typed
  cases typed

theorem report_taken_iff (signs : Signs lib signer) {artifacts : Artifacts} {keyId exportMode : Text}
    {m : EvidenceManifest} {objects : EvidenceBytes} {signed : SignedBytes}
    (produced : produce lib signer (.report artifacts keyId exportMode m objects) = .ok (manifest, signed))
    (readable : JsonLoads.readable lib.toInterpreter manifest = true) :
    TakenAsExport lib signer signed ↔ Exportlike lib (sortedEvidence lib m) := by
  rw [produce, bind_eq_ok] at produced
  obtain ⟨⟨manifest', archive⟩, created, produced⟩ := produced
  obtain ⟨bytes, written, message, signature⟩ := createReportPackage_signed created
  dsimp only at produced
  rw [message, ok_bind, signature, ok_bind] at produced
  cases produced
  obtain ⟨manifestId, sha256, verification, references, rfl⟩ := ReportBinding.createReportPackage_manifest created
  exact takenAsExport_iff signs written readable rfl rfl rfl

end

/-- Which signed manifests are kept apart, for every signer and every content. -/
theorem manifests_separated_iff (lib : Platform) (signer : Signer) (signs : Signs lib signer) (content : Content)
    (manifest : Raw) (signed : SignedBytes) (produced : produce lib signer content = .ok (manifest, signed))
    (readable : JsonLoads.readable lib.toInterpreter manifest = true) :
    Separated lib signer signed content ↔ Distinct lib content := by
  cases content with
  | report artifacts keyId exportMode m objects => exact not_congr (report_taken_iff signs produced readable)
  | «export» m =>
    rw [produce, bind_eq_ok] at produced
    obtain ⟨manifest', built, produced⟩ := produced
    rw [bind_eq_ok] at produced
    obtain ⟨signed', signing, produced⟩ := produced
    cases produced
    rw [signManifest, bind_eq_ok] at signing
    obtain ⟨bytes, canonicalOk, signing⟩ := signing
    cases signing
    obtain ⟨form, untyped⟩ := buildManifest_untyped built
    exact iff_of_true (not_takenAsReport (canonical_eq_ok.mp canonicalOk) readable form untyped) trivial

open ExportRoundTrip (openPlatform openPlatform_signs sampleSigner sampleInput sampleInput_exportable
  serialisable_manifest writable_text)

/-- An export with one log. -/
theorem export_kept_apart : ∃ manifest signed,
    produce openPlatform sampleSigner (.export (sampleInput [] [ExportSoundness.sampleItem])) =
        .ok (manifest, signed) ∧
      Separated openPlatform sampleSigner signed (.export (sampleInput [] [ExportSoundness.sampleItem])) := by
  obtain ⟨bytes, written, built, signed⟩ := sampleInput_exportable.signed sampleSigner
  have produced : ∃ signed, produce openPlatform sampleSigner
      (.export (sampleInput [] [ExportSoundness.sampleItem])) = .ok (.obj (ManifestOrder.sortedManifest
        (sampleInput [] [ExportSoundness.sampleItem])), signed) := by
    rw [produce, built, ok_bind, signed, ok_bind]
    exact ⟨_, rfl⟩
  obtain ⟨signed, produced⟩ := produced
  exact ⟨_, _, produced, (manifests_separated_iff openPlatform sampleSigner openPlatform_signs _ _ _ produced
    (serialisable_manifest sampleInput_exportable.serialisable).1).mpr trivial⟩

/-! A report on a case without evidence. -/

def reportId : Raw := .str (text "01ARZ3NDEKTSV4RRFFQ69G5FAV")

def evidenceManifestId : Raw := .str (text "01ARZ3NDEKTSV4RRFFQ69G5FAW")

def emptyArtifacts : Artifacts :=
  ⟨[(text "report_id", reportId), (text "evidence_manifest_id", evidenceManifestId)], "%PDF-1.7".toUTF8,
    "PK".toUTF8, "{}".toUTF8⟩

def emptyEvidence : EvidenceManifest := ⟨.obj [(text "evidence_objects", .arr [])], [], rfl⟩

def emptyReport : Content :=
  .report emptyArtifacts (text "LOCAL_DEVELOPMENT_KEY") (text "METADATA_ONLY") emptyEvidence ⟨[], List.nodup_nil⟩

def emptyManifest (sha256 : Text) (verification references : ByteArray) : Raw :=
  ReportPackage.reportManifest openPlatform emptyArtifacts (text "LOCAL_DEVELOPMENT_KEY") (text "METADATA_ONLY")
    evidenceManifestId sha256 [] (ReportPackage.reportFiles emptyArtifacts verification references) []

theorem emptyFiles_writable {verification references : ByteArray} :
    ∀ e ∈ ReportPackage.reportFiles emptyArtifacts verification references, ExportRoundTrip.Writable e.1 := by
  simp only [ReportPackage.reportFiles, List.forall_mem_cons]
  exact ⟨writable_text (by decide), writable_text (by decide), writable_text (by decide),
    writable_text (by decide), writable_text (by decide), writable_text (by decide), writable_text (by decide),
    fun e mem => absurd mem List.not_mem_nil⟩

theorem emptyManifest_serialisable {sha256 : Text} {verification references : ByteArray}
    (proper : scalar sha256 = true) (smallVerification : verification.size < 2 ^ 63)
    (smallReferences : references.size < 2 ^ 63) :
    ExportRoundTrip.Serialisable openPlatform (emptyManifest sha256 verification references) := by
  have small : ∀ e ∈ ReportPackage.reportFiles emptyArtifacts verification references, e.2.size < 2 ^ 63 := by
    simp only [ReportPackage.reportFiles, List.forall_mem_cons]
    exact ⟨by decide, by decide, by decide, smallVerification, by decide +kernel, by decide +kernel, smallReferences,
      fun e mem => absurd mem List.not_mem_nil⟩
  have unique : ((ReportPackage.reportFiles emptyArtifacts verification references).map Prod.fst).Nodup := by
    simp only [ReportPackage.reportFiles, List.map_cons, List.map_nil]
    decide
  refine ExportRoundTrip.serialisable_obj (by simp only [List.map_cons, List.map_nil]; decide) ?_ ?_
  · simp only [List.forall_mem_cons, scalar_text, true_and, List.not_mem_nil, false_imp_iff, implies_true]
  · simp only [List.forall_mem_cons]
    refine ⟨⟨rfl, rfl⟩, ⟨rfl, rfl⟩, ⟨rfl, rfl⟩, ⟨rfl, rfl⟩, ⟨rfl, rfl⟩, ⟨rfl, proper⟩, ⟨rfl, rfl⟩, ⟨?_, ?_⟩,
      ⟨rfl, rfl⟩, ⟨rfl, rfl⟩, fun m mem => absurd mem List.not_mem_nil⟩
    · exact ReleaseSoundness.readable_fileManifest unique small
    · exact PackageSeparation.scalar_fileManifest openPlatform fun e mem => (emptyFiles_writable e mem).1

def emptyMembers (bytes verification references : ByteArray) : List (Text × ByteArray) :=
  [(text "manifest.json", bytes), (text "manifest.sha256", utf8 (hexDigest openPlatform bytes ++ text "\n")),
    (text "manifest.sig", sampleSigner.signDigest (openPlatform.sha256 bytes)),
    (text "public-key.pem", sampleSigner.publicKeyPem)] ++
    sortEntries (ReportPackage.reportFiles emptyArtifacts verification references) ++ []

theorem emptyMembers_writable {bytes verification references : ByteArray} :
    ∀ m ∈ emptyMembers bytes verification references, ExportRoundTrip.Writable m.1 := by
  intro m mem
  rw [emptyMembers, List.append_nil] at mem
  rcases List.mem_append.mp mem with head | file
  · have plain : ∀ name ∈ [text "manifest.json", text "manifest.sha256", text "manifest.sig", text "public-key.pem"],
        ExportRoundTrip.Writable name := by
      simp only [List.forall_mem_cons]
      exact ⟨writable_text (by decide), writable_text (by decide), writable_text (by decide),
        writable_text (by decide), fun e mem => absurd mem List.not_mem_nil⟩
    exact plain m.1 (List.mem_map_of_mem head)
  · exact emptyFiles_writable m ((List.mem_insertionSort _).mp file)

theorem emptyReport_created : ∃ manifest archive, createReportPackage openPlatform emptyArtifacts sampleSigner
    (text "LOCAL_DEVELOPMENT_KEY") (text "METADATA_ONLY") emptyEvidence ⟨[], List.nodup_nil⟩ =
      .ok (manifest, archive) ∧ JsonLoads.readable openPlatform.toInterpreter manifest = true := by
  obtain ⟨verification, verificationOk, smallVerification⟩ :=
    PackageSeparation.canonical_small (v := ReportPackage.verificationRecord reportId) (by rfl) (by decide +kernel)
  obtain ⟨references, referencesOk, smallReferences⟩ := PackageSeparation.canonical_small
    (v := ReportPackage.evidenceReferences (text "METADATA_ONLY") [] []) (by rfl) (by decide +kernel)
  obtain ⟨evidence, evidenceOk, -⟩ :=
    PackageSeparation.canonical_small (v := emptyEvidence.value) (by rfl) (by decide +kernel)
  have serialisable := emptyManifest_serialisable (scalar_hexDigest openPlatform evidence) smallVerification
    smallReferences
  have writtenOk := JsonLoads.canonicalJsonBytes_getD serialisable.2
  generalize ((emptyManifest (hexDigest openPlatform evidence) verification references).canonicalJsonBytes).getD .empty =
    bytes at writtenOk
  have signing := @ExportRoundTrip.signManifest_eq openPlatform _ _ sampleSigner writtenOk
  have line : scalar (hexDigest openPlatform bytes ++ text "\n") = true := by
    rw [scalar_append, scalar_hexDigest, scalar_text]
    rfl
  have noEvidence : sortedEvidence openPlatform emptyEvidence = [] := rfl
  have noObjects : EvidenceBytes.ids ⟨[], List.nodup_nil⟩ = [] := rfl
  have noNames : sortedNames [] = [] := rfl
  have noEntries : sortEntries [] = [] := rfl
  have mode : decide (text "METADATA_ONLY" ∈ ReportPackage.exportModes) = true := by decide +kernel
  have checked : ReportPackage.checkMode (text "METADATA_ONLY") [] [] = .ok () := by rfl
  refine ⟨_, written (emptyMembers bytes verification references), ?_, serialisable.1⟩
  rw [createReportPackage, noEvidence, noObjects, noEntries, mode]
  simp only [bind_eq_ok, pure, Except.pure, Except.ok.injEq, Prod.mk.injEq]
  refine ⟨(), rfl, [], rfl, (), checked, reportId, rfl, verification, verificationOk, references, ?_,
    evidence, evidenceOk, evidenceManifestId, rfl, _, signing, _, ExportRoundTrip.encoded_eq line, _,
    PackageSeparation.writeAll_total emptyMembers_writable, rfl, rfl⟩
  rw [noNames]
  exact referencesOk

theorem emptyReport_produced : ∃ manifest signed,
    produce openPlatform sampleSigner emptyReport = .ok (manifest, signed) ∧
      JsonLoads.readable openPlatform.toInterpreter manifest = true := by
  obtain ⟨manifest, archive, created, readable⟩ := emptyReport_created
  obtain ⟨bytes, -, message, signature⟩ := createReportPackage_signed created
  refine ⟨manifest, ⟨bytes, sampleSigner.signDigest (openPlatform.sha256 bytes)⟩, ?_, readable⟩
  rw [emptyReport, produce, created, ok_bind]
  dsimp only
  rw [message, ok_bind, signature, ok_bind]
  rfl

/-- The manifest of the report and its signature pass for those of an export. -/
theorem emptyReport_taken : ∃ manifest signed,
    produce openPlatform sampleSigner emptyReport = .ok (manifest, signed) ∧
      ¬ Separated openPlatform sampleSigner signed emptyReport := by
  obtain ⟨manifest, signed, produced, readable⟩ := emptyReport_produced
  have like : Exportlike openPlatform [] := ⟨nofun, nofun, [], rfl, rfl⟩
  exact ⟨manifest, signed, produced, not_not_intro ((report_taken_iff openPlatform_signs produced readable).mpr like)⟩

end Mirage.ManifestSeparation
