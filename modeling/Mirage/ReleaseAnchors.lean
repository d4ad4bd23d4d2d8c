import Mirage.ServerInstaller
import Mirage.ReleaseSoundness
import Mirage.TrustAnchor

/-! The release verifications of an upgrade in server_installer.py, and the keys that each of them goes by:
the step `release-verify` names none, `images` and `sbom` name those that the installer was given. -/

namespace Mirage.ReleaseAnchors
open PythonText Raw RowLocks SignedPackage ReleasePackage ReleaseSoundness ServerInstaller
open EvidenceExport (Dict)

/-- `--trusted-public-key` and the file's content, `--trust-store`, the environment's directory, and what
the directories hold. -/
structure Anchors where
  trustedPublicKey : Option (Except Raised ByteArray)
  trust : Trust

def Anchors.installed (a : Anchors) : Trust := { a.trust with trustStoreDir := none }

def runtimeError (message : Text) : Raised := ⟨.other, text "RuntimeError", message⟩

section
variable (lib : Platform) (zipfile : ByteArray → Package) (a : Anchors)

def openPackage (p : PackageFile) : Package :=
  p.content.elim (.error ⟨.osError, text "FileNotFoundError", text p.path⟩) zipfile

def verification : Action → Option (Except Raised Verdict)
  | .verifyRelease (some p) => some (verifyRelease lib (openPackage zipfile p) none a.installed)
  | .verifyReleaseInventory _ (some p) =>
    some (verifyRelease lib (openPackage zipfile p) a.trustedPublicKey a.trust)
  | _ => none

def Passes (verdict : Except Raised Verdict) : Prop := ∃ answer, verdict = .ok answer ∧ answer.valid = true

def requireValid (verified : Verdict) : Except Raised Verdict :=
  if verified.valid then .ok verified
  else .error (runtimeError (text "release verification failed: " ++
    strOf lib.printable (.arr (verified.errors.map .str))))

def releaseVerify (p : PackageFile) : Except Raised Verdict := do
  let verified ← verifyRelease lib (openPackage zipfile p) none a.installed
  requireValid lib verified

def imageErrors : Raw → Except Raised Unit
  | .obj image =>
    match member (text "digest") image with
    | some (.str digest) =>
      if (text "sha256:").isPrefixOf digest then .ok ()
      else .error (runtimeError (text "container image entry lacks a sha256 digest"))
    | _ => .error (runtimeError (text "container image entry lacks a sha256 digest"))
  | _ => .error (runtimeError (text "container image entry lacks a sha256 digest"))

def imagesInventory (environment : String) (archive : Archive) : Except Raised Text := do
  let content ← read archive (text "container-image-digests.json")
  let value ← JsonLoads.loads lib.toInterpreter content
  match ← dictGet value "images" with
  | some (.arr images) =>
    if environment ∉ relaxedEnvironments ∧ images = [] then
      .error (runtimeError (text "production release has no pinned container image digests"))
    else do
      let _ ← images.mapM imageErrors
      return text "verified " ++ text (toString images.length) ++ text " pinned container image digests"
  | _ => .error (runtimeError (text "container image digest inventory is invalid"))

def sbomInventory (manifest : Raw) : Except Raised Text := do
  let (_, files) := filesOr "" (← dictGet manifest "files")
  let sboms := (files.map Prod.fst).filter fun name => (text "sbom/").isPrefixOf name
  if sboms = [] then .error (runtimeError (text "release contains no SBOM"))
  else return text "verified signed SBOM members: " ++ (text ", ").intercalate (sortedNames sboms)

def verifyReleaseInventory (environment : String) (kind : StepId) (p : PackageFile) : Except Raised Text := do
  let verified ← verifyRelease lib (openPackage zipfile p) a.trustedPublicKey a.trust
  let _ ← requireValid lib verified
  let archive ← openPackage zipfile p
  let content ← read archive releaseManifestName
  let manifest ← JsonLoads.loads lib.toInterpreter content
  if kind = .images then imagesInventory lib environment archive else sbomInventory manifest

def OneAnchor (i : Installer) : Prop :=
  ∀ step ∈ serverPlan i.executable .upgrade, ∀ p, i.package = some p →
    ∀ verdict, verification lib zipfile a (execute i .upgrade step) = some verdict →
      (Passes verdict ↔ Passes (verifyRelease lib (openPackage zipfile p) a.trustedPublicKey a.trust))

structure Intact (archive : Archive) (bytes : ByteArray) : Prop where
  unique : (names archive).Nodup
  signature : releaseSignatureName ∈ names archive
  manifestRead : read archive releaseManifestName = .ok bytes
  carried : ∃ embedded, readIfPresent archive releaseKeyName = .ok embedded
  declares : ∃ manifest files, JsonLoads.loads lib.toInterpreter bytes = .ok manifest ∧
    canonicalJsonBytes manifest = some bytes ∧
    manifest.get? "manifest_version" = some (.str releaseManifestVersion) ∧
    manifest.get? "files" = some (.obj files) ∧
    (∀ name ∈ names archive, name ∈ releaseManifestName :: releaseSignatureName :: files.map Prod.fst) ∧
    ∀ file ∈ files, Stored lib archive file

/-- The key is the one that the caller names, or else the directory's own copy of the one in the archive,
and not revoked there. -/
def Anchored (archive : Archive) (publicKey : Option (Except Raised ByteArray)) (trust : Trust)
    (key : ByteArray) : Prop :=
  publicKey = some (.ok key) ∨ publicKey = none ∧ ∃ keys revoked carried,
    loadTrustStore (TrustAnchor.storeOf trust) = .ok keys ∧
    loadRevoked lib (TrustAnchor.storeOf trust) = .ok revoked ∧
    readIfPresent archive releaseKeyName = .ok (some carried) ∧
    fingerprint lib carried ∉ revoked ∧ trustedKey lib keys (fingerprint lib carried) = some key

def SignedUnder (archive : Archive) (bytes : ByteArray) (publicKey : Option (Except Raised ByteArray))
    (trust : Trust) : Prop :=
  ∃ key loaded, Anchored lib archive publicKey trust key ∧ lib.loadPemPublicKey key = .ok loaded ∧
    lib.isRsa loaded = true ∧
    (read archive releaseSignatureName >>= lib.verifyPss loaded (lib.sha256 bytes)) = .ok ()

/-- Whoever signed the package, otherwise intact, is known to the installed directory exactly if the given
anchors know the signer. -/
def SameSigner (p : PackageFile) : Prop :=
  ∀ archive bytes, openPackage zipfile p = .ok archive → Intact lib archive bytes →
    (SignedUnder lib archive bytes none a.installed ↔
      SignedUnder lib archive bytes a.trustedPublicKey a.trust)

end

section
variable {lib : Platform} {zipfile : ByteArray → Package} {a : Anchors} {archive : Archive}
  {publicKey : Option (Except Raised ByteArray)} {trust : Trust} {bytes key : ByteArray}

theorem anchored_iff (carried : ∃ embedded, readIfPresent archive releaseKeyName = .ok embedded) :
    (∃ embedded explicitKey resolution, readIfPresent archive releaseKeyName = .ok embedded ∧
      readKey publicKey = .ok explicitKey ∧
      resolveTrustedKey lib explicitKey trust embedded = .ok resolution ∧ resolution.keyBytes = some key) ↔
    Anchored lib archive publicKey trust key := by
  obtain ⟨found, present⟩ := carried
  constructor
  · rintro ⟨embedded, explicitKey, resolution, here, given, resolved, known⟩
    match publicKey, given with
    | none, given =>
      cases given
      obtain ⟨keys, revoked, carried, loaded, listed, rfl, valid, stored⟩ :=
        TrustAnchor.resolved_iff.mp ⟨resolution, resolved, known⟩
      exact .inr ⟨rfl, keys, revoked, carried, loaded, listed, here, valid, stored⟩
    | some (.ok named), given =>
      cases given
      cases resolved
      cases known
      exact .inl rfl
    | some (.error exc), given => cases given
  · rintro (rfl | ⟨rfl, keys, revoked, carried, loaded, listed, here, valid, stored⟩)
    · exact ⟨found, some key, _, present, rfl, rfl, rfl⟩
    · obtain ⟨resolution, resolved, known⟩ :=
        TrustAnchor.resolved_iff.mpr ⟨keys, revoked, carried, loaded, listed, rfl, valid, stored⟩
      exact ⟨some carried, none, resolution, here, rfl, resolved, known⟩

theorem accepted_iff_signed {package : Package} : Accepted lib package publicKey trust ↔
    ∃ archive bytes, package = .ok archive ∧ Intact lib archive bytes ∧
      SignedUnder lib archive bytes publicKey trust := by
  rw [accepted_iff]
  constructor
  · rintro ⟨archive, bytes, manifest, files, rfl, passed⟩
    obtain ⟨embedded, explicitKey, resolution, key, signed⟩ := passed.signed
    obtain ⟨loaded, keyLoaded, rsa, verifies⟩ := signed.verified
    refine ⟨archive, bytes, rfl, ⟨passed.unique, passed.signature, passed.manifestRead,
      ⟨embedded, signed.carried⟩, manifest, files, passed.loaded, passed.written, passed.version, passed.declared,
      passed.expected, passed.stored⟩, key, loaded, ?_, keyLoaded, rsa, verifies⟩
    exact (anchored_iff ⟨embedded, signed.carried⟩).mp
      ⟨embedded, explicitKey, resolution, signed.carried, signed.given, signed.resolved, signed.found⟩
  · rintro ⟨archive, bytes, rfl, intact, key, loaded, anchored, keyLoaded, rsa, verifies⟩
    obtain ⟨manifest, files, jsonLoaded, written, version, declared, expected, stored⟩ := intact.declares
    obtain ⟨embedded, explicitKey, resolution, carried, given, resolved, found⟩ :=
      (anchored_iff intact.carried).mpr anchored
    exact ⟨archive, bytes, manifest, files, rfl, intact.unique, intact.signature, intact.manifestRead, jsonLoaded,
      written, version, declared, expected, stored, embedded, explicitKey, resolution, key, carried, given,
      resolved, found, loaded, keyLoaded, rsa, verifies⟩

theorem verifies_installed (i : Installer) : ∃ step ∈ serverPlan i.executable .upgrade,
    execute i .upgrade step = .verifyRelease i.package :=
  ⟨_, List.mem_of_getElem? (i := 14) rfl, rfl⟩

theorem execute_package {i : Installer} {operation : Operation} {step : InstallStep} {package : Option PackageFile}
    (verifies : execute i operation step = .verifyRelease package ∨
      ∃ kind, execute i operation step = .verifyReleaseInventory kind package) : package = i.package := by
  unfold execute at verifies
  split at verifies
  all_goals try simp at verifies
  · exact verifies.symm
  · split at verifies
    · unfold internalCheck at verifies
      split at verifies
      all_goals simp at verifies
      all_goals exact verifies.symm
    · simp at verifies

/-- Whether an upgrade's verifications agree. -/
theorem one_anchor_iff (lib : Platform) (zipfile : ByteArray → Package) (a : Anchors) (i : Installer) :
    OneAnchor lib zipfile a i ↔ ∀ p, i.package = some p → SameSigner lib zipfile a p := by
  constructor
  · intro one p named archive bytes opened intact
    obtain ⟨step, planned, executes⟩ := verifies_installed i
    have agree := one step planned p named (verifyRelease lib (openPackage zipfile p) none a.installed)
      (by rw [executes, named]; rfl)
    have accepted := fun publicKey trust =>
      @accepted_iff_signed lib publicKey trust (openPackage zipfile p)
    have signed : ∀ publicKey trust, Accepted lib (openPackage zipfile p) publicKey trust ↔
        SignedUnder lib archive bytes publicKey trust := by
      intro publicKey trust
      rw [accepted]
      constructor
      · rintro ⟨archive', bytes', opened', intact', signed⟩
        cases opened.symm.trans opened'
        cases intact.manifestRead.symm.trans intact'.manifestRead
        exact signed
      · exact fun signed => ⟨archive, bytes, opened, intact, signed⟩
    rw [← signed, ← signed]
    exact agree
  · intro same step planned p named verdict verifies
    cases action : execute i .upgrade step with
    | verifyRelease package =>
      rw [action, execute_package (.inl action), named] at verifies
      cases verifies
      refine Iff.trans accepted_iff_signed (Iff.trans ?_ accepted_iff_signed.symm)
      refine exists_congr fun archive => exists_congr fun bytes => ?_
      exact and_congr_right fun opened => and_congr_right fun intact => same p named archive bytes opened intact
    | verifyReleaseInventory kind package =>
      rw [action, execute_package (.inr ⟨kind, action⟩), named] at verifies
      cases verifies
      exact Iff.rfl
    | _ =>
      rw [action] at verifies
      cases verifies

end

def operatorAnchors : Anchors := ⟨some (.ok ReleaseSoundness.sampleKey), sampleTrust⟩

def sampleZip (_ : ByteArray) : Package := .ok (minimalRelease emptyBytes firstSignature)

/-- A release that only the operator's key has signed passes `images` and `sbom`, and `release-verify`
refuses it. -/
theorem operator_key_refused : ¬ OneAnchor samplePlatform sampleZip operatorAnchors secondRelease := by
  intro one
  obtain ⟨step, planned, executes⟩ := verifies_installed secondRelease
  have accepted : Passes (verifyRelease samplePlatform (.ok (minimalRelease emptyBytes firstSignature))
      (some (.ok ReleaseSoundness.sampleKey)) sampleTrust) := empty_accepted (.inl rfl)
  have installed := (one step planned _ rfl _ (by rw [executes]; rfl)).mpr accepted
  obtain ⟨archive, bytes, -, -, key, loaded, anchored, -⟩ := accepted_iff_signed.mp installed
  rcases anchored with given | ⟨-, keys, revoked, carried, store, -, -, -, known⟩
  · cases given
  · have none : keys = [] := (Except.ok.inj store).symm
    rw [none] at known
    cases known

end Mirage.ReleaseAnchors
