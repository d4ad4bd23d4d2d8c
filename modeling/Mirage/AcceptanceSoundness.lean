import Mirage.AcceptancePackage
import Mirage.ReleaseSoundness

/-! What an accepted acceptance package and an accepted install report are. -/

namespace Mirage.AcceptanceSoundness
open PythonText Raw RowLocks SignedPackage ReleasePackage
open EvidenceExport (Dict)
open ExportSoundness (dictGet_eq_get? dictGet_of_get?)
open ReleaseSoundness (filesOr_eq_nil collect_fileErrors)

def Accepted (lib : Platform) (package : Package) (explicitKey : Option ByteArray) (trust : Trust) : Prop :=
  ∃ answer, AcceptancePackage.verifyAcceptancePackage lib package explicitKey trust = .ok answer ∧
    answer.valid = true

structure Signed (lib : Platform) (archive : Archive) (explicitKey : Option ByteArray) (trust : Trust)
    (message : ByteArray) (keyName signatureName : Text) (embedded : ByteArray)
    (resolution : TrustResolution) (key : ByteArray) : Prop where
  carried : read archive keyName = .ok embedded
  resolved : resolveTrustedKey lib explicitKey trust (some embedded) = .ok resolution
  found : resolution.keyBytes = some key
  verified : ∃ loaded, lib.loadPemPublicKey key = .ok loaded ∧ lib.isRsa loaded = true ∧
    (read archive signatureName >>= lib.verifyPss loaded (lib.sha256 message)) = .ok ()

structure Passed (lib : Platform) (archive : Archive) (explicitKey : Option ByteArray) (trust : Trust)
    (manifestBytes : ByteArray) (manifest : Raw) (files : Dict) : Prop where
  unique : (names archive).Nodup
  complete : ∀ name ∈ AcceptancePackage.required, name ∈ names archive
  manifestRead : read archive AcceptancePackage.manifestName = .ok manifestBytes
  loaded : JsonLoads.loads lib.toInterpreter manifestBytes = .ok manifest
  written : canonicalJsonBytes manifest = some manifestBytes
  declared : manifest.get? "files" = some (.obj files)
  expected : ∀ name ∈ names archive, name ∈ AcceptancePackage.required ++ files.map Prod.fst
  stored : ∀ file ∈ files, Stored lib archive file
  signed : ∃ embedded resolution key, Signed lib archive explicitKey trust manifestBytes
    AcceptancePackage.keyName AcceptancePackage.signatureName embedded resolution key

section
variable {lib : Platform} {archive : Archive} {explicitKey : Option ByteArray} {trust : Trust}
  {bytes : ByteArray} {manifest : Raw}

theorem openErrors_eq_nil : AcceptancePackage.openErrors archive = [] ↔
    (names archive).Nodup ∧ ∀ name ∈ AcceptancePackage.required, name ∈ names archive := by
  rw [AcceptancePackage.openErrors, List.append_eq_nil_iff, check_eq_nil, each_eq_nil, without_eq_nil,
    decide_eq_true_eq]

theorem signatureErrors_eq_nil :
    AcceptancePackage.signatureErrors lib archive explicitKey trust bytes = .ok [] ↔
      ∃ embedded resolution key, Signed lib archive explicitKey trust bytes
        AcceptancePackage.keyName AcceptancePackage.signatureName embedded resolution key := by
  constructor
  · intro clean
    rw [AcceptancePackage.signatureErrors, bind_eq_ok] at clean
    obtain ⟨embedded, carried, clean⟩ := clean
    rw [bind_eq_ok] at clean
    obtain ⟨resolution, resolved, clean⟩ := clean
    rw [bind_eq_ok] at clean
    obtain ⟨signature, signatureOk, clean⟩ := clean
    have clean := Except.ok.inj clean
    rw [List.append_eq_nil_iff] at clean
    rw [clean.2] at signatureOk
    obtain ⟨key, found, verified⟩ := resolvedErrors_eq_nil.mp signatureOk
    exact ⟨embedded, resolution, key, carried, resolved, found, rsaErrors_eq_nil.mp verified⟩
  · rintro ⟨embedded, resolution, key, signed⟩
    have errors := (resolveTrustedKey_sound signed.resolved signed.found).2.2
    have signature : resolvedErrors lib archive resolution bytes AcceptancePackage.signatureName
        "acceptance public key is not RSA" "acceptance signature mismatch"
        "acceptance signature verification could not proceed" = .ok [] :=
      resolvedErrors_eq_nil.mpr ⟨key, signed.found, rsaErrors_eq_nil.mpr signed.verified⟩
    rw [AcceptancePackage.signatureErrors, signed.carried, ok_bind, signed.resolved, ok_bind, signature,
      ok_bind, errors]
    rfl

theorem manifestErrors_eq_nil (opened : AcceptancePackage.openErrors archive = [])
    (manifestRead : read archive AcceptancePackage.manifestName = .ok bytes)
    (loaded : JsonLoads.loads lib.toInterpreter bytes = .ok manifest) :
    AcceptancePackage.manifestErrors lib archive explicitKey trust bytes manifest = .ok [] ↔
      ∃ files, Passed lib archive explicitKey trust bytes manifest files := by
  obtain ⟨unique, complete⟩ := openErrors_eq_nil.mp opened
  have whole : without AcceptancePackage.required (names archive) = [] := without_eq_nil.mpr complete
  constructor
  · intro clean
    rw [AcceptancePackage.manifestErrors, bind_eq_ok] at clean
    obtain ⟨written, canonical, clean⟩ := clean
    rw [bind_eq_ok] at clean
    obtain ⟨found, filesGet, clean⟩ := clean
    cases form : filesOr "acceptance files manifest is invalid" found with
    | mk kindErrors files =>
      rw [form] at clean
      simp only at clean
      rw [bind_eq_ok] at clean
      obtain ⟨fileErrors, filesOk, clean⟩ := clean
      rw [bind_eq_ok] at clean
      obtain ⟨trusted, trustedOk, clean⟩ := clean
      have clean := Except.ok.inj clean
      simp only [List.append_eq_nil_iff, check_eq_nil, decide_eq_true_eq, each_eq_nil,
        without_eq_nil] at clean
      obtain ⟨⟨⟨⟨rfl, rfl⟩, expected⟩, rfl⟩, rfl⟩ := clean
      rw [AcceptancePackage.trustErrors, if_pos whole] at trustedOk
      exact ⟨files, unique, complete, manifestRead, loaded, canonical_eq_ok.mp canonical,
        (dictGet_eq_get? filesGet).trans (filesOr_eq_nil.mp form), expected,
        collect_fileErrors.mp filesOk, signatureErrors_eq_nil.mp trustedOk⟩
  · rintro ⟨files, passed⟩
    have expected : each "unexpected file: " (without (names archive)
        (AcceptancePackage.required ++ files.map Prod.fst)) = [] :=
      each_eq_nil.mpr (without_eq_nil.mpr passed.expected)
    rw [AcceptancePackage.manifestErrors, canonical_eq_ok.mpr passed.written, ok_bind,
      dictGet_of_get? passed.declared, ok_bind, passed.declared, filesOr_eq_nil.mpr rfl]
    simp only
    rw [collect_fileErrors.mpr passed.stored, ok_bind, AcceptancePackage.trustErrors, if_pos whole,
      signatureErrors_eq_nil.mpr passed.signed, ok_bind, expected]
    simp [check, pure, Except.pure]

end

theorem accepted_iff {lib : Platform} {package : Package} {explicitKey : Option ByteArray} {trust : Trust} :
    Accepted lib package explicitKey trust ↔ ∃ archive bytes manifest files,
      package = .ok archive ∧ Passed lib archive explicitKey trust bytes manifest files := by
  constructor
  · rintro ⟨answer, verified, valid⟩
    rw [AcceptancePackage.verifyAcceptancePackage, bind_eq_ok] at verified
    obtain ⟨archive, rfl, verified⟩ := verified
    split at verified
    next =>
      cases verified
      cases valid
    next =>
      rw [bind_eq_ok] at verified
      obtain ⟨bytes, manifestRead, verified⟩ := verified
      rw [bind_eq_ok] at verified
      obtain ⟨manifest, loaded, verified⟩ := verified
      rw [bind_eq_ok] at verified
      obtain ⟨errors, errorsOk, verified⟩ := verified
      cases verified
      have clean := List.isEmpty_iff.mp valid
      rw [List.append_eq_nil_iff] at clean
      obtain ⟨opened, rfl⟩ := clean
      obtain ⟨files, passed⟩ := (manifestErrors_eq_nil opened manifestRead loaded).mp errorsOk
      exact ⟨archive, bytes, manifest, files, rfl, passed⟩
  · rintro ⟨archive, bytes, manifest, files, rfl, passed⟩
    have present := mem_names_of_read passed.manifestRead
    have opened := openErrors_eq_nil.mpr ⟨passed.unique, passed.complete⟩
    have clean := (manifestErrors_eq_nil opened passed.manifestRead passed.loaded).mpr ⟨files, passed⟩
    refine ⟨verdict [], ?_, rfl⟩
    rw [AcceptancePackage.verifyAcceptancePackage, ok_bind, if_neg (not_not_intro present),
      passed.manifestRead, ok_bind, passed.loaded, ok_bind, clean, ok_bind, opened]
    rfl

def InstallAccepted (lib : Platform) (package : Package) (publicKey : Option (Except Raised ByteArray))
    (trust : Trust) : Prop :=
  ∃ answer, verifyInstallReport lib package publicKey trust = .ok answer ∧ answer.valid = true

structure InstallPassed (lib : Platform) (archive : Archive) (trust : Trust) (content : ByteArray)
    (report : Raw) : Prop where
  unique : (names archive).Nodup
  members : ∀ name, name ∈ names archive ↔ name ∈ installRequired
  contentRead : read archive installReportName = .ok content
  loaded : JsonLoads.loads lib.toInterpreter content = .ok report
  written : isTrue report = true → canonicalJsonBytes report = some content
  algorithm : (signerOf report).get? "signature_algorithm" = some (.str signatureAlgorithm)
  signer : ∃ key explicitKey embedded resolution, Signed lib archive explicitKey trust content
    installKeyName installSignatureName embedded resolution key ∧
    (signerOf report).get? "public_key_sha256" = some (.str (fingerprint lib key))

theorem after_eq_ok {α : Type} {errors : List Text} {step : Except Raised α} {a : α} :
    after errors step = .ok a ↔ step = .ok a := by
  cases step <;> simp [after, Except.mapError]

theorem adding_eq_ok {errors all : List Text} {step : Except Raised (List Text)} :
    adding errors step = .ok all ↔ ∃ found, step = .ok found ∧ errors ++ found = all := by
  cases step <;> simp [adding, after, Except.mapError, Except.map]

theorem loadReport_eq_ok {lib : Platform} {content : ByteArray} {report : Raw} :
    loadReport lib content = .ok ([], report) ↔ JsonLoads.loads lib.toInterpreter content = .ok report := by
  unfold loadReport
  split
  next => simp_all
  next exc failed =>
    rw [failed]
    split <;> simp

theorem canonicalErrors_eq_nil {report : Raw} {content : ByteArray} :
    canonicalErrors report content = .ok [] ↔
      (isTrue report = true → canonicalJsonBytes report = some content) := by
  rw [canonicalErrors]
  cases true : isTrue report with
  | false => simp
  | true =>
    simp only [if_true, true_implies]
    rw [bind_eq_ok]
    constructor
    · rintro ⟨bytes, written, clean⟩
      have same := check_eq_nil.mp (Except.ok.inj clean)
      rw [decide_eq_true_eq] at same
      rw [← same]
      exact canonical_eq_ok.mp written
    · intro written
      refine ⟨content, canonical_eq_ok.mpr written, ?_⟩
      simp [check, pure, Except.pure]

theorem signerKeyErrors_eq_nil {lib : Platform} {signer : Raw} {resolution : TrustResolution}
    {key : ByteArray} (found : resolution.keyBytes = some key)
    (print : resolution.fingerprint = some (fingerprint lib key)) :
    signerKeyErrors signer resolution = .ok [] ↔ ∃ members, signer = .obj members ∧
      member (text "public_key_sha256") members = some (.str (fingerprint lib key)) := by
  rw [signerKeyErrors, found]
  simp only
  rw [bind_eq_ok, print]
  constructor
  · rintro ⟨value, got, clean⟩
    obtain ⟨members, form, known⟩ := dictGet_eq_ok.mp got
    have same := check_eq_nil.mp (Except.ok.inj clean)
    rw [Option.all_some, isText_iff] at same
    exact ⟨members, form, known.trans same⟩
  · rintro ⟨members, form, known⟩
    refine ⟨_, dictGet_eq_ok.mpr ⟨members, form, known⟩, ?_⟩
    rw [Option.all_some, isText_iff.mpr rfl]
    rfl

theorem algorithmErrors_eq_nil {signer : Raw} : algorithmErrors signer = .ok [] ↔
    ∃ members, signer = .obj members ∧
      member (text "signature_algorithm") members = some (.str signatureAlgorithm) := by
  rw [algorithmErrors, bind_eq_ok]
  constructor
  · rintro ⟨value, got, clean⟩
    obtain ⟨members, form, known⟩ := dictGet_eq_ok.mp got
    have same := check_eq_nil.mp (Except.ok.inj clean)
    rw [isText_iff] at same
    exact ⟨members, form, known.trans same⟩
  · rintro ⟨members, form, known⟩
    refine ⟨_, dictGet_eq_ok.mpr ⟨members, form, known⟩, ?_⟩
    rw [isText_iff.mpr rfl]
    rfl

theorem InstallAccepted.passed {lib : Platform} {package : Package}
    {publicKey : Option (Except Raised ByteArray)} {trust : Trust}
    (accepted : InstallAccepted lib package publicKey trust) : ∃ archive content report,
      package = .ok archive ∧ InstallPassed lib archive trust content report := by
  obtain ⟨answer, verified, valid⟩ := accepted
  unfold verifyInstallReport at verified
  split at verified
  next errors opened =>
    cases verified
    have clean : errors = [] := List.isEmpty_iff.mp valid
    rw [bind_eq_ok] at opened
    obtain ⟨archive, opened, inspected⟩ := opened
    rw [after_eq_ok] at opened
    rw [inspectInstall] at inspected
    split at inspected
    next whole =>
      rw [installErrors, bind_eq_ok] at inspected
      obtain ⟨content, contentOk, inspected⟩ := inspected
      rw [bind_eq_ok] at inspected
      obtain ⟨⟨jsonErrors, report⟩, reportOk, inspected⟩ := inspected
      rw [bind_eq_ok] at inspected
      obtain ⟨errors1, canonicalOk, inspected⟩ := inspected
      rw [bind_eq_ok] at inspected
      obtain ⟨embedded, carried, inspected⟩ := inspected
      rw [bind_eq_ok] at inspected
      obtain ⟨explicitKey, given, inspected⟩ := inspected
      rw [bind_eq_ok] at inspected
      obtain ⟨resolution, resolved, inspected⟩ := inspected
      rw [bind_eq_ok] at inspected
      obtain ⟨errors2, signatureOk, inspected⟩ := inspected
      rw [bind_eq_ok] at inspected
      obtain ⟨errors3, signerOk, algorithmOk⟩ := inspected
      rw [adding_eq_ok] at canonicalOk signatureOk signerOk algorithmOk
      rw [after_eq_ok] at contentOk reportOk carried resolved
      obtain ⟨canonicalFound, canonicalOk, rfl⟩ := canonicalOk
      obtain ⟨signatureFound, signatureOk, rfl⟩ := signatureOk
      obtain ⟨signerFound, signerOk, rfl⟩ := signerOk
      obtain ⟨algorithmFound, algorithmOk, all⟩ := algorithmOk
      rw [clean] at all
      simp only [List.append_eq_nil_iff, installOpenErrors, check_eq_nil, each_eq_nil, without_eq_nil,
        decide_eq_true_eq] at all
      obtain ⟨⟨⟨⟨⟨⟨⟨⟨unique, complete⟩, expected⟩, rfl⟩, rfl⟩, _⟩, rfl⟩, rfl⟩, rfl⟩ := all
      obtain ⟨key, found, verified⟩ := resolvedErrors_eq_nil.mp signatureOk
      have print := (resolveTrustedKey_sound resolved found).2.1
      obtain ⟨members, form, digest⟩ := (signerKeyErrors_eq_nil found print).mp signerOk
      obtain ⟨members', form', algorithm⟩ := algorithmErrors_eq_nil.mp algorithmOk
      refine ⟨archive, content, report, opened, unique, fun name => ⟨expected name, complete name⟩, contentOk,
        loadReport_eq_ok.mp reportOk, canonicalErrors_eq_nil.mp canonicalOk, ?_, key, explicitKey, embedded,
        resolution, ⟨carried, resolved, found, rsaErrors_eq_nil.mp verified⟩, ?_⟩
      · rw [form']
        exact algorithm
      · rw [form]
        exact digest
    next missing =>
      cases inspected
      rw [installOpenErrors, List.append_eq_nil_iff, List.append_eq_nil_iff] at clean
      exact absurd (each_eq_nil.mp clean.1.2) missing
  next =>
    split at verified
    next =>
      cases verified
      cases valid
    next => cases verified

end Mirage.AcceptanceSoundness
