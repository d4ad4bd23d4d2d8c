import Mirage.EvidenceExport

/-! Release bundles and install reports of release.py: what is signed, what is
written into the archive, and how an archive is verified. -/

namespace Mirage.ReleasePackage
open PythonText Raw RowLocks SignedPackage
open EvidenceExport (Dict encoded writeZipBytes)

structure SigningKey where
  keySize : ℕ
  sign : ByteArray → ByteArray
  publicKeyPem : ByteArray

structure Verdict where
  valid : Bool
  errors : List Text

def verdict (errors : List Text) : Verdict := ⟨errors.isEmpty, errors⟩

def signatureAlgorithm : Text := text "RSA-PSS-SHA256"

def put (entries : List (Text × ByteArray)) (name : Text) (data : ByteArray) :
    List (Text × ByteArray) :=
  match entries with
  | [] => [(name, data)]
  | (other, old) :: rest =>
    if other = name then (name, data) :: rest else (other, old) :: put rest name data

def sortEntries (entries : List (Text × ByteArray)) : List (Text × ByteArray) :=
  entries.insertionSort fun a b => a.1 ≤ b.1

def writeAll : List (Text × ByteArray) → Except Raised Archive
  | [] => .ok []
  | (name, data) :: rest => do
    let m ← writeZipBytes name data
    let more ← writeAll rest
    return m :: more

section
variable (lib : Platform)

def fileRecord (data : ByteArray) : Raw :=
  .obj [(text "sha256", .str (hexDigest lib data)), (text "size_bytes", .int data.size)]

/-- `{name: {"sha256": …, "size_bytes": …} for name, data in sorted(entries.items())}`. -/
def fileManifest (entries : List (Text × ByteArray)) : Raw :=
  .obj ((sortEntries entries).map fun e => (e.1, fileRecord lib e.2))

def releaseManifestVersion : Text := text "mirage-release/1.0"

def releaseManifestName : Text := text "release-manifest.json"

def releaseSignatureName : Text := text "release-manifest.sig"

def releaseKeyName : Text := text "public-keys/release-signing.pem"

def relativeFiles : List String :=
  ["scripts/install-server", "scripts/upgrade-server", "scripts/rollback-server",
    "scripts/uninstall-server", "scripts/verify-install-report", "scripts/install-mirage-package",
    "installers/endpoint/Product.wxs", "installers/endpoint/Bundle.wxs", "installers/endpoint/build.ps1",
    "installers/sandbox/Product.wxs", "installers/sandbox/bootstrap.ps1", "config/schema.json",
    "docs/runbooks/server-installer.md", "docs/runbooks/endpoint-installer.md",
    "docs/runbooks/sandbox-installer.md", "docs/runbooks/release-verification.md"]

/-- What `build_release` is given and finds: the file of each relative path, the wheel that pip
built, and the descriptions of schemas, migrations and dependencies. -/
structure ReleaseInput where
  version : Text
  createdAt : Text
  builderPlatform : Text
  file : String → Option ByteArray
  wheelName : Text
  wheelName_proper : (0 : CodePoint) ∉ wheelName
  wheel : ByteArray
  endpointPackage : Option ByteArray
  sandboxPackage : Option ByteArray
  contracts : Raw
  migrations : Raw
  components : Raw

/-- `version.lower()` has nothing but these characters; above ASCII only two
letters have a lower case among them, the Kelvin sign and the dotted capital I,
and the second one brings a dot along. -/
def versionCharacter (p : CodePoint) : Bool :=
  isDigit p || between 'a' 'z' p || between 'A' 'Z' p || p = ofChar '.' || p = ofChar '-' ||
    p.val = 0x212A

def relativeEntries (r : ReleaseInput) : List String → Except Raised (List (Text × ByteArray))
  | [] => .ok []
  | relative :: rest => do
    let data ← present (r.file relative) ⟨.osError, text "FileNotFoundError", text relative⟩
    let more ← relativeEntries r rest
    return (text relative, data) :: more

def putOptional (entries : List (Text × ByteArray)) (name : String) :
    Option ByteArray → List (Text × ByteArray)
  | none => entries
  | some data => put entries (text name) data

def sbom (r : ReleaseInput) : Raw :=
  .obj [(text "bomFormat", .str (text "CycloneDX")), (text "specVersion", .str (text "1.6")),
    (text "version", .int 1),
    (text "metadata", .obj [(text "component", .obj [(text "type", .str (text "application")),
      (text "name", .str (text "mirage")), (text "version", .str r.version)])]),
    (text "components", r.components)]

def imageDigests : Raw :=
  .obj [(text "images", .arr []),
    (text "limitation", .str (text "Image digests are populated by CI release builds; this source bundle does not claim that container images were pushed."))]

def releaseNotes (version : Text) : Text :=
  text "# Mirage " ++ version ++
    text "\n\nControlled-lab release bundle. Verify signatures and hashes before installation.\n"

def upgradeNotes : ByteArray :=
  "Run scripts/upgrade-server only after scripts/verify-release succeeds.\n".toUTF8

def rollbackNotes : ByteArray :=
  "Use scripts/rollback-server with the recorded prior release and explicit confirmation.\n".toUTF8

def knownLimitations : ByteArray :=
  "Windows compilation, Authenticode signing, and Profile B acceptance are LAB_VERIFICATION_REQUIRED until their result records say PASS.\n".toUTF8

def releaseEntries (r : ReleaseInput) (key : SigningKey) : Except Raised (List (Text × ByteArray)) := do
  let entries ← relativeEntries r relativeFiles
  let entries := put entries (text "packages/" ++ r.wheelName) r.wheel
  let entries := putOptional entries "packages/MirageEndpoint.msi" r.endpointPackage
  let entries := putOptional entries "packages/MirageSandbox.msi" r.sandboxPackage
  let entries := put entries (text "manifests/contracts.json") (← canonical r.contracts)
  let entries := put entries (text "manifests/migrations.json") (← canonical r.migrations)
  let entries := put entries (text "sbom/mirage-source.cdx.json") (← canonical (sbom r))
  let entries := put entries (text "container-image-digests.json") (← canonical imageDigests)
  let entries := put entries releaseKeyName key.publicKeyPem
  let entries := put entries (text "RELEASE-NOTES.md") (← encoded (releaseNotes r.version))
  let entries := put entries (text "UPGRADE.md") upgradeNotes
  let entries := put entries (text "ROLLBACK.md") rollbackNotes
  return put entries (text "KNOWN-LIMITATIONS.md") knownLimitations

def releaseManifest (r : ReleaseInput) (entries : List (Text × ByteArray)) : Raw :=
  .obj [(text "manifest_version", .str releaseManifestVersion), (text "release_version", .str r.version),
    (text "created_at", .str r.createdAt), (text "builder_platform", .str r.builderPlatform),
    (text "files", fileManifest lib entries), (text "signature_algorithm", .str signatureAlgorithm)]

structure SignedBytes where
  message : ByteArray
  signature : ByteArray

def buildRelease (r : ReleaseInput) (key : SigningKey) : Except Raised (SignedBytes × Archive) := do
  require (r.version ≠ [] ∧ r.version.all versionCharacter) .valueError
  require (3072 ≤ key.keySize) .valueError
  let entries ← releaseEntries r key
  let bytes ← canonical (releaseManifest lib r entries)
  let archive ← writeAll ((releaseManifestName, bytes) :: (releaseSignatureName, key.sign bytes) ::
    sortEntries entries)
  return (⟨bytes, key.sign bytes⟩, archive)

def filesOr (message : String) : Option Raw → List Text × Dict
  | some (.obj files) => ([], files)
  | _ => ([text message], [])

def readKey : Option (Except Raised ByteArray) → Except Raised (Option ByteArray)
  | none => .ok none
  | some file => file.map some

def releaseSignatureErrors (archive : Archive) (manifestBytes : ByteArray)
    (resolution : TrustResolution) : Except Raised (List Text) :=
  if releaseSignatureName ∈ names archive then
    resolvedErrors lib archive resolution manifestBytes releaseSignatureName
      "release public key is not RSA" "release signature mismatch"
      "release signature verification could not proceed"
  else .ok [text "release signature verification could not proceed"]

def releaseErrors (archive : Archive) (publicKey : Option (Except Raised ByteArray)) (trust : Trust)
    (manifestBytes : ByteArray) (manifest : Raw) : Except Raised (List Text) := do
  let bytes ← canonical manifest
  let version ← dictGet manifest "manifest_version"
  let (kindErrors, files) := filesOr "files manifest is invalid" (← dictGet manifest "files")
  let expected := releaseManifestName :: releaseSignatureName :: files.map Prod.fst
  let found ← collect (fileErrors lib archive) (JsonLoads.sortKeys files)
  let embedded ← readIfPresent archive releaseKeyName
  let explicitKey ← readKey publicKey
  let resolution ← resolveTrustedKey lib explicitKey trust embedded
  let signature ← releaseSignatureErrors lib archive manifestBytes resolution
  return check (bytes = manifestBytes) (text "release manifest is not canonical") ++
    check (isText releaseManifestVersion version) (text "unsupported release manifest version") ++
    kindErrors ++ each "unexpected file: " (without (names archive) expected) ++ found ++
    resolution.errors ++ signature

def releaseOpenErrors (archive : Archive) : List Text :=
  check (names archive).Nodup (text "duplicate ZIP member") ++
    each "missing file: " (without [releaseManifestName, releaseSignatureName] (names archive))

def verifyRelease (package : Package) (publicKey : Option (Except Raised ByteArray)) (trust : Trust) :
    Except Raised Verdict := do
  let archive ← package
  if releaseManifestName ∉ names archive then return ⟨false, releaseOpenErrors archive⟩
  else do
    let manifestBytes ← read archive releaseManifestName
    let manifest ← JsonLoads.loads lib.toInterpreter manifestBytes
    let errors ← releaseErrors lib archive publicKey trust manifestBytes manifest
    return verdict (releaseOpenErrors archive ++ errors)

def installReportName : Text := text "install-report.json"

def installSignatureName : Text := text "install-report.sig"

def installKeyName : Text := text "public-key.pem"

def installRequired : List Text := [installReportName, installSignatureName, installKeyName]

def signerInformation (key : SigningKey) : Raw :=
  .obj [(text "signature_algorithm", .str signatureAlgorithm),
    (text "public_key_sha256", .str (fingerprint lib key.publicKeyPem)),
    (text "signature_member", .str (text "install-report.sig")),
    (text "public_key_member", .str (text "public-key.pem"))]

def journalFields : List Text :=
  ["installer_version", "package_sha256", "container_image_digests", "sbom_hashes",
    "configuration_sha256", "migration_versions", "contract_versions", "service_health",
    "synthetic_transaction_result", "installed_time", "host_fingerprint"].map text

def reportRecord (generatedAt : Text) (key : SigningKey) (record : Dict) : Dict :=
  setMember (text "signer_information") (signerInformation lib key)
    (setMember (text "generated_at") (.str generatedAt)
      (setMember (text "report_version") (.str (text "mirage-install-report/1.0")) record))

def dictionary : Raw → Except Raised Dict
  | .obj record => .ok record
  | _ => .error .typeError

/-- `generate_install_report`: the signed report and the archive. -/
def generateInstallReport (journal : Text) (generatedAt : Text) (key : SigningKey) :
    Except Raised (SignedBytes × Archive) := do
  let record ← JsonLoads.loadsText lib.toInterpreter journal >>= dictionary
  require (3072 ≤ key.keySize) .valueError
  let record := reportRecord lib generatedAt key record
  require (journalFields.all fun name => (member name record).isSome) .valueError
  let bytes ← canonical (.obj record)
  let archive ← writeAll [(installReportName, bytes), (installSignatureName, key.sign bytes),
    (installKeyName, key.publicKeyPem)]
  return (⟨bytes, key.sign bytes⟩, archive)

/-- The report that the content holds; content that is no JSON counts as an
empty report. -/
def loadReport (content : ByteArray) : Except Raised (List Text × Raw) :=
  match JsonLoads.loads lib.toInterpreter content with
  | .ok report => .ok ([], report)
  | .error exc =>
    if exc.kind = .jsonDecodeError then .ok ([text "install report is not valid JSON"], .obj [])
    else .error exc

def canonicalErrors (report : Raw) (content : ByteArray) : Except Raised (List Text) :=
  if isTrue report then do
    let bytes ← canonical report
    return check (bytes = content) (text "install report is not canonical")
  else .ok []

def installSignatureErrors (archive : Archive) (content : ByteArray) (resolution : TrustResolution) :
    Except Raised (List Text) :=
  resolvedErrors lib archive resolution content installSignatureName
    "install report public key is not RSA" "install report signature mismatch"
    "install report signature verification could not proceed"

/-- `report.get("signer_information", {})` of a dictionary, and nothing of any other value. -/
def signerOf (report : Raw) : Raw := (report.get? "signer_information").getD (.obj [])

def signerKeyErrors (signer : Raw) (resolution : TrustResolution) : Except Raised (List Text) :=
  match resolution.keyBytes with
  | some _ => do
    let found ← dictGet signer "public_key_sha256"
    return check (resolution.fingerprint.all fun print => isText print found)
      (text "install report signer fingerprint mismatch")
  | none => .ok []

def algorithmErrors (signer : Raw) : Except Raised (List Text) := do
  let algorithm ← dictGet signer "signature_algorithm"
  return check (isText signatureAlgorithm algorithm) (text "unsupported install report signature algorithm")

/-- An exception with the errors that were found before it. -/
abbrev Stopped := List Text × Raised

def after {α : Type} (errors : List Text) (step : Except Raised α) : Except Stopped α :=
  step.mapError fun exc => (errors, exc)

def adding (errors : List Text) (step : Except Raised (List Text)) : Except Stopped (List Text) :=
  (after errors step).map (errors ++ ·)

def installErrors (archive : Archive) (publicKey : Option (Except Raised ByteArray)) (trust : Trust)
    (errors : List Text) : Except Stopped (List Text) := do
  let content ← after errors (read archive installReportName)
  let (jsonErrors, report) ← after errors (loadReport lib content)
  let errors ← adding (errors ++ jsonErrors) (canonicalErrors report content)
  let embedded ← after errors (read archive installKeyName)
  let explicitKey ← after errors (readKey publicKey)
  let resolution ← after errors (resolveTrustedKey lib explicitKey trust (some embedded))
  let errors ← adding (errors ++ resolution.errors) (installSignatureErrors lib archive content resolution)
  let errors ← adding errors (signerKeyErrors (signerOf report) resolution)
  adding errors (algorithmErrors (signerOf report))

def installOpenErrors (archive : Archive) : List Text :=
  check (names archive).Nodup (text "duplicate ZIP member") ++
    each "missing file: " (without installRequired (names archive)) ++
    each "unexpected file: " (without (names archive) installRequired)

def inspectInstall (archive : Archive) (publicKey : Option (Except Raised ByteArray)) (trust : Trust) :
    Except Stopped (List Text) :=
  if without installRequired (names archive) = [] then
    installErrors lib archive publicKey trust (installOpenErrors archive)
  else .ok (installOpenErrors archive)

def verifyInstallReport (package : Package) (publicKey : Option (Except Raised ByteArray))
    (trust : Trust) : Except Raised Verdict :=
  match after [] package >>= fun archive => inspectInstall lib archive publicKey trust with
  | .ok errors => .ok (verdict errors)
  | .error (errors, exc) =>
    if exc.kind ∈ [.osError, .valueError, .jsonDecodeError, .badZipFile] then
      .ok ⟨false, errors ++ [text "invalid install report package: " ++ exc.message]⟩
    else .error exc

end

theorem mem_sortKeys {files : Dict} {file : Text × Raw} : file ∈ JsonLoads.sortKeys files ↔ file ∈ files :=
  (JsonLoads.sortKeys_perm files).mem_iff

end Mirage.ReleasePackage
