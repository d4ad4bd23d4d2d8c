import Mirage.ReleasePackage

/-! Acceptance packages of acceptance.py: what is signed, what is written into
the archive, and how an archive is verified. -/

namespace Mirage.AcceptancePackage
open PythonText Raw RowLocks SignedPackage ReleasePackage
open EvidenceExport (Dict writeZipBytes)

def manifestName : Text := text "acceptance-manifest.json"

def signatureName : Text := text "acceptance-manifest.sig"

def keyName : Text := text "acceptance-public-key.pem"

def required : List Text := [manifestName, signatureName, keyName]

def excluded : List Text :=
  required ++ [text "acceptance-package.zip", text "independent-verification-report.json"]

section
variable (lib : Platform)

structure Output where
  files : List (Text × ByteArray)
  unique : (files.map Prod.fst).Nodup
  proper : ∀ file ∈ files, (0 : CodePoint) ∉ file.1

def entries (output : Output) : List (Text × ByteArray) :=
  output.files.filter fun file => file.1 ∉ excluded

def results (output : Output) : Except Raised Raw := do
  let file ← present ((entries output).find? fun file => file.1 = text "acceptance-results.json") .keyError
  JsonLoads.loads lib.toInterpreter file.2

def manifest (output : Output) (createdAt : Text) (profile accepted : Option Raw) : Raw :=
  .obj [(text "schema_version", .str (text "mirage.acceptance-manifest/1.0")),
    (text "profile", profile.getD .null), (text "accepted", .bool (accepted.any isTrue)),
    (text "created_at", .str createdAt), (text "signature_algorithm", .str signatureAlgorithm),
    (text "files", fileManifest lib (entries output))]

/-- `_sign_package`: the signed manifest and the archive. -/
def signPackage (output : Output) (createdAt : Text) (key : SigningKey) :
    Except Raised (SignedBytes × Archive) := do
  let found ← results lib output
  let profile ← dictGet found "profile"
  let accepted ← dictGet found "accepted"
  let bytes ← canonical (manifest lib output createdAt profile accepted)
  require (3072 ≤ key.keySize) .valueError
  let members := put (put (put (entries output) manifestName bytes) signatureName (key.sign bytes))
    keyName key.publicKeyPem
  let archive ← writeAll (sortEntries members)
  return (⟨bytes, key.sign bytes⟩, archive)

def signatureErrors (archive : Archive) (explicitKey : Option ByteArray) (trust : Trust)
    (manifestBytes : ByteArray) : Except Raised (List Text) := do
  let embedded ← read archive keyName
  let resolution ← resolveTrustedKey lib explicitKey trust (some embedded)
  let signature ← resolvedErrors lib archive resolution manifestBytes signatureName
    "acceptance public key is not RSA" "acceptance signature mismatch"
    "acceptance signature verification could not proceed"
  return resolution.errors ++ signature

def trustErrors (archive : Archive) (explicitKey : Option ByteArray) (trust : Trust)
    (manifestBytes : ByteArray) : Except Raised (List Text) :=
  if without required (names archive) = [] then
    signatureErrors lib archive explicitKey trust manifestBytes
  else .ok []

def manifestErrors (archive : Archive) (explicitKey : Option ByteArray) (trust : Trust)
    (manifestBytes : ByteArray) (manifest : Raw) : Except Raised (List Text) := do
  let bytes ← canonical manifest
  let (kindErrors, files) := filesOr "acceptance files manifest is invalid" (← dictGet manifest "files")
  let found ← collect (fileErrors lib archive) (JsonLoads.sortKeys files)
  let trusted ← trustErrors lib archive explicitKey trust manifestBytes
  return check (bytes = manifestBytes) (text "acceptance manifest is not canonical") ++ kindErrors ++
    each "unexpected file: " (without (names archive) (required ++ files.map Prod.fst)) ++ found ++ trusted

def openErrors (archive : Archive) : List Text :=
  check (names archive).Nodup (text "duplicate ZIP member") ++
    each "missing file: " (without required (names archive))

def verifyAcceptancePackage (package : Package) (explicitKey : Option ByteArray) (trust : Trust) :
    Except Raised Verdict := do
  let archive ← package
  if manifestName ∉ names archive then return ⟨false, openErrors archive⟩
  else do
    let manifestBytes ← read archive manifestName
    let manifest ← JsonLoads.loads lib.toInterpreter manifestBytes
    let errors ← manifestErrors lib archive explicitKey trust manifestBytes manifest
    return verdict (openErrors archive ++ errors)

end
end Mirage.AcceptancePackage
