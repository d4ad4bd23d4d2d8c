import Mirage.ReleasePackage

/-! Report packages of reports.py: `create_report_package` and
`verify_report_package`. -/

namespace Mirage.ReportPackage
open PythonText Raw RowLocks SignedPackage
open EvidenceExport (Dict subscript getOr rows signingAlgorithm manifestVersion encoded
  signatureErrors Signer signManifest)
open ReleasePackage (sortEntries writeAll fileManifest)

structure ReportVerification where
  valid : Bool
  errors : List Text
  manifestSha256 : Option Text

def evidenceName (value : Text) : Text := text "evidence/" ++ value

def required : List Text :=
  ["manifest.json", "manifest.sha256", "manifest.sig", "public-key.pem", "report.pdf", "report.docx",
    "case.json", "verification-report.json", "verification-report.txt", "README-verification.txt",
    "evidence-references.json"].map text

def frame : List Text := ["manifest.json", "manifest.sha256", "manifest.sig", "public-key.pem"].map text

structure Artifacts where
  metadata : Dict
  pdf : ByteArray
  docx : ByteArray
  caseJson : ByteArray

structure EvidenceManifest where
  value : Raw
  objects : List Dict
  listed : value.get? "evidence_objects" = some (rows objects)

structure EvidenceBytes where
  entries : List (Text × ByteArray)
  unique : (entries.map Prod.fst).Nodup

def texts (ts : List Text) : Raw := .arr (ts.map .str)

def EvidenceBytes.ids (objects : EvidenceBytes) : List Text := (sortEntries objects.entries).map Prod.fst

def verificationText : ByteArray :=
  "Mirage Report Package Verification\nStatus: GENERATED_PENDING_INDEPENDENT_VERIFICATION\nRun: scripts/verify-report-package <package.zip> [--public-key key.pem]\n".toUTF8

def readme : ByteArray :=
  "MIRAGE REPORT PACKAGE\n\nVerify this package independently before relying on it.\nDo not treat AI_INFERENCE as observed fact.\nNo remote resource is required to open these report files.\n".toUTF8

def verificationRecord (reportId : Raw) : Raw :=
  .obj [(text "status", .str (text "GENERATED_PENDING_INDEPENDENT_VERIFICATION")),
    (text "verifier", .str (text "mirage-report-worker")), (text "report_id", reportId),
    (text "checks", texts (["canonical manifest", "report file hashes", "evidence manifest linkage",
      "asymmetric signature"].map text))]

def evidenceReferences (exportMode : Text) (included referenced : List Text) : Raw :=
  .obj [(text "export_mode", .str exportMode), (text "included_evidence_ids", texts included),
    (text "referenced_evidence_ids", texts referenced)]

def exportModes : List Text := ["METADATA_ONLY", "SELECTED_EVIDENCE", "COMPLETE_CASE"].map text

def checkMode (exportMode : Text) (embedded expected : List Text) : Except Raised Unit := do
  require (exportMode = text "METADATA_ONLY" → embedded = []) .valueError
  require (exportMode = text "COMPLETE_CASE" → embedded ⊆ expected ∧ expected ⊆ embedded) .valueError
  require (embedded ⊆ expected) .valueError

section
variable (lib : Platform)

def idKey (item : Dict) : Text := strOf lib.printable (getOr item "evidence_id" (.str []))

def sortedEvidence (m : EvidenceManifest) : List Dict :=
  m.objects.insertionSort fun a b => idKey lib a ≤ idKey lib b

def expectedEvidence : List Dict → Except Raised (List Text)
  | [] => .ok []
  | item :: rest => do
    let id ← subscript item "evidence_id"
    let more ← expectedEvidence rest
    return strOf lib.printable id :: more

def reportFiles (artifacts : Artifacts) (verification references : ByteArray) :
    List (Text × ByteArray) :=
  [(text "report.pdf", artifacts.pdf), (text "report.docx", artifacts.docx),
    (text "case.json", artifacts.caseJson), (text "verification-report.json", verification),
    (text "verification-report.txt", verificationText), (text "README-verification.txt", readme),
    (text "evidence-references.json", references)]

def reportManifest (artifacts : Artifacts) (keyId exportMode : Text) (evidenceManifestId : Raw)
    (evidenceManifestSha256 : Text) (evidence : List Dict) (files : List (Text × ByteArray))
    (embedded : List Text) : Raw :=
  .obj [(text "manifest_version", .str manifestVersion), (text "manifest_type", .str (text "MIRAGE_CASE_REPORT")),
    (text "report", .obj artifacts.metadata), (text "export_mode", .str exportMode),
    (text "evidence_manifest_id", evidenceManifestId),
    (text "evidence_manifest_sha256", .str evidenceManifestSha256),
    (text "evidence_objects", rows evidence), (text "report_files", fileManifest lib files),
    (text "embedded_evidence_ids", texts embedded),
    (text "signing", .obj [(text "kms_key_arn", .str keyId), (text "algorithm", .str signingAlgorithm),
      (text "payload", .str (text "SHA256(canonical-report-manifest-without-signature)"))])]

/-- `create_report_package`: the manifest and the archive. -/
def createReportPackage (artifacts : Artifacts) (signer : Signer) (keyId exportMode : Text)
    (m : EvidenceManifest) (objects : EvidenceBytes) : Except Raised (Raw × Archive) := do
  require (exportMode ∈ exportModes) .valueError
  let expected ← expectedEvidence lib (sortedEvidence lib m)
  checkMode exportMode objects.ids expected
  let verification ← canonical (verificationRecord (← subscript artifacts.metadata "report_id"))
  let references ← canonical (evidenceReferences exportMode objects.ids (sortedNames expected))
  let files := reportFiles artifacts verification references
  let evidenceBytes ← canonical m.value
  let manifest := reportManifest lib artifacts keyId exportMode
    (← subscript artifacts.metadata "evidence_manifest_id") (hexDigest lib evidenceBytes)
    (sortedEvidence lib m) files objects.ids
  let signed ← signManifest lib manifest signer
  let archive ← writeAll ([(text "manifest.json", signed.canonicalBytes),
    (text "manifest.sha256", ← encoded (signed.manifestSha256 ++ text "\n")),
    (text "manifest.sig", signed.signature), (text "public-key.pem", signed.publicKeyPem)] ++
    sortEntries files ++ (sortEntries objects.entries).map fun e => (evidenceName e.1, e.2))
  return (manifest, archive)

def iteratedOr : Option Raw → Except Raised (List Raw)
  | none => .ok []
  | some value => if isTrue value then iterated value else .ok []

/-- `report_files`; anything but a dictionary counts as empty. -/
def declaredFiles : Option Raw → List Text × Dict
  | some (.obj files) => ([], files)
  | _ => ([text "report_files must be an object"], [])

def recordedDigest (archive : Archive) : Except Raised (Option Text) :=
  if text "manifest.sha256" ∈ names archive then
    (read archive (text "manifest.sha256") >>= decodeUtf8).map some
  else .ok none

def headErrors (archive : Archive) (expectedEvidenceManifestSha256 : Option Text) (manifest : Raw)
    (manifestBytes : ByteArray) : Except Raised (List Text) := do
  let bytes ← canonical manifest
  let recorded ← recordedDigest archive
  let kind ← dictGet manifest "manifest_type"
  let signing ← dictGet manifest "signing"
  let algorithm ← dictGet (signing.getD (.obj [])) "algorithm"
  let linked ← dictGet manifest "evidence_manifest_sha256"
  return check (bytes = manifestBytes) (text "manifest is not canonical JSON") ++
    check (recorded.all fun t => strip t = hexDigest lib manifestBytes) (text "manifest hash mismatch") ++
    check (isText (text "MIRAGE_CASE_REPORT") kind) (text "unexpected manifest type") ++
    check (isText signingAlgorithm algorithm) (text "unsupported signing algorithm") ++
    check (expectedEvidenceManifestSha256.all fun t => isText t linked) (text "evidence-manifest mismatch")

def declaredErrors (archive : Archive) (file : Text × Raw) : Except Raised (List Text) :=
  if file.1 ∉ names archive then .ok [text "missing file: " ++ file.1]
  else
    match file.2 with
    | .obj detail => do
      let content ← read archive file.1
      return check (isText (hexDigest lib content) (member (text "sha256") detail))
          (text "hash mismatch: " ++ file.1) ++
        check ((member (text "size_bytes") detail).any (equals (.int content.size)))
          (text "size mismatch: " ++ file.1)
    | _ => .ok [text "invalid file manifest: " ++ file.1]

def trustErrors (archive : Archive) (explicitKey : Option ByteArray) (trust : Trust)
    (manifestBytes : ByteArray) : Except Raised (List Text) := do
  let embedded ← readIfPresent archive (text "public-key.pem")
  if text "manifest.sig" ∉ names archive then
    return [text "signature or verification key missing"]
  else do
    let resolution ← resolveTrustedKey lib explicitKey trust embedded
    return resolution.errors ++ signatureErrors lib archive manifestBytes resolution.keyBytes

def manifestErrors (archive : Archive) (explicitKey : Option ByteArray) (trust : Trust)
    (expectedEvidenceManifestSha256 : Option Text) (manifestBytes : ByteArray) (manifest : Raw) :
    Except Raised (List Text) := do
  let head ← headErrors lib archive expectedEvidenceManifestSha256 manifest manifestBytes
  let (kindErrors, files) := declaredFiles (← dictGet manifest "report_files")
  let embedded ← iteratedOr (← dictGet manifest "embedded_evidence_ids")
  let expected := frame ++ files.map Prod.fst ++ embedded.map fun v => evidenceName (strOf lib.printable v)
  let fileErrors ← collect (declaredErrors lib archive) (JsonLoads.sortKeys files)
  let trusted ← trustErrors lib archive explicitKey trust manifestBytes
  return head ++ kindErrors ++ each "unexpected file: " (without (names archive) expected) ++
    fileErrors ++ trusted

def openErrors (archive : Archive) : List Text :=
  check (names archive).Nodup (text "package contains duplicate member names") ++
    each "missing required package member: " (without required (names archive))

def inspect (archive : Archive) (explicitKey : Option ByteArray) (trust : Trust)
    (expectedEvidenceManifestSha256 : Option Text) : Except Raised ReportVerification :=
  if text "manifest.json" ∉ names archive then .ok ⟨false, openErrors archive, none⟩
  else do
    let manifestBytes ← read archive (text "manifest.json")
    match JsonLoads.loads lib.toInterpreter manifestBytes with
    | .error exc =>
      if exc.kind = .jsonDecodeError then
        return ⟨false, [text "manifest JSON invalid: " ++ exc.message], some (hexDigest lib manifestBytes)⟩
      else .error exc
    | .ok manifest =>
      let found ← manifestErrors lib archive explicitKey trust expectedEvidenceManifestSha256
        manifestBytes manifest
      let errors := openErrors archive ++ found
      return ⟨errors.isEmpty, errors, some (hexDigest lib manifestBytes)⟩

def verifyReportPackage (package : Package) (explicitKey : Option ByteArray) (trust : Trust)
    (expectedEvidenceManifestSha256 : Option Text) : Except Raised ReportVerification :=
  match package >>= fun archive => inspect lib archive explicitKey trust expectedEvidenceManifestSha256 with
  | .ok verification => .ok verification
  | .error exc =>
    if exc.kind = .badZipFile then .ok ⟨false, [text "invalid report ZIP package"], none⟩
    else .error exc

end
end Mirage.ReportPackage
