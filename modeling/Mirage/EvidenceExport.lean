import Mirage.SignedPackage

/-! evidence_export.py: the export manifest, its signature, the package, and
the verification of a package. -/

namespace Mirage.EvidenceExport
open PythonText Raw RowLocks SignedPackage

def manifestVersion : Text := text "1.0"

def signingAlgorithm : Text := text "RSASSA_PSS_SHA_256"

abbrev Dict := List (Text × Raw)

def subscript (d : Dict) (name : String) : Except Raised Raw :=
  present (member (text name) d) .keyError

def getOr (d : Dict) (name : String) (default : Raw) : Raw :=
  (member (text name) d).getD default

def keyed {κ : Type} (key : Dict → Except Raised κ) : List Dict → Except Raised (List (κ × Dict))
  | [] => .ok []
  | d :: rest => do
    let k ← key d
    let more ← keyed key rest
    return (k, d) :: more

def sortedRows (key : Dict → Except Raised (List Raw)) (rows : List Dict) :
    Except Raised (List Dict) := do
  sortedBy lessItems (← keyed key rows)

section
variable (lib : Platform)

def evidenceKey (item : Dict) : Except Raised (List Raw) := do
  let evidenceType ← subscript item "evidence_type"
  let acquisitionTime ← subscript item "acquisition_time"
  let sourceId ← subscript item "source_id"
  let sourceSequence ← toInt lib.intOfText (← subscript item "source_sequence")
  let evidenceId ← subscript item "evidence_id"
  return [evidenceType, acquisitionTime, sourceId, .int sourceSequence, evidenceId]

def sortEvidence (items : List Dict) : Except Raised (List Dict) :=
  sortedRows (evidenceKey lib) items

structure TrustedTimestamp where
  timestampId : Text
  sourceType : Text
  sourceName : Text
  timestampTime : Text
  independentlyTrusted : Bool
  tokenBase64 : Option Text
  record : Dict

structure ManifestInput where
  case_ : Dict
  sessions : List Dict
  timeline : List Dict
  evidence : List Dict
  collectionGaps : List Dict
  analystActions : List Dict
  aiActions : List Dict
  policyDecisions : List Dict
  exportId : Text
  exportVersion : Int
  createdAt : Text
  createdBy : Text
  kmsKeyArn : Text
  trustedTimestamp : TrustedTimestamp
  limitations : List Text

def sessionKey (x : Dict) : Except Raised (List Raw) := do
  let sessionId ← subscript x "session_id"
  return [getOr x "created_at" (.str []), sessionId]

def timelineKey (x : Dict) : Except Raised (List Raw) :=
  .ok [getOr x "at" (.str []), getOr x "new_version" (.int 0)]

def createdKey (idName : String) (x : Dict) : Except Raised (List Raw) :=
  .ok [getOr x "created_at" (.str []), getOr x idName (.str [])]

def gapKey (x : Dict) : Except Raised Raw := subscript x "gap_id"

def timestampRecord (t : TrustedTimestamp) : Raw :=
  .obj [(text "timestamp_id", .str t.timestampId), (text "source_type", .str t.sourceType),
    (text "source_name", .str t.sourceName), (text "timestamp_time", .str t.timestampTime),
    (text "independently_trusted", .bool t.independentlyTrusted),
    (text "token_base64", t.tokenBase64.elim .null .str), (text "record", .obj t.record)]

def rows (ds : List Dict) : Raw := .arr (ds.map .obj)

def buildManifest (m : ManifestInput) : Except Raised Raw := do
  let sessions ← sortedRows sessionKey m.sessions
  let timeline ← sortedRows timelineKey m.timeline
  let evidence ← sortEvidence lib m.evidence
  let gaps ← sortedBy less (← keyed gapKey m.collectionGaps)
  let analystActions ← sortedRows (createdKey "id") m.analystActions
  let aiActions ← sortedRows (createdKey "id") m.aiActions
  let decisions ← sortedRows (createdKey "decision_id") m.policyDecisions
  return .obj [(text "manifest_version", .str manifestVersion), (text "export_id", .str m.exportId),
    (text "export_version", .int m.exportVersion), (text "export_creation_time", .str m.createdAt),
    (text "export_creator", .str m.createdBy), (text "case", .obj m.case_),
    (text "sessions", rows sessions), (text "case_state_timeline", rows timeline),
    (text "evidence_objects", rows evidence), (text "collection_gaps", rows gaps),
    (text "analyst_actions", rows analystActions), (text "ai_actions", rows aiActions),
    (text "policy_decisions", rows decisions),
    (text "signing", .obj [(text "kms_key_arn", .str m.kmsKeyArn),
      (text "algorithm", .str signingAlgorithm),
      (text "payload", .str (text "SHA256(canonical-manifest-without-signature)"))]),
    (text "trusted_timestamp", timestampRecord m.trustedTimestamp),
    (text "limitations", .arr (m.limitations.map .str))]

structure Signer where
  signDigest : ByteArray → ByteArray
  publicKeyPem : ByteArray

structure SignedManifest where
  canonicalBytes : ByteArray
  manifestSha256 : Text
  signature : ByteArray
  publicKeyPem : ByteArray

def signManifest (manifest : Raw) (signer : Signer) : Except Raised SignedManifest := do
  let bytes ← canonical manifest
  return ⟨bytes, hexDigest lib bytes, signer.signDigest (lib.sha256 bytes), signer.publicKeyPem⟩

def encoded (t : Text) : Except Raised ByteArray := present (encodeUtf8 t) .unicodeEncodeError

/-- `_write_zip_bytes`: a name ends before its first null and is written as UTF-8. -/
def writeZipBytes (name : Text) (data : ByteArray) : Except Raised Member := do
  let _ ← encoded name
  return ⟨name.takeWhile fun p => p ≠ 0, .ok data⟩

def objectName (evidenceId : Text) : Text := text "objects/" ++ evidenceId

def writeObjects : List (Text × ByteArray) → Except Raised Archive
  | [] => .ok []
  | (evidenceId, data) :: rest => do
    let m ← writeZipBytes (objectName evidenceId) data
    let more ← writeObjects rest
    return m :: more

def createExportPackage (signed : SignedManifest) (objects : List (Text × ByteArray))
    (report : Text) : Except Raised Archive := do
  let manifest ← writeZipBytes (text "manifest.json") signed.canonicalBytes
  let digest ← writeZipBytes (text "manifest.sha256") (← encoded (signed.manifestSha256 ++ text "\n"))
  let signature ← writeZipBytes (text "manifest.sig") signed.signature
  let key ← writeZipBytes (text "public-key.pem") signed.publicKeyPem
  let report ← writeZipBytes (text "verification-report.txt") (← encoded report)
  let objects ← writeObjects (objects.insertionSort fun a b => a.1 ≤ b.1)
  return manifest :: digest :: signature :: key :: report :: objects

def verifySignature (publicKeyPem digest signature : ByteArray) : Except Raised Unit := do
  let key ← lib.loadPemPublicKey publicKeyPem
  if !lib.isRsa key then .error ⟨.other, text "ExportIntegrityError", text "manifest public key is not RSA"⟩
  else lib.verifyPss key digest signature

structure VerificationReport where
  valid : Bool
  errors : List Text
  manifestSha256 : Option Text

def verdict (errors : List Text) (manifestSha256 : Option Text) : VerificationReport :=
  ⟨errors.isEmpty, errors, manifestSha256⟩

def required : List Text :=
  [text "manifest.json", text "manifest.sha256", text "manifest.sig", text "verification-report.txt"]

def requiredEvidenceFields : List Text :=
  [text "evidence_id", text "evidence_type", text "acquisition_time", text "source_id",
    text "source_sequence", text "sha256", text "s3_version_id"]

structure ValidItem where
  dict : Dict
  evidenceId : Text
  sha256 : Text
  complete : ∀ name ∈ requiredEvidenceFields, (member name dict).isSome
  id_eq : member (text "evidence_id") dict = some (.str evidenceId)
  sha256_eq : member (text "sha256") dict = some (.str sha256)

def itemText (index : ℕ) (rest : Text) : Text :=
  text "evidence item " ++ text (toString index) ++ text " " ++ rest

def missingFields (d : Dict) : List Text :=
  sortedNames (requiredEvidenceFields.filter fun name => !(member name d).isSome)

def validItem (index : ℕ) (item : Raw) : Except Text ValidItem :=
  match item with
  | .obj d =>
    if complete : ∀ name ∈ requiredEvidenceFields, (member name d).isSome then
      match id_eq : member (text "evidence_id") d, sha256_eq : member (text "sha256") d with
      | some (.str evidenceId), some (.str sha256) => .ok ⟨d, evidenceId, sha256, complete, id_eq, sha256_eq⟩
      | _, _ => .error (itemText index (text "has invalid identifier/hash types"))
    else .error (itemText index (text "missing fields: " ++ reprList lib.printable (missingFields d)))
  | _ => .error (itemText index (text "is not an object"))

def validEvidence (index : ℕ) : List Raw → List Text × List ValidItem
  | [] => ([], [])
  | item :: rest =>
    let (errors, valid) := validEvidence (index + 1) rest
    match validItem lib index item with
    | .ok v => (errors, v :: valid)
    | .error e => (e :: errors, valid)

def sortErrors (valid : List ValidItem) : Except Raised (List Text) :=
  match sortEvidence lib (valid.map ValidItem.dict) with
  | .ok sorted => .ok (check (equals (rows (valid.map ValidItem.dict)) (rows sorted))
      (text "evidence list is not deterministically sorted"))
  | .error exc =>
    if exc.kind ∈ [.keyError, .typeError, .valueError, .jsonDecodeError] then
      .ok [text "evidence list contains invalid deterministic-sort fields"]
    else .error exc

def isObject (name : Text) : Bool := (text "objects/").isPrefixOf name

def objectErrors (names : List Text) (valid : List ValidItem) : List Text :=
  let expected := valid.map fun item => objectName item.evidenceId
  let actual := names.filter isObject
  each "missing object: " (without expected actual) ++ each "unexpected object: " (without actual expected)

def hashErrors (archive : Archive) (item : ValidItem) : Except Raised (List Text) :=
  let name := objectName item.evidenceId
  if name ∈ names archive then do
    let data ← read archive name
    return check (hexDigest lib data = item.sha256) (text "hash mismatch: " ++ name)
  else .ok []

def evidenceItems : Option Raw → List Text × List Raw
  | some (.arr items) => ([], items)
  | _ => ([text "manifest evidence_objects must be an array"], [])

def headErrors (manifest : Raw) (manifestBytes : ByteArray) : Except Raised (List Text) := do
  let bytes ← canonical manifest
  let version ← dictGet manifest "manifest_version"
  let signing ← dictGet manifest "signing"
  let algorithm ← dictGet (signing.getD (.obj [])) "algorithm"
  return check (bytes = manifestBytes) (text "manifest is not canonical JSON") ++
    check (isText manifestVersion version) (text "unsupported manifest version") ++
    check (isText signingAlgorithm algorithm) (text "unsupported signing algorithm")

def signatureErrors (archive : Archive) (manifestBytes : ByteArray) :
    Option ByteArray → List Text
  | none => []
  | some key =>
    match read archive (text "manifest.sig") >>= verifySignature lib key (lib.sha256 manifestBytes) with
    | .ok _ => []
    | .error exc => [text "signature verification failed: " ++ exc.name]

def manifestErrors (archive : Archive) (explicitKey : Option ByteArray) (trust : Trust)
    (manifestBytes : ByteArray) (manifest : Raw) : Except Raised (List Text) := do
  let head ← headErrors manifest manifestBytes
  let evidence ← dictGet manifest "evidence_objects"
  let (kindErrors, items) := evidenceItems evidence
  let (itemErrors, valid) := validEvidence lib 0 items
  let order ← sortErrors lib valid
  let hashes ← collect (hashErrors lib archive) valid
  let embedded ← readIfPresent archive (text "public-key.pem")
  let resolution ← resolveTrustedKey lib explicitKey trust embedded
  return head ++ kindErrors ++ itemErrors ++ order ++ objectErrors (names archive) valid ++ hashes ++
    resolution.errors ++ signatureErrors lib archive manifestBytes resolution.keyBytes

def inspect (archive : Archive) (explicitKey : Option ByteArray) (trust : Trust) :
    Except Raised VerificationReport := do
  let manifestBytes ← read archive (text "manifest.json")
  let sha256 := hexDigest lib manifestBytes
  let recorded ← decodeUtf8 (← read archive (text "manifest.sha256"))
  match JsonLoads.loads lib.toInterpreter manifestBytes with
  | .error exc =>
    if exc.kind = .jsonDecodeError then
      return ⟨false, [text "manifest JSON invalid: " ++ exc.message], some sha256⟩
    else .error exc
  | .ok manifest =>
    let errors ← manifestErrors lib archive explicitKey trust manifestBytes manifest
    return verdict (check (sha256 = strip recorded) (text "manifest hash mismatch") ++ errors)
      (some sha256)

def openErrors (archive : Archive) : List Text :=
  check (names archive).Nodup (text "package contains duplicate member names") ++
    each "missing required package member: " (without required (names archive))

def verifyOpened (archive : Archive) (explicitKey : Option ByteArray) (trust : Trust) :
    Except Raised VerificationReport :=
  if openErrors archive = [] then inspect lib archive explicitKey trust
  else .ok ⟨false, openErrors archive, none⟩

def verifyExportPackage (package : Package) (explicitKey : Option ByteArray) (trust : Trust) :
    Except Raised VerificationReport :=
  match package >>= fun archive => verifyOpened lib archive explicitKey trust with
  | .ok report => .ok report
  | .error exc =>
    if exc.kind = .badZipFile ∨ exc.kind = .osError then
      .ok ⟨false, [text "invalid export package: " ++ exc.message], none⟩
    else .error exc

end
end Mirage.EvidenceExport
