import Mirage.EventRun
import Mirage.SignedPackage
import Mathlib.Data.List.MinMax

/-! The scanner of artifacts.py: the walk through nested archives with its limits, the tools, and the
verdict. `zipfile`, `tarfile`, the file system and the tools are parameters, with all that they may raise. -/

namespace Mirage.ArtifactScanner
open PythonText RowLocks

/-- An exception of a library or the file system; `zipfile` raises the first on some protected archives. -/
inductive LibraryError where
  | runtimeError
  | other (name : Text)

/-- `zipfile.ZipInfo`, and what opening and copying the member gives. -/
structure ZipInfo (File : Type) where
  filename : Text
  externalAttr : ℕ
  flagBits : ℕ
  fileSize : ℕ
  compressSize : ℕ
  data : Except LibraryError File

/-- `tarfile.TarInfo`, and what `extractfile` and copying give. -/
structure TarInfo (File : Type) where
  name : Text
  link : Bool
  isFile : Bool
  size : ℕ
  data : Option (Except LibraryError File)

abbrev Path := List Text

structure Library where
  File : Type
  isZipfile : File → Except LibraryError Bool
  openZip : File → Except LibraryError (List (ZipInfo File))
  isTarfile : File → Except LibraryError Bool
  openTar : File → Except LibraryError (List (TarInfo File))
  nameable : Path → Bool
  printable : CodePoint → Bool

def storable (t : Text) : Bool := t.all fun p => p ≠ 0 && !isSurrogate p

/-- The limits; a ratio is held against `max_compression_ratio` as a float, and both are written as floats. -/
structure Config where
  maxArchiveDepth : ℕ
  maxArchiveMembers : ℕ
  maxExpandedMb : ℕ
  perMemberMaxMb : ℕ
  exceedsRatio : ℕ → ℕ → Bool
  ratioText : ℕ → ℕ → Text
  ratioText_storable : ∀ expanded compressed, storable (ratioText expanded compressed) = true

/-! The names of the members and their places under the temporary directory. -/

def parts (normalised : Text) : Path :=
  (normalised.splitOn (ofChar '/')).filter fun part => part ≠ [] && part ≠ text "."

def pathText (path : Path) : Text := if path = [] then text "." else (text "/").intercalate path

def hasDrive : Text → Bool
  | letter :: colon :: _ => (between 'a' 'z' letter || between 'A' 'Z' letter) && colon = ofChar ':'
  | _ => false

def safeMemberName (printable : CodePoint → Bool) (name : Text) : Except Text Path :=
  let normalised := name.map fun p => if p = ofChar '\\' then ofChar '/' else p
  if normalised.head? = some (ofChar '/') ∨ text ".." ∈ parts normalised ∨ hasDrive normalised then
    .error (text "archive path traversal rejected: " ++ reprText printable name)
  else .ok (parts normalised)

structure Tree where
  files : List Path
  directories : List Path

def Tree.empty : Tree := ⟨[], []⟩

/-- `destination.parent.mkdir(…)` and `destination.open("wb")`, if they do not raise. -/
def place (nameable : Path → Bool) (tree : Tree) (path : Path) : Option Tree :=
  let parents := path.inits.filter fun parent => parent ≠ [] && parent ≠ path
  if path = [] ∨ nameable path = false ∨ (∃ parent ∈ parents, parent ∈ tree.files) ∨ path ∈ tree.directories then
    none
  else some ⟨path :: tree.files, parents ++ tree.directories⟩

structure Totals where
  members : ℕ
  expandedBytes : ℕ
  compressedBytes : ℕ
  maxDepthSeen : ℕ

structure Entry (File : Type) where
  filename : Text
  linkMessage : String
  link : Bool
  encrypted : Bool
  skipped : Bool
  expanded : ℕ
  compressed : ℕ
  data : Option (Except LibraryError File)

def ZipInfo.entry {File : Type} (info : ZipInfo File) : Entry File where
  filename := info.filename
  linkMessage := "archive symlink rejected: "
  link := (info.externalAttr >>> 16) &&& 0o170000 = 0o120000
  encrypted := info.flagBits % 2 = 1
  skipped := info.filename.getLast? = some (ofChar '/')
  expanded := info.fileSize
  compressed := info.compressSize
  data := some info.data

def TarInfo.entry {File : Type} (member : TarInfo File) : Entry File where
  filename := member.name
  linkMessage := "archive link rejected: "
  link := member.link
  encrypted := false
  skipped := !member.isFile
  expanded := member.size
  compressed := max 1 member.size
  data := member.data

structure State where
  totals : Totals
  names : List Text
  tree : Tree

inductive Admission (File : Type) where
  | skipped (s : State)
  | extracts (path : Path) (data : Except LibraryError File) (s : State)

inductive Exc where
  | archivePolicy (message : Text)
  | library (e : LibraryError)

section
variable (lib : Library) (config : Config)

def addMember (t : Totals) (expanded compressed : ℕ) : Except Text Totals :=
  let t : Totals :=
    { t with
      members := t.members + 1
      expandedBytes := t.expandedBytes + expanded
      compressedBytes := t.compressedBytes + max 1 compressed }
  if config.maxArchiveMembers < t.members then .error (text "archive member-count limit exceeded")
  else if config.exceedsRatio t.expandedBytes (max 1 t.compressedBytes) then
    .error (text "archive compression-ratio limit exceeded")
  else .ok t

def admitEntry (s : State) (e : Entry lib.File) : Except Text (Admission lib.File) := do
  let path ← safeMemberName lib.printable e.filename
  let name := pathText path
  if name ∈ s.names then .error (text "duplicate archive member name: " ++ name)
  else if e.link then .error (text e.linkMessage ++ name)
  else if e.encrypted then .error (text "password-protected archive rejected")
  else if e.skipped then .ok (.skipped { s with names := name :: s.names })
  else
    let totals ← addMember config s.totals e.expanded e.compressed
    if config.perMemberMaxMb * 1024 * 1024 < e.expanded then
      .error (text "archive member exceeds per-member size limit")
    else
      match e.data with
      | none => .error (text "unable to read archive member: " ++ name)
      | some data => .ok (.extracts path data ⟨totals, name :: s.names, s.tree⟩)

/-- `zipfile.is_zipfile(path) or tarfile.is_tarfile(path)`. -/
def isArchive (file : lib.File) : Except LibraryError Bool := do
  if ← lib.isZipfile file then return true else lib.isTarfile file

def extractEntry (nested : Totals → lib.File → Except Exc Totals) (s : State) (path : Path)
    (data : Except LibraryError lib.File) : Except Exc State :=
  match place lib.nameable s.tree path, data with
  | some tree, .ok content =>
    match isArchive lib content with
    | .ok true => do
      let totals ← nested s.totals content
      return { s with totals, tree }
    | .ok false => .ok { s with tree }
    | .error e => .error (.library e)
  | none, _ => .error (.library (.other (text "OSError")))
  | _, .error e => .error (.library e)

def visit (nested : Totals → lib.File → Except Exc Totals) (s : State) (e : Entry lib.File) : Except Exc State :=
  match admitEntry lib config s e with
  | .error message => .error (.archivePolicy message)
  | .ok (.skipped s) => .ok s
  | .ok (.extracts path data s) => extractEntry lib nested s path data

def openArchive (file : lib.File) : Except Exc (Option (List (Entry lib.File))) :=
  match lib.isZipfile file with
  | .error e => .error (.library e)
  | .ok true =>
    match lib.openZip file with
    | .ok infos => .ok (some (infos.map ZipInfo.entry))
    | .error .runtimeError => .error (.archivePolicy (text "password-protected archive rejected"))
    | .error e => .error (.library e)
  | .ok false =>
    match lib.isTarfile file with
    | .error e => .error (.library e)
    | .ok false => .ok none
    | .ok true =>
      match lib.openTar file with
      | .ok members => .ok (some (members.map TarInfo.entry))
      | .error e => .error (.library e)

/-- `_inspect_archive_recursive` at a depth, with so many depths left. -/
def inspectRecursive : ℕ → ℕ → Totals → lib.File → Except Exc Totals
  | 0, _, _, _ => .error (.archivePolicy (text "maximum archive nesting depth exceeded"))
  | left + 1, depth, totals, file => do
    let totals : Totals := { totals with maxDepthSeen := max totals.maxDepthSeen depth }
    match ← openArchive lib file with
    | none => return totals
    | some entries =>
      let s ← entries.foldlM (visit lib config (inspectRecursive left (depth + 1))) ⟨totals, [], .empty⟩
      if config.maxExpandedMb * 1024 * 1024 < s.totals.expandedBytes then
        .error (.archivePolicy (text "archive expanded-size limit exceeded"))
      else return s.totals

def ratioMessage (totals : Totals) : Text :=
  text "archive compression ratio " ++ config.ratioText totals.expandedBytes (max 1 totals.compressedBytes)

def inspectArchive (file : lib.File) : Except Exc Totals := do
  let totals ← inspectRecursive lib config config.maxArchiveDepth 1 ⟨0, 0, 0, 0⟩ file
  if config.exceedsRatio totals.expandedBytes (max 1 totals.compressedBytes) then
    .error (.archivePolicy (ratioMessage config totals))
  else return totals

/-- What `scan` makes of the archive, if the file is one. -/
inductive ArchiveMetadata where
  | absent
  | counted (totals : Totals)
  | error (message : Text)

def archiveMetadata (file : lib.File) : Except Exc ArchiveMetadata :=
  match isArchive lib file with
  | .error e => .error (.library e)
  | .ok false => .ok .absent
  | .ok true => do return .counted (← inspectArchive lib config file)

end

inductive ToolError where
  | timeoutExpired
  | other (name : Text)

structure Completed where
  returncode : ℤ
  stdout : Text
  stderr : Text

abbrev Outcome := Except ToolError Completed

/-- What the tools give on an artifact, and nothing where one is not installed (`yara` also without rules); the
type that the name suggests; and whether the deadline of the scan leaves time for each tool. -/
structure Tools where
  file : Option Outcome
  guessedType : Text
  guessedType_storable : storable guessedType = true
  clamscan : Option Outcome
  yara : Option Outcome
  oleid : Option Outcome
  clamavInTime : Bool
  yaraInTime : Bool
  oletoolsInTime : Bool

inductive ReportStatus where
  | clean
  | malicious
  | failed
  | notRun
  | complete
  | notApplicable
  deriving DecidableEq

structure Report where
  status : Option ReportStatus
  detail : Option Text
  reason : Option Text

def report (status : ReportStatus) (detail : Text) : Report := ⟨some status, some detail, none⟩

def orElse (a b : Text) : Text := if a = [] then b else a

def detectType (tools : Tools) : Except ToolError Text :=
  match tools.file with
  | some (.error e) => .error e
  | some (.ok result) => .ok (if result.returncode = 0 then SignedPackage.strip result.stdout else tools.guessedType)
  | none => .ok tools.guessedType

def observationLevels (mediaType : Text) (canaryEnabled : Bool) : List String :=
  let isOneOf (types : List String) : Bool := types.any fun t => mediaType = text t
  let executable := isOneOf
    ["application/x-dosexec", "application/x-executable", "application/x-mach-binary", "application/x-msdownload"]
  ["L1"] ++ (if executable then ["L2"] else []) ++ (if canaryEnabled then ["L3"] else []) ++
    (if isOneOf
        ["application/zip", "application/pdf",
          "application/vnd.openxmlformats-officedocument.wordprocessingml.document",
          "application/vnd.openxmlformats-officedocument.spreadsheetml.sheet"] then
      ["L4"] else []) ++
    (if isOneOf ["application/pdf", "text/plain", "text/html"] then ["L5"] else [])

def clamavReport (result : Completed) : Report :=
  if result.returncode = 0 then report .clean (SignedPackage.strip result.stdout)
  else if result.returncode = 1 then report .malicious (SignedPackage.strip result.stdout)
  else report .failed ((SignedPackage.strip (orElse result.stderr result.stdout)).take 1024)

def clamav : Option Outcome → Except ToolError Report
  | none => .ok (report .failed (text "clamscan executable unavailable"))
  | some (.error .timeoutExpired) => .ok (report .failed (text "ClamAV scan timed out"))
  | some (.error e) => .error e
  | some (.ok result) => .ok (clamavReport result)

/-- `str.splitlines` breaks here; that `\r\n` is one break only saves an empty line. -/
def isLineBreak (p : CodePoint) : Bool :=
  p.val ∈ [0x0A, 0x0B, 0x0C, 0x0D, 0x1C, 0x1D, 0x1E, 0x85, 0x2028, 0x2029]

def firstWord (line : Text) : Text :=
  (line.dropWhile SignedPackage.isWhitespace).takeWhile fun p => !SignedPackage.isWhitespace p

def yaraNames (result : Completed) : List Text :=
  let lines := (result.stdout.splitOnP isLineBreak).filter fun line => SignedPackage.strip line ≠ []
  SignedPackage.sortedNames (lines.map firstWord)

def yara : Option Outcome → Except ToolError (Option (List Text))
  | none => .ok none
  | some (.error .timeoutExpired) => .ok none
  | some (.error e) => .error e
  | some (.ok result) =>
    .ok (if result.returncode = 0 ∨ result.returncode = 1 then some (yaraNames result) else none)

def isOffice (detectedType : Text) : Bool :=
  text "officedocument" <:+: detectedType ||
    ["application/msword", "application/vnd.ms-excel", "application/vnd.ms-powerpoint",
      "application/x-ole-storage"].any fun t => detectedType = text t

def oleReport (result : Completed) : Report :=
  report (if result.returncode = 0 then .complete else .failed) ((orElse result.stdout result.stderr).take 4096)

def oletools (detectedType : Text) (oleid : Option Outcome) : Except ToolError Report :=
  if isOffice detectedType then
    match oleid with
    | none => .ok (report .failed (text "oleid executable unavailable for Office file"))
    | some (.error .timeoutExpired) => .ok (report .failed (text "oletools scan timed out"))
    | some (.error e) => .error e
    | some (.ok result) => .ok (oleReport result)
  else .ok ⟨some .notApplicable, none, none⟩

/-- `remaining`, which raises when the deadline has passed. -/
def remaining (inTime : Bool) : Except ToolError Unit := if inTime then .ok () else .error .timeoutExpired

def runTools (tools : Tools) (detectedType : Text) : Except ToolError (Report × Option (List Text) × Report) := do
  remaining tools.clamavInTime
  let clamav ← clamav tools.clamscan
  remaining tools.yaraInTime
  let yara ← yara tools.yara
  remaining tools.oletoolsInTime
  let ole ← oletools detectedType tools.oleid
  return (clamav, yara, ole)

inductive Verdict where
  | clean
  | suspicious
  | malicious
  | failed
  deriving DecidableEq

structure ScanResult where
  status : Verdict
  detectedType : Text
  clamavResult : Report
  yaraMatches : List Text
  oletoolsResult : Report
  archiveMetadata : ArchiveMetadata
  observationLevels : List String
  limitations : List Text

def judge (canaryEnabled : Bool) (detected : Text) (metadata : ArchiveMetadata) (clamav : Report)
    (yara : Option (List Text)) (ole : Report) : ScanResult where
  status :=
    if clamav.status = some .malicious then .malicious
    else if clamav.status = some .failed ∨ yara = none ∨ ole.status = some .failed then .failed
    else if yara ≠ some [] then .suspicious
    else .clean
  detectedType := detected
  clamavResult := clamav
  yaraMatches := yara.getD []
  oletoolsResult := ole
  archiveMetadata := metadata
  observationLevels := observationLevels detected canaryEnabled
  limitations :=
    (if clamav.status = some .failed then clamav.detail.toList else []) ++
      (if yara = none then [text "YARA scanner unavailable or rules not configured"] else []) ++
      (if ole.status = some .failed then ole.detail.toList else [])

/-- What leaves `scan` other than a result. -/
inductive Escape where
  | tool (e : ToolError)
  | library (e : LibraryError)

def scan (lib : Library) (config : Config) (canaryEnabled : Bool) (tools : Tools) (file : lib.File) :
    Except Escape ScanResult :=
  match detectType tools with
  | .error e => .error (.tool e)
  | .ok detected =>
    let levels := observationLevels detected canaryEnabled
    match archiveMetadata lib config file with
    | .error (.archivePolicy message) =>
      .ok
        ⟨.malicious, detected, ⟨some .notRun, none, some (text "archive policy rejected first")⟩, [],
          ⟨none, none, none⟩, .error message, levels, [message]⟩
    | .error (.library e) => .error (.library e)
    | .ok metadata =>
      match runTools tools detected with
      | .error .timeoutExpired =>
        .ok
          ⟨.failed, detected, report .failed (text "total artifact scan timed out"), [], ⟨some .notRun, none, none⟩,
            metadata, levels, [text "total artifact scan timed out"]⟩
      | .error e => .error (.tool e)
      | .ok (clamav, yara, ole) => .ok (judge canaryEnabled detected metadata clamav yara ole)

/-! The worker. The SCANNING mark, the scan and its result are one transaction: what raises in it undoes the mark
too, the process ends and is started again. -/

inductive ScanStatus where
  | uploaded
  | quarantined
  | scanning
  | scanned (verdict : Verdict)
  | unsupported
  | approved
  | rejected

/-- A row of `artifacts`, the staged file, and the columns that a scan fills. -/
structure Artifact (File : Type) where
  artifactId : Text
  createdAt : ℕ
  staged : File
  scanStatus : ScanStatus
  result : Option ScanResult

structure AuditEvent where
  target : Text
  success : Bool
  detail : Verdict

structure Database (File : Type) where
  artifacts : List (Artifact File)
  auditEvents : List AuditEvent

def Report.texts (r : Report) : List Text := r.detail.toList ++ r.reason.toList

def ArchiveMetadata.texts : ArchiveMetadata → List Text
  | .error message => [message]
  | _ => []

def ScanResult.recorded (r : ScanResult) : List Text :=
  r.detectedType ::
    (r.clamavResult.texts ++ r.yaraMatches ++ r.oletoolsResult.texts ++ r.archiveMetadata.texts)

def Artifact.settle {File : Type} (artifactId : Text) (result : ScanResult) (a : Artifact File) : Artifact File :=
  if a.artifactId = artifactId then { a with scanStatus := .scanned result.status, result := some result } else a

def Artifact.isWaiting {File : Type} (a : Artifact File) : Bool :=
  match a.scanStatus with
  | .uploaded | .quarantined => true
  | _ => false

/-- `SELECT … ORDER BY created_at FOR UPDATE SKIP LOCKED LIMIT 1`; other transactions hold some rows. -/
def oldest {File : Type} (held : Text → Bool) (artifacts : List (Artifact File)) : Option (Artifact File) :=
  (artifacts.filter fun a => a.isWaiting && !held a.artifactId).argmin Artifact.createdAt

section
variable (lib : Library) (config : Config)

/-- `scan_artifact_record`; nothing where the scan raises or Postgres refuses the result. -/
def scanArtifactRecord (db : Database lib.File) (artifact : Artifact lib.File) (tools : Tools) :
    Option (Database lib.File) :=
  match scan lib config false tools artifact.staged with
  | .error _ => none
  | .ok result =>
    if result.recorded.all storable then
      some
        { artifacts := db.artifacts.map (Artifact.settle artifact.artifactId result)
          auditEvents := ⟨artifact.artifactId, result.status ≠ .failed, result.status⟩ :: db.auditEvents }
    else none

structure Turn (File : Type) where
  selected : Artifact File
  tools : Tools
  before : List (Artifact File)
  after : List (Artifact File)

structure World where
  db : Database lib.File
  turns : List (Turn lib.File)

inductive Event where
  | upload (artifactId : Text) (createdAt : ℕ) (staged : lib.File)
  | approve (artifactId : Text)
  | iterate (held : Text → Bool) (tools : Tools)

/-- `approve_artifact`: only of CLEAN and SUSPICIOUS artifacts. -/
def Artifact.approve {File : Type} (artifactId : Text) (a : Artifact File) : Artifact File :=
  match a.scanStatus with
  | .scanned .clean | .scanned .suspicious =>
    if a.artifactId = artifactId then { a with scanStatus := .approved } else a
  | _ => a

variable {lib} in
/-- What one event makes of the world. -/
def step (w : World lib) : Event lib → World lib
  | .upload artifactId createdAt staged =>
    { w with db.artifacts := ⟨artifactId, createdAt, staged, .uploaded, none⟩ :: w.db.artifacts }
  | .approve artifactId => { w with db.artifacts := w.db.artifacts.map (Artifact.approve artifactId) }
  | .iterate held tools =>
    match oldest held w.db.artifacts with
    | none => w
    | some artifact =>
      let db := (scanArtifactRecord lib config w.db artifact tools).getD w.db
      ⟨db, ⟨artifact, tools, w.db.artifacts, db.artifacts⟩ :: w.turns⟩

end

/-! When the walk, the tools and the database let a scan end with a verdict. `refused` are the texts that count as
trouble: none for the scan itself, those that Postgres does not take for the worker. -/

section
variable (lib : Library) (config : Config) (refused : Text → Bool)

inductive EntryPasses (Completes : Totals → lib.File → Totals → Prop) (s : State) (e : Entry lib.File) : State → Prop
  | skipped {s' : State} (admitted : admitEntry lib config s e = .ok (.skipped s')) : EntryPasses Completes s e s'
  | stored {path : Path} {content : lib.File} {s' : State} {tree : Tree}
      (admitted : admitEntry lib config s e = .ok (.extracts path (.ok content) s'))
      (placed : place lib.nameable s'.tree path = some tree) (plain : isArchive lib content = .ok false) :
      EntryPasses Completes s e { s' with tree }
  | nested {path : Path} {content : lib.File} {s' : State} {tree : Tree} {totals : Totals}
      (admitted : admitEntry lib config s e = .ok (.extracts path (.ok content) s'))
      (placed : place lib.nameable s'.tree path = some tree) (archive : isArchive lib content = .ok true)
      (completes : Completes s'.totals content totals) : EntryPasses Completes s e { s' with totals, tree }

/-- The member at hand is trouble: its rejection cannot be recorded, it has no place in the directory, it cannot
be read, or what it holds is trouble. -/
inductive EntryTroubled (Troubled : Totals → lib.File → Prop) (s : State) (e : Entry lib.File) : Prop
  | message {message : Text} (rejected : admitEntry lib config s e = .error message)
      (unrecorded : refused message = true)
  | unplaceable {path : Path} {data : Except LibraryError lib.File} {s' : State}
      (admitted : admitEntry lib config s e = .ok (.extracts path data s'))
      (unplaceable : place lib.nameable s'.tree path = none)
  | unreadable {path : Path} {err : LibraryError} {s' : State}
      (admitted : admitEntry lib config s e = .ok (.extracts path (.error err) s'))
  | untestable {path : Path} {content : lib.File} {s' : State} {err : LibraryError}
      (admitted : admitEntry lib config s e = .ok (.extracts path (.ok content) s'))
      (untestable : isArchive lib content = .error err)
  | nested {path : Path} {content : lib.File} {s' : State}
      (admitted : admitEntry lib config s e = .ok (.extracts path (.ok content) s'))
      (archive : isArchive lib content = .ok true) (troubled : Troubled s'.totals content)

def MembersPass (Completes : Totals → lib.File → Totals → Prop) : State → List (Entry lib.File) → State → Prop
  | s, [], t => s = t
  | s, e :: rest, t => ∃ s', EntryPasses lib config Completes s e s' ∧ MembersPass Completes s' rest t

def MembersTroubled (Completes : Totals → lib.File → Totals → Prop) (Troubled : Totals → lib.File → Prop) :
    State → List (Entry lib.File) → Prop
  | _, [] => False
  | s, e :: rest =>
    EntryTroubled lib config refused Troubled s e ∨
      ∃ s', EntryPasses lib config Completes s e s' ∧ MembersTroubled Completes Troubled s' rest

def Totals.deepened (totals : Totals) (depth : ℕ) : Totals :=
  { totals with maxDepthSeen := max totals.maxDepthSeen depth }

def Completes : ℕ → ℕ → Totals → lib.File → Totals → Prop
  | 0, _, _, _, _ => False
  | left + 1, depth, totals, file, result =>
    openArchive lib file = .ok none ∧ result = totals.deepened depth ∨
      ∃ entries s, openArchive lib file = .ok (some entries) ∧
        MembersPass lib config (Completes left (depth + 1)) ⟨totals.deepened depth, [], .empty⟩ entries s ∧
        s.totals.expandedBytes ≤ config.maxExpandedMb * 1024 * 1024 ∧ result = s.totals

def Troubled : ℕ → ℕ → Totals → lib.File → Prop
  | 0, _, _, _ => False
  | left + 1, depth, totals, file =>
    (∃ e, openArchive lib file = .error (.library e)) ∨
      ∃ entries, openArchive lib file = .ok (some entries) ∧
        MembersTroubled lib config refused (Completes lib config left (depth + 1)) (Troubled left (depth + 1))
          ⟨totals.deepened depth, [], .empty⟩ entries

def ArchiveTroubled (file : lib.File) : Prop :=
  (∃ e, isArchive lib file = .error e) ∨
    isArchive lib file = .ok true ∧ Troubled lib config refused config.maxArchiveDepth 1 ⟨0, 0, 0, 0⟩ file

def ArchivePasses (file : lib.File) : Prop :=
  isArchive lib file = .ok false ∨
    isArchive lib file = .ok true ∧ ∃ totals, Completes lib config config.maxArchiveDepth 1 ⟨0, 0, 0, 0⟩ file totals ∧
      config.exceedsRatio totals.expandedBytes (max 1 totals.compressedBytes) = false

def Raises (outcome : Option Outcome) : Prop := ∃ name, outcome = some (.error (.other name))

structure PrintsRecordable (tools : Tools) (detected : Text) : Prop where
  clamscan : ∀ c, tools.clamscan = some (.ok c) → ∀ t ∈ (clamavReport c).texts, refused t = false
  yara : ∀ c, tools.yara = some (.ok c) → c.returncode = 0 ∨ c.returncode = 1 → ∀ t ∈ yaraNames c, refused t = false
  oleid : isOffice detected = true → ∀ c, tools.oleid = some (.ok c) → ∀ t ∈ (oleReport c).texts, refused t = false

def ToolsUsable (tools : Tools) (detected : Text) : Prop :=
  tools.clamavInTime = true →
    ¬Raises tools.clamscan ∧ (tools.yaraInTime = true →
      ¬Raises tools.yara ∧ (tools.oletoolsInTime = true →
        (isOffice detected = true → ¬Raises tools.oleid) ∧ PrintsRecordable refused tools detected))

def Scannable (tools : Tools) (file : lib.File) : Prop :=
  ∃ detected, detectType tools = .ok detected ∧ refused detected = false ∧ ¬ArchiveTroubled lib config refused file ∧
    (ArchivePasses lib config file → ToolsUsable refused tools detected)

end


section
variable {lib : Library} {config : Config} {refused : Text → Bool}

def Escapes (refused : Text → Bool) {α : Type} : Except Exc α → Prop
  | .ok _ => False
  | .error (.archivePolicy message) => refused message = true
  | .error (.library _) => True

theorem escapes_bind {α β : Type} {x : Except Exc α} {f : α → Except Exc β} :
    Escapes refused (x >>= f) ↔ Escapes refused x ∨ ∃ a, x = .ok a ∧ Escapes refused (f a) := by
  cases x with
  | error e =>
    have same : Escapes refused (Except.error e >>= f) ↔ Escapes refused (Except.error e : Except Exc α) := by
      cases e <;> exact Iff.rfl
    exact ⟨fun escapes => .inl (same.mp escapes), fun h => h.elim same.mpr fun ⟨_, done, _⟩ => by cases done⟩
  | ok a =>
    exact ⟨fun escapes => .inr ⟨a, rfl, escapes⟩, fun h => h.elim False.elim fun ⟨_, done, h⟩ => by cases done; exact h⟩

theorem visit_ok_iff {nested : Totals → lib.File → Except Exc Totals} {s s' : State} {e : Entry lib.File} :
    visit lib config nested s e = .ok s' ↔
      EntryPasses lib config (fun totals file result => nested totals file = .ok result) s e s' := by
  constructor
  · intro done
    unfold visit extractEntry at done
    split at done
    · cases done
    · next admitted => cases done; exact .skipped admitted
    · next admitted =>
      split at done
      · split at done
        · next archive =>
          obtain ⟨totals, inner, done⟩ := bind_eq_ok.mp done
          cases done
          exact .nested admitted ‹_› archive inner
        · next plain => cases done; exact .stored admitted ‹_› plain
        · cases done
      · cases done
      · cases done
  · intro passes
    cases passes with
    | skipped admitted => simp only [visit, admitted]
    | stored admitted placed plain => simp only [visit, admitted, extractEntry, placed, plain]
    | nested admitted placed archive inner =>
      simp only [visit, admitted, extractEntry, placed, archive]
      exact bind_eq_ok.mpr ⟨_, inner, rfl⟩

theorem visit_escapes_iff {nested : Totals → lib.File → Except Exc Totals} {s : State} {e : Entry lib.File} :
    Escapes refused (visit lib config nested s e) ↔
      EntryTroubled lib config refused (fun totals file => Escapes refused (nested totals file)) s e := by
  constructor
  · intro escapes
    unfold visit extractEntry at escapes
    split at escapes
    · next rejected => exact .message rejected escapes
    · cases escapes
    · next admitted =>
      split at escapes
      · split at escapes
        · next archive =>
          obtain inner | ⟨totals, -, none⟩ := escapes_bind.mp escapes
          · exact .nested admitted archive inner
          · cases none
        · cases escapes
        · next untestable => exact .untestable admitted untestable
      · next unplaceable => exact .unplaceable admitted unplaceable
      · exact .unreadable admitted
  · intro troubled
    cases troubled with
    | message rejected unrecorded => simpa only [visit, rejected, Escapes] using unrecorded
    | @unplaceable path data s' admitted unplaceable => simp only [visit, admitted, extractEntry, unplaceable, Escapes]
    | @unreadable path err s' admitted =>
      cases placed : place lib.nameable s'.tree path <;> simp only [visit, admitted, extractEntry, placed, Escapes]
    | @untestable path content s' err admitted untestable =>
      cases placed : place lib.nameable s'.tree path <;>
        simp only [visit, admitted, extractEntry, placed, untestable, Escapes]
    | @nested path content s' admitted archive inner =>
      cases placed : place lib.nameable s'.tree path with
      | none => simp only [visit, admitted, extractEntry, placed, Escapes]
      | some tree =>
        simp only [visit, admitted, extractEntry, placed, archive]
        exact escapes_bind.mpr (.inl inner)

theorem members_ok_iff {nested : Totals → lib.File → Except Exc Totals} {s t : State}
    {entries : List (Entry lib.File)} :
    entries.foldlM (visit lib config nested) s = .ok t ↔
      MembersPass lib config (fun totals file result => nested totals file = .ok result) s entries t := by
  induction entries generalizing s with
  | nil =>
    rw [List.foldlM_nil, MembersPass]
    exact ⟨fun same => by cases same; rfl, fun same => by rw [same]; rfl⟩
  | cons e rest ih =>
    rw [List.foldlM_cons, bind_eq_ok, MembersPass]
    simp only [visit_ok_iff, ih]

theorem members_escape_iff {nested : Totals → lib.File → Except Exc Totals} {s : State}
    {entries : List (Entry lib.File)} :
    Escapes refused (entries.foldlM (visit lib config nested) s) ↔
      MembersTroubled lib config refused (fun totals file result => nested totals file = .ok result)
        (fun totals file => Escapes refused (nested totals file)) s entries := by
  induction entries generalizing s with
  | nil => exact ⟨id, id⟩
  | cons e rest ih =>
    rw [List.foldlM_cons, escapes_bind, MembersTroubled]
    simp only [visit_ok_iff, visit_escapes_iff, ih]

theorem inspectRecursive_ok_iff (left depth : ℕ) (totals result : Totals) (file : lib.File) :
    inspectRecursive lib config left depth totals file = .ok result ↔
      Completes lib config left depth totals file result := by
  induction left generalizing depth totals result file with
  | zero => exact ⟨fun done => (by cases done), False.elim⟩
  | succ left ih =>
    have inner : (fun totals file result => inspectRecursive lib config left (depth + 1) totals file = .ok result) =
        Completes lib config left (depth + 1) := by
      funext totals file result
      exact propext (ih (depth + 1) totals result file)
    rw [inspectRecursive, bind_eq_ok, Completes, ← inner]
    constructor
    · rintro ⟨members, opened, done⟩
      cases members with
      | none => exact .inl ⟨opened, by cases done; rfl⟩
      | some entries =>
        obtain ⟨s, walked, done⟩ := bind_eq_ok.mp done
        split at done
        · cases done
        · next small =>
          exact .inr ⟨entries, s, opened, members_ok_iff.mp walked, not_lt.mp small, by cases done; rfl⟩
    · rintro (⟨opened, rfl⟩ | ⟨entries, s, opened, walked, small, rfl⟩)
      · exact ⟨none, opened, rfl⟩
      · exact ⟨some entries, opened, bind_eq_ok.mpr ⟨s, members_ok_iff.mpr walked, if_neg (not_lt.mpr small)⟩⟩

theorem openArchive_message {file : lib.File} {message : Text}
    (opened : openArchive lib file = .error (.archivePolicy message)) : storable message = true := by
  unfold openArchive at opened
  split at opened
  · cases opened
  · split at opened <;> cases opened
    decide
  · split at opened
    · cases opened
    · cases opened
    · split at opened <;> cases opened

def Spares (refused : Text → Bool) : Prop := ∀ t, storable t = true → refused t = false

theorem openArchive_escapes_iff (spares : Spares refused) {file : lib.File} :
    Escapes refused (openArchive lib file) ↔ ∃ e, openArchive lib file = .error (.library e) := by
  constructor
  · intro escapes
    cases opened : openArchive lib file with
    | ok members => rw [opened] at escapes; cases escapes
    | error e =>
      cases e with
      | library e => exact ⟨e, rfl⟩
      | archivePolicy message =>
        rw [opened, Escapes, spares message (openArchive_message opened)] at escapes
        cases escapes
  · rintro ⟨e, opened⟩
    rw [opened]
    trivial

theorem inspectRecursive_escapes_iff (spares : Spares refused) (left depth : ℕ) (totals : Totals) (file : lib.File) :
    Escapes refused (inspectRecursive lib config left depth totals file) ↔
      Troubled lib config refused left depth totals file := by
  induction left generalizing depth totals file with
  | zero =>
    rw [inspectRecursive, Troubled, Escapes, spares _ (by decide)]
    exact ⟨fun h => (by cases h), False.elim⟩
  | succ left ih =>
    have passed : (fun totals file result => inspectRecursive lib config left (depth + 1) totals file = .ok result) =
        Completes lib config left (depth + 1) := by
      funext totals file result
      exact propext (inspectRecursive_ok_iff left (depth + 1) totals result file)
    have troubled : (fun totals file => Escapes refused (inspectRecursive lib config left (depth + 1) totals file)) =
        Troubled lib config refused left (depth + 1) := by
      funext totals file
      exact propext (ih (depth + 1) totals file)
    rw [inspectRecursive, escapes_bind, Troubled, ← passed, ← troubled]
    refine or_congr (openArchive_escapes_iff spares) ?_
    constructor
    · rintro ⟨members, opened, escapes⟩
      cases members with
      | none => cases escapes
      | some entries =>
        refine ⟨entries, opened, ?_⟩
        obtain walked | ⟨s, -, escapes⟩ := escapes_bind.mp escapes
        · exact members_escape_iff.mp walked
        · split at escapes
          · rw [Escapes, spares _ (by decide)] at escapes
            cases escapes
          · cases escapes
    · rintro ⟨entries, opened, troubled⟩
      exact ⟨some entries, opened, escapes_bind.mpr (.inl (members_escape_iff.mpr troubled))⟩

end


@[simp] theorem storable_append (a b : Text) : storable (a ++ b) = (storable a && storable b) := List.all_append

section
variable {lib : Library} {config : Config} {refused : Text → Bool}

theorem inspectArchive_ok_iff {file : lib.File} {totals : Totals} :
    inspectArchive lib config file = .ok totals ↔
      Completes lib config config.maxArchiveDepth 1 ⟨0, 0, 0, 0⟩ file totals ∧
        config.exceedsRatio totals.expandedBytes (max 1 totals.compressedBytes) = false := by
  rw [inspectArchive, bind_eq_ok]
  constructor
  · rintro ⟨found, walked, done⟩
    split at done
    · cases done
    · next low =>
      cases done
      exact ⟨(inspectRecursive_ok_iff ..).mp walked, Bool.eq_false_iff.mpr low⟩
  · rintro ⟨completes, low⟩
    exact ⟨totals, (inspectRecursive_ok_iff ..).mpr completes, if_neg (Bool.eq_false_iff.mp low)⟩

theorem ratioMessage_storable (totals : Totals) : storable (ratioMessage config totals) = true := by
  rw [ratioMessage, storable_append, config.ratioText_storable, Bool.and_true]
  decide

theorem inspectArchive_escapes_iff (spares : Spares refused) {file : lib.File} :
    Escapes refused (inspectArchive lib config file) ↔
      Troubled lib config refused config.maxArchiveDepth 1 ⟨0, 0, 0, 0⟩ file := by
  rw [inspectArchive, escapes_bind, inspectRecursive_escapes_iff spares, or_iff_left]
  rintro ⟨totals, -, escapes⟩
  split at escapes
  · rw [Escapes, spares _ (ratioMessage_storable totals)] at escapes
    cases escapes
  · cases escapes

theorem archiveMetadata_passes_iff {file : lib.File} :
    (∃ metadata, archiveMetadata lib config file = .ok metadata) ↔ ArchivePasses lib config file := by
  unfold archiveMetadata ArchivePasses
  cases isArchive lib file with
  | error e => simp
  | ok archive =>
    cases archive with
    | false => simp
    | true =>
      simp only [bind_eq_ok, inspectArchive_ok_iff, Except.ok.injEq, Bool.true_eq_false, false_or, true_and]
      exact ⟨fun ⟨_, totals, passes, _⟩ => ⟨totals, passes⟩, fun ⟨totals, passes⟩ => ⟨_, totals, passes, rfl⟩⟩

theorem archiveMetadata_escapes_iff (spares : Spares refused) {file : lib.File} :
    Escapes refused (archiveMetadata lib config file) ↔ ArchiveTroubled lib config refused file := by
  unfold archiveMetadata ArchiveTroubled
  cases isArchive lib file with
  | error e => simp [Escapes]
  | ok archive =>
    cases archive with
    | false => simp [Escapes]
    | true =>
      simp only [escapes_bind, inspectArchive_escapes_iff spares, reduceCtorEq, exists_false, false_or, true_and]
      exact or_iff_left fun ⟨_, _, escapes⟩ => escapes

theorem archiveMetadata_texts {file : lib.File} {metadata : ArchiveMetadata}
    (passes : archiveMetadata lib config file = .ok metadata) : metadata.texts = [] := by
  unfold archiveMetadata at passes
  split at passes
  · cases passes
  · cases passes
    rfl
  · obtain ⟨totals, -, done⟩ := bind_eq_ok.mp passes
    cases done
    rfl

/-! The tools: a timeout is handled, every other exception is not. -/

def Handled {α : Type} (x : Except ToolError α) (P : α → Prop) : Prop :=
  match x with
  | .ok a => P a
  | .error .timeoutExpired => True
  | .error (.other _) => False

theorem handled_bind {α β : Type} {x : Except ToolError α} {f : α → Except ToolError β} {P : β → Prop} :
    Handled (x >>= f) P ↔ Handled x fun a => Handled (f a) P := by
  cases x with
  | ok a => exact Iff.rfl
  | error e => cases e <;> exact Iff.rfl

theorem handled_remaining {inTime : Bool} {P : Unit → Prop} :
    Handled (remaining inTime) P ↔ (inTime = true → P ()) := by
  cases inTime <;> simp [remaining, Handled]

def Settles {α : Type} (x : Except ToolError α) (raises : Prop) : Prop :=
  (¬raises ∧ ∃ r, x = .ok r) ∨ raises ∧ ∃ name, x = .error (.other name)

theorem Settles.handled {α : Type} {x : Except ToolError α} {raises : Prop} {P : α → Prop}
    (settles : Settles x raises) : Handled x P ↔ ¬raises ∧ ∀ r, x = .ok r → P r := by
  obtain ⟨runs, r, rfl⟩ | ⟨raises, name, rfl⟩ := settles
  · simp [Handled, runs]
  · simp [Handled, raises]

theorem Settles.runs {α : Type} {x : Except ToolError α} {raises : Prop} (settles : Settles x raises)
    (usable : ¬raises) : ∃ r, x = .ok r := by
  obtain ⟨-, ran⟩ | ⟨raised, -⟩ := settles
  · exact ran
  · exact absurd raised usable

theorem clamav_settles (outcome : Option Outcome) : Settles (clamav outcome) (Raises outcome) := by
  rcases outcome with _ | ⟨_ | name⟩ | c <;> simp [Settles, clamav, Raises]

theorem yara_settles (outcome : Option Outcome) : Settles (yara outcome) (Raises outcome) := by
  rcases outcome with _ | ⟨_ | name⟩ | c <;> simp [Settles, yara, Raises]

theorem oletools_settles (detected : Text) (outcome : Option Outcome) :
    Settles (oletools detected outcome) (isOffice detected = true ∧ Raises outcome) := by
  unfold oletools
  cases isOffice detected with
  | false => simp [Settles]
  | true => rcases outcome with _ | ⟨_ | name⟩ | c <;> simp [Settles, Raises]

theorem clamav_texts (spares : Spares refused) {outcome : Option Outcome} {r : Report} (ran : clamav outcome = .ok r) :
    (∀ t ∈ r.texts, refused t = false) ↔
      ∀ c, outcome = some (.ok c) → ∀ t ∈ (clamavReport c).texts, refused t = false := by
  rcases outcome with _ | ⟨_ | name⟩ | c <;> simp only [clamav, Except.ok.injEq, reduceCtorEq] at ran
  · subst ran
    simpa [Report.texts, report] using spares _ (by decide)
  · subst ran
    simpa [Report.texts, report] using spares _ (by decide)
  · subst ran
    simp

theorem yara_texts {outcome : Option Outcome} {r : Option (List Text)} (ran : yara outcome = .ok r) :
    (∀ t ∈ r.getD [], refused t = false) ↔
      ∀ c, outcome = some (.ok c) → c.returncode = 0 ∨ c.returncode = 1 → ∀ t ∈ yaraNames c, refused t = false := by
  rcases outcome with _ | ⟨_ | name⟩ | c <;> simp only [yara, Except.ok.injEq, reduceCtorEq] at ran
  · subst ran
    simp
  · subst ran
    simp
  · subst ran
    by_cases known : c.returncode = 0 ∨ c.returncode = 1 <;> simp [known]

theorem oletools_texts (spares : Spares refused) {detected : Text} {outcome : Option Outcome} {r : Report}
    (ran : oletools detected outcome = .ok r) :
    (∀ t ∈ r.texts, refused t = false) ↔ (isOffice detected = true →
      ∀ c, outcome = some (.ok c) → ∀ t ∈ (oleReport c).texts, refused t = false) := by
  unfold oletools at ran
  cases office : isOffice detected with
  | false =>
    rw [office, if_neg Bool.false_ne_true] at ran
    cases ran
    simp [Report.texts]
  | true =>
    rw [office, if_pos rfl] at ran
    rcases outcome with _ | ⟨_ | name⟩ | c <;> simp only [Except.ok.injEq, reduceCtorEq] at ran
    · subst ran
      simpa [Report.texts, report] using spares _ (by decide)
    · subst ran
      simpa [Report.texts, report] using spares _ (by decide)
    · subst ran
      simp

theorem runTools_handled_iff (spares : Spares refused) (tools : Tools) (detected : Text) :
    (Handled (runTools tools detected) fun reports =>
        ∀ t ∈ reports.1.texts ++ reports.2.1.getD [] ++ reports.2.2.texts, refused t = false) ↔
      ToolsUsable refused tools detected := by
  have clamavSettles := clamav_settles tools.clamscan
  have yaraSettles := yara_settles tools.yara
  have oleSettles := oletools_settles detected tools.oleid
  unfold runTools ToolsUsable
  rw [handled_bind, handled_remaining, handled_bind, clamavSettles.handled]
  refine imp_congr_right fun _ => and_congr_right fun clamavUsable => ?_
  obtain ⟨clamavReported, clamavRan⟩ := clamavSettles.runs clamavUsable
  simp only [clamavRan, Except.ok.injEq, forall_eq']
  rw [handled_bind, handled_remaining, handled_bind, yaraSettles.handled]
  refine imp_congr_right fun _ => and_congr_right fun yaraUsable => ?_
  obtain ⟨yaraReported, yaraRan⟩ := yaraSettles.runs yaraUsable
  simp only [yaraRan, Except.ok.injEq, forall_eq']
  rw [handled_bind, handled_remaining, handled_bind, oleSettles.handled, ← not_and]
  refine imp_congr_right fun _ => and_congr_right fun oleUsable => ?_
  obtain ⟨oleReported, oleRan⟩ := oleSettles.runs oleUsable
  simp only [oleRan, Except.ok.injEq, forall_eq', pure, Except.pure, Handled, List.forall_mem_append,
    clamav_texts spares clamavRan, yara_texts yaraRan, oletools_texts spares oleRan]
  exact ⟨fun ⟨⟨clamav, yara⟩, ole⟩ => ⟨clamav, yara, ole⟩, fun prints => ⟨⟨prints.1, prints.2⟩, prints.3⟩⟩

theorem scan_result_iff (spares : Spares refused) (canaryEnabled : Bool) (tools : Tools) (file : lib.File) :
    (∃ result, scan lib config canaryEnabled tools file = .ok result ∧ ∀ t ∈ result.recorded, refused t = false) ↔
      Scannable lib config refused tools file := by
  unfold scan Scannable
  cases detectType tools with
  | error e => simp
  | ok detected =>
    simp only [Except.ok.injEq, exists_eq_left']
    rw [← archiveMetadata_escapes_iff spares, ← archiveMetadata_passes_iff]
    cases metadata : archiveMetadata lib config file with
    | error e =>
      cases e with
      | library e => simp [Escapes]
      | archivePolicy message =>
        have constant := spares (text "archive policy rejected first") (by decide)
        have both : (∀ t, text "archive policy rejected first" = t ∨ t = message → refused t = false) ↔
            refused message = false :=
          ⟨fun all => all message (.inr rfl),
            fun spared t same => same.elim (fun e => e ▸ constant) fun e => e ▸ spared⟩
        simp [Escapes, ScanResult.recorded, Report.texts, ArchiveMetadata.texts, both]
    | ok found =>
      have noText := archiveMetadata_texts metadata
      rw [← runTools_handled_iff spares]
      simp only [Escapes, not_false_eq_true, true_and, Except.ok.injEq, exists_eq', forall_const]
      cases runTools tools detected with
      | error e =>
        cases e with
        | other name => simp [Handled]
        | timeoutExpired =>
          have constant := spares (text "total artifact scan timed out") (by decide)
          simp [Handled, ScanResult.recorded, Report.texts, report, noText, constant]
      | ok reports =>
        simp [Handled, ScanResult.recorded, judge, noText]

end


open EventRun

/-! What a verdict says, and what the worker does with it. -/

structure Vetted (tools : Tools) (detected : Text) : Prop where
  clamav : ∃ c, tools.clamscan = some (.ok c) ∧ c.returncode = 0
  yara : ∃ c, tools.yara = some (.ok c) ∧ (c.returncode = 0 ∨ c.returncode = 1) ∧ yaraNames c = []
  oletools : isOffice detected = true → ∃ c, tools.oleid = some (.ok c) ∧ c.returncode = 0

theorem clamav_clean {outcome : Option Outcome} {r : Report} (ran : clamav outcome = .ok r)
    (unsuspected : r.status ≠ some .malicious) (worked : r.status ≠ some .failed) :
    ∃ c, outcome = some (.ok c) ∧ c.returncode = 0 := by
  rcases outcome with _ | ⟨_ | name⟩ | c <;> simp only [clamav, Except.ok.injEq, reduceCtorEq] at ran <;> subst ran
  · exact absurd rfl worked
  · exact absurd rfl worked
  · refine ⟨c, rfl, ?_⟩
    by_contra nonzero
    rw [clamavReport, if_neg nonzero] at unsuspected worked
    split at unsuspected
    · exact unsuspected rfl
    · next other => exact worked (by rw [if_neg other]; rfl)

theorem yara_unmatched {outcome : Option Outcome} (ran : yara outcome = .ok (some [])) :
    ∃ c, outcome = some (.ok c) ∧ (c.returncode = 0 ∨ c.returncode = 1) ∧ yaraNames c = [] := by
  rcases outcome with _ | ⟨_ | name⟩ | c <;> simp only [yara, Except.ok.injEq, reduceCtorEq] at ran
  split at ran
  · next known => exact ⟨c, rfl, known, Option.some.inj ran⟩
  · cases ran

theorem oletools_worked {detected : Text} {outcome : Option Outcome} {r : Report}
    (ran : oletools detected outcome = .ok r) (worked : r.status ≠ some .failed) (office : isOffice detected = true) :
    ∃ c, outcome = some (.ok c) ∧ c.returncode = 0 := by
  unfold oletools at ran
  rw [if_pos office] at ran
  rcases outcome with _ | ⟨_ | name⟩ | c <;> simp only [Except.ok.injEq, reduceCtorEq] at ran <;> subst ran
  · exact absurd rfl worked
  · exact absurd rfl worked
  · refine ⟨c, rfl, ?_⟩
    by_contra nonzero
    exact worked (by rw [oleReport, if_neg nonzero]; rfl)

theorem scan_clean {lib : Library} {config : Config} {canaryEnabled : Bool} {tools : Tools} {file : lib.File}
    {result : ScanResult} (scanned : scan lib config canaryEnabled tools file = .ok result)
    (clean : result.status = .clean) : Vetted tools result.detectedType := by
  unfold scan at scanned
  split at scanned
  · cases scanned
  · next detected _ =>
    dsimp only at scanned
    split at scanned
    · cases scanned
      cases clean
    · cases scanned
    · split at scanned
      · cases scanned
        cases clean
      · cases scanned
      · next clamavReported yaraReported oleReported ran =>
        cases scanned
        simp only [runTools, bind_eq_ok] at ran
        obtain ⟨_, -, _, clamavRan, _, -, _, yaraRan, _, -, _, oleRan, done⟩ := ran
        cases done
        simp only [judge] at clean
        split at clean
        · cases clean
        · next unsuspected =>
          split at clean
          · cases clean
          · next worked =>
            obtain ⟨clamavWorked, _, oleWorked⟩ := not_or.mp worked |>.imp_right not_or.mp
            split at clean
            · cases clean
            · next unmatched =>
              rw [not_not.mp unmatched] at yaraRan
              exact ⟨clamav_clean clamavRan unsuspected clamavWorked, yara_unmatched yaraRan,
                oletools_worked oleRan oleWorked⟩

def unstorable (t : Text) : Bool := !storable t

theorem unstorable_spares : Spares unstorable := fun _ fine => by rw [unstorable, fine]; rfl

def Served {File : Type} (turn : Turn File) : Prop :=
  ∃ result : ScanResult, turn.after = turn.before.map (Artifact.settle turn.selected.artifactId result) ∧
    (result.status = .clean → Vetted turn.tools result.detectedType)

section
variable {lib : Library} {config : Config}

def Sound (w : World lib) : Prop := ∀ turn ∈ w.turns, Served turn

variable (config) in
def Fine (w : World lib) : Event lib → Prop
  | .iterate held tools =>
    ∀ artifact, oldest held w.db.artifacts = some artifact →
      Scannable lib config unstorable tools artifact.staged
  | _ => True

theorem scanArtifactRecord_eq_some {db db' : Database lib.File} {artifact : Artifact lib.File} {tools : Tools}
    (recorded : scanArtifactRecord lib config db artifact tools = some db') :
    ∃ result, scan lib config false tools artifact.staged = .ok result ∧
      db'.artifacts = db.artifacts.map (Artifact.settle artifact.artifactId result) := by
  unfold scanArtifactRecord at recorded
  split at recorded
  · cases recorded
  · next result scanned =>
    split at recorded
    · cases recorded
      exact ⟨result, scanned, rfl⟩
    · cases recorded

theorem scanArtifactRecord_isSome_iff (db : Database lib.File) {artifact : Artifact lib.File} {tools : Tools} :
    (∃ db', scanArtifactRecord lib config db artifact tools = some db') ↔
      Scannable lib config unstorable tools artifact.staged := by
  rw [← scan_result_iff unstorable_spares false, scanArtifactRecord]
  cases scan lib config false tools artifact.staged with
  | error e => simp
  | ok result => simp [unstorable, List.all_eq_true]

theorem oldest_spec {held : Text → Bool} {artifacts : List (Artifact lib.File)} {artifact : Artifact lib.File}
    (found : oldest held artifacts = some artifact) : artifact ∈ artifacts ∧ artifact.isWaiting = true := by
  obtain ⟨mem, kept⟩ := List.mem_filter.mp (List.argmin_mem found)
  exact ⟨mem, (Bool.and_eq_true_iff.mp kept).1⟩

theorem settle_waiting {artifactId : Text} {result : ScanResult} {a : Artifact lib.File}
    (waits : (a.settle artifactId result).isWaiting = true) :
    a.artifactId ≠ artifactId ∧ a.settle artifactId result = a := by
  unfold Artifact.settle at waits ⊢
  split at waits
  · cases waits
  · next other => exact ⟨other, if_neg other⟩

theorem settled_ne {artifacts : List (Artifact lib.File)} {artifact : Artifact lib.File}
    (mem : artifact ∈ artifacts) (waits : artifact.isWaiting = true) (result : ScanResult) :
    artifacts ≠ artifacts.map (Artifact.settle artifact.artifactId result) := by
  intro same
  rw [same] at mem
  obtain ⟨a, -, settled⟩ := List.mem_map.mp mem
  obtain ⟨other, unchanged⟩ := settle_waiting (settled ▸ waits)
  exact other (by rw [← unchanged, settled])

theorem step_sound_iff {w : World lib} (e : Event lib) (sound : Sound w) :
    Sound (step config w e) ↔ Fine config w e := by
  cases e with
  | upload artifactId createdAt staged => exact iff_of_true sound trivial
  | approve artifactId => exact iff_of_true sound trivial
  | iterate held tools =>
    simp only [step, Fine]
    cases found : oldest held w.db.artifacts with
    | none => exact iff_of_true sound fun _ none => (by cases none)
    | some artifact =>
      obtain ⟨mem, waits⟩ := oldest_spec found
      simp only [Sound, List.forall_mem_cons, Option.some.injEq, forall_eq']
      rw [and_iff_left (show ∀ turn ∈ w.turns, Served turn from sound),
        ← scanArtifactRecord_isSome_iff w.db]
      constructor
      · rintro ⟨result, settled, -⟩
        cases recorded : scanArtifactRecord lib config w.db artifact tools with
        | some db' => exact ⟨db', rfl⟩
        | none =>
          rw [recorded] at settled
          exact absurd settled (settled_ne mem waits result)
      · rintro ⟨db', recorded⟩
        obtain ⟨result, scanned, settled⟩ := scanArtifactRecord_eq_some recorded
        exact ⟨result, by rw [recorded]; exact settled, scan_clean scanned⟩

def waiting (w : World lib) : List (Artifact lib.File) := w.db.artifacts.filter Artifact.isWaiting

theorem settle_fewer {artifacts : List (Artifact lib.File)} {artifact : Artifact lib.File} (mem : artifact ∈ artifacts)
    (waits : artifact.isWaiting = true) (result : ScanResult) :
    ((artifacts.map (Artifact.settle artifact.artifactId result)).filter Artifact.isWaiting).length <
      (artifacts.filter Artifact.isWaiting).length := by
  have kept : ∀ a : Artifact lib.File, (a.settle artifact.artifactId result).isWaiting = true → a.isWaiting = true :=
    fun a still => (settle_waiting still).2 ▸ still
  have selected : (artifact.settle artifact.artifactId result).isWaiting = false := by
    rw [Artifact.settle, if_pos rfl]
    rfl
  rw [← List.countP_eq_length_filter, ← List.countP_eq_length_filter, List.countP_map]
  obtain ⟨front, rest, rfl⟩ := List.append_of_mem mem
  have fewer := List.countP_mono_left (l := front ++ rest) fun a _ => kept a
  simp only [List.countP_append, List.countP_cons, Function.comp_def, selected, waits, Bool.false_eq_true,
    if_false, if_true] at fewer ⊢
  omega

theorem queue_served (passes : List Tools) (w : World lib) (enough : (waiting w).length ≤ passes.length)
    (fine : Along (step config) (Fine config) w (passes.map (Event.iterate fun _ => false))) :
    waiting (run (step config) w (passes.map (Event.iterate fun _ => false))) = [] := by
  induction passes generalizing w with
  | nil => exact List.length_eq_zero_iff.mp (Nat.le_zero.mp enough)
  | cons tools passes ih =>
    rw [List.map_cons, run_cons]
    refine ih _ ?_ fine.2
    simp only [step]
    cases found : oldest (fun _ => false) w.db.artifacts with
    | none =>
      have empty : waiting w = [] := by simpa [oldest, waiting] using found
      simp [empty]
    | some artifact =>
      obtain ⟨mem, waits⟩ := oldest_spec found
      obtain ⟨db', recorded⟩ := (scanArtifactRecord_isSome_iff w.db).mpr (fine.1 artifact found)
      obtain ⟨result, -, settled⟩ := scanArtifactRecord_eq_some recorded
      have fewer := settle_fewer mem waits result
      rw [← settled] at fewer
      simp only [recorded, Option.getD_some]
      exact Nat.le_of_lt_succ (lt_of_lt_of_le fewer enough)

theorem queue_starved {w : World lib} {held : Text → Bool} {tools : Tools} {artifact : Artifact lib.File}
    (found : oldest held w.db.artifacts = some artifact)
    (stuck : ¬Scannable lib config unstorable tools artifact.staged) (n : ℕ) :
    (run (step config) w (List.replicate n (.iterate held tools))).db = w.db := by
  have crashes : scanArtifactRecord lib config w.db artifact tools = none := by
    cases recorded : scanArtifactRecord lib config w.db artifact tools with
    | none => rfl
    | some db' => exact absurd ((scanArtifactRecord_isSome_iff w.db).mp ⟨db', recorded⟩) stuck
  induction n generalizing w with
  | zero => rfl
  | succ n ih =>
    have same : (step config w (.iterate held tools)).db = w.db := by simp [step, found, crashes]
    rw [List.replicate_succ, run_cons, ih (by rw [same]; exact found) (by rw [same]; exact crashes), same]

/-- Every upload gets its verdict and none is in the way of the others, exactly as long as nothing that a scan
comes to raises and the database takes what it gives. -/
theorem every_upload_judged_iff (lib : Library) (config : Config) :
    (∀ (canaryEnabled : Bool) (tools : Tools) (file : lib.File),
      (∃ result, scan lib config canaryEnabled tools file = .ok result ∧
          (result.status = .clean → Vetted tools result.detectedType)) ↔
        Scannable lib config (fun _ => false) tools file) ∧
    (∀ (db : Database lib.File) (events : List (Event lib)),
      Throughout (step config) Sound ⟨db, []⟩ events ↔ Along (step config) (Fine config) ⟨db, []⟩ events) ∧
    ∀ (w : World lib) (passes : List Tools), (waiting w).length ≤ passes.length →
      Along (step config) (Fine config) w (passes.map (Event.iterate fun _ => false)) →
      waiting (run (step config) w (passes.map (Event.iterate fun _ => false))) = [] := by
  refine ⟨fun canaryEnabled tools file => ?_, fun db events => ?_, fun w passes => queue_served passes w⟩
  · rw [← scan_result_iff (fun _ _ => rfl) canaryEnabled]
    exact ⟨fun ⟨result, scanned, _⟩ => ⟨result, scanned, fun _ _ => rfl⟩,
      fun ⟨result, scanned, _⟩ => ⟨result, scanned, scan_clean scanned⟩⟩
  · exact throughout_iff_along (I := fun _ => True) (fun _ _ _ => trivial) (fun _ e _ sound => step_sound_iff e sound)
      trivial (fun _ mem => (by cases mem)) events

end

/-! An archive whose one member is named `.`, and a text. -/

inductive Sample where
  | plain
  | zip (member : Text)

def sampleLibrary : Library where
  File := Sample
  isZipfile
    | .plain => .ok false
    | .zip _ => .ok true
  openZip
    | .plain => .error (.other (text "BadZipFile"))
    | .zip member => .ok [⟨member, 0, 0, 4, 4, .ok .plain⟩]
  isTarfile := fun _ => .ok false
  openTar := fun _ => .error (.other (text "ReadError"))
  nameable := fun _ => true
  printable := fun _ => true

def sampleConfig : Config :=
  ⟨3, 1000, 500, 250, fun expanded compressed => 100 * compressed < expanded, fun _ _ => [], fun _ _ => rfl⟩

def sampleTools : Tools where
  file := none
  guessedType := text "text/plain"
  guessedType_storable := by decide
  clamscan := some (.ok ⟨0, [], []⟩)
  yara := some (.ok ⟨0, [], []⟩)
  oleid := none
  clamavInTime := true
  yaraInTime := true
  oletoolsInTime := true

def sampleWorld (first : Sample) : World sampleLibrary :=
  ⟨⟨[⟨text "1", 1, first, .uploaded, none⟩, ⟨text "2", 2, .plain, .uploaded, none⟩], []⟩, []⟩


theorem plain_scannable : Scannable sampleLibrary sampleConfig unstorable sampleTools .plain := by
  refine ⟨text "text/plain", rfl, by decide, ?_, fun _ _ => ⟨?_, fun _ => ⟨?_, fun _ => ⟨fun _ => ?_, ?_⟩⟩⟩⟩
  · rintro (⟨e, raised⟩ | ⟨archive, -⟩)
    · cases raised
    · cases archive
  · rintro ⟨name, raised⟩
    cases raised
  · rintro ⟨name, raised⟩
    cases raised
  · rintro ⟨name, raised⟩
    cases raised
  · constructor
    · rintro c found
      cases found
      decide
    · rintro c found
      cases found
      decide
    · rintro - c found
      cases found

theorem upload_judged :
    waiting (run (step sampleConfig) ⟨⟨[⟨text "1", 1, Sample.plain, .uploaded, none⟩], []⟩, []⟩
      ([sampleTools].map (Event.iterate fun _ => false)) : World sampleLibrary) = [] := by
  refine (every_upload_judged_iff sampleLibrary sampleConfig).2.2 _ _ (by decide) ⟨?_, trivial⟩
  rintro artifact found
  cases found
  exact plain_scannable

theorem dot_member_raises : scan sampleLibrary sampleConfig false sampleTools (Sample.zip (text ".")) =
    .error (.library (.other (text "OSError"))) := rfl

theorem dot_member_oldest : oldest (fun _ => false) (sampleWorld (.zip (text "."))).db.artifacts =
    some ⟨text "1", 1, Sample.zip (text "."), .uploaded, none⟩ := rfl

theorem dot_member_stuck :
    ¬Scannable sampleLibrary sampleConfig unstorable sampleTools (Sample.zip (text ".")) := by
  intro scannable
  obtain ⟨result, scanned, -⟩ := (scan_result_iff unstorable_spares false sampleTools _).mpr scannable
  have same := dot_member_raises.symm.trans scanned
  cases same

theorem dot_member_starves :
    scan sampleLibrary sampleConfig false sampleTools (Sample.zip (text ".")) =
        .error (.library (.other (text "OSError"))) ∧
      ∀ n : ℕ, (run (step sampleConfig) (sampleWorld (.zip (text ".")))
        (List.replicate n (.iterate (fun _ => false) sampleTools))).db = (sampleWorld (.zip (text "."))).db :=
  ⟨dot_member_raises, queue_starved dot_member_oldest dot_member_stuck⟩

end Mirage.ArtifactScanner
