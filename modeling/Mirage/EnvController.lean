import Mirage.Effects
import Mirage.FileTree
import Mirage.PythonValues
import Mirage.SandboxActions

/-! actions.py of mirage-env-controller: the handlers of the structured actions, the
journal of their rollback definitions, and `execute_action` with `ROLLBACK_ACTION`, over a
file tree with symbolic links. -/

namespace Mirage.EnvController
open FileTree Effects SandboxActions

structure Times (τ : Type) where
  accessed : τ
  modified : τ

/-- What a GET gives: whether the status is a success, the chunks of the body,
and whether the body came to its end. -/
inductive Fetched where
  | unreachable
  | answered (success : Bool) (chunks : List ByteArray) (complete : Bool)

inductive MemberKind where
  | dir
  | file (content : ByteArray)
  | link (target : String)

structure Member where
  name : String
  kind : MemberKind

abbrev Files (τ : Type) := Tree ByteArray (Times τ)

structure Externals (τ : Type) where
  /-- How many links a path may be followed through. -/
  limit : ℕ
  digest : ByteArray → String
  b64decode : Json → Option ByteArray
  dumps : Json → String
  /-- `json.loads` of a text read back. -/
  loads : ByteArray → Option Json
  /-- What was written for a dictionary is read as a dictionary. -/
  loads_dumps : ∀ members, ∃ members', loads (dumps (.obj members)).toUTF8 = some (.obj members')
  /-- `datetime.fromisoformat(text).timestamp()`. -/
  isoTime : String → Option τ
  /-- The time that `os.utime` sets for a number. -/
  numberTime : Json → Option τ
  /-- The number that `stat` shows for a time. -/
  shownTime : τ → Json
  /-- A time that `stat` showed is set again as it was. -/
  numberTime_shownTime : ∀ time, numberTime (shownTime time) = some time
  shownTime_number : ∀ time text, shownTime time ≠ .str text
  urlparse : String → Option (String × Option String)
  fetch : String → Fetched
  /-- The bytes of an archive of these directories. -/
  archive : Files τ → List Loc → ByteArray
  members : ByteArray → Option (List Member)

structure Context where
  allowedRoots : List Loc
  programdata : Loc
  baselineSnapshot : Option Loc

/-- The clock at a call: the times of what it makes, `time.time()`, and the same
in milliseconds. -/
structure Clock (τ : Type) where
  now : Times τ
  time : Json
  millis : ℕ

inductive Failure where
  /-- `RestrictedPathError`. -/
  | emptyPath
  | notAbsolute (path : String)
  | outsideRoots (path : Loc)
  /-- `UnapprovedServiceError`. -/
  | unapprovedService (serviceId : Json)
  | keyError (name : String)
  | typeError
  | indexError
  | valueError
  | expectedHash (expected : Json) (actual : String)
  | downloadUrl
  | downloadTooLarge
  | downloadHash
  | noContent
  | outputTag
  | network
  | notFound (path : Loc)
  | noJournalEntry
  | notSuccess
  | os

def Failure.restricted : Failure → Bool
  | emptyPath | notAbsolute _ | outsideRoots _ | unapprovedService _ => true
  | _ => false

inductive RollbackDefinition where
  | noop
  | deleteFile (path : Loc)
  | deleteDirectory (path : Loc)
  | moveFile (path destination : Loc)
  | restoreMetadata (path : Loc) (priorState : Json)
  | enableDecoyService (serviceId priorState : Json)
  | disableDecoyService (serviceId : Json)

abbrev Action (τ α : Type) := Act Failure (Files τ) Loc α

variable {τ : Type}

def item (params : Json) (name : String) : Except Failure Json :=
  match params with
  | .obj members =>
    match Json.member name members with
    | some value => .ok value
    | none => .error (.keyError name)
  | _ => .error .typeError

def getItem (params : Json) (name : String) (default : Json) : Except Failure Json :=
  match params with
  | .obj members => .ok ((Json.member name members).getD default)
  | _ => .error .typeError

def lift {α : Type} (value : Except Failure α) : Action τ α := look fun _ => value

section
variable (x : Externals τ) (ctx : Context)

def withinRoots (t : Files τ) (p : Loc) : List Loc → Except Failure Loc
  | [] => .error (.outsideRoots p)
  | root :: rest =>
    match t.follow x.limit root with
    | none => .error .os
    | some r => if r <:+ p then .ok p else withinRoots t p rest

/-- `_resolve_within_roots` of a path that the controller has written itself. -/
def resolvePath (t : Files τ) (path : Loc) : Except Failure Loc :=
  match t.follow x.limit path with
  | none => .error .os
  | some p => withinRoots x t p ctx.allowedRoots

def resolveWithinRoots (t : Files τ) (rawPath : Json) : Except Failure Loc :=
  if !rawPath.isTrue then .error .emptyPath
  else
    match rawPath with
    | .str path =>
      if !absolute path then .error (.notAbsolute path)
      else if '\x00' ∈ path.toList then .error .valueError
      else resolvePath x ctx t (names path).reverse
    | _ => .error .typeError

def pathParam (t : Files τ) (params : Json) (name : String) : Except Failure Loc := do
  resolveWithinRoots x ctx t (← item params name)

/-! Actions on the file system. -/

variable (clock : Clock τ)

def mkdirs (p : Loc) : Action τ Unit := change .os fun t => t.mkdirs x.limit clock.now p

def writeBytes (p : Loc) (content : ByteArray) : Action τ Unit :=
  change .os fun t => t.write x.limit clock.now p fun _ => content

def writeText (p : Loc) (text : String) : Action τ Unit := writeBytes x clock p text.toUTF8

def appendText (p : Loc) (text : String) : Action τ Unit :=
  change .os fun t => t.write x.limit clock.now p fun old => old.getD .empty ++ text.toUTF8

def unlink (p : Loc) : Action τ Unit := change .os fun t => t.unlink x.limit p

def rmtree (p : Loc) : Action τ Unit :=
  if p = [] then do
    change .os fun t => some (t.clear, [[]])
    raise .os
  else change .os fun t => t.rmtree x.limit p

def move (source destination : Loc) : Action τ Unit :=
  change .os fun t => t.move x.limit source destination

def pathExists (p : Loc) : Action τ Bool := look fun t => .ok (t.existsAt x.limit p)

def timeOf : Json → Option τ
  | .str text => x.isoTime (String.ofList (text.toList.flatMap fun c =>
      if c = 'Z' then "+00:00".toList else [c]))
  | value => x.numberTime value

def fieldTime (fields : Json) (name : String) (default : τ) : Except Failure τ :=
  match fields with
  | .obj members =>
    match Json.member name members with
    | none => .ok default
    | some value =>
      match timeOf x value with
      | some time => .ok time
      | none => .error .valueError
  | _ => .error .typeError

def stat (t : Files τ) (path : Loc) : Except Failure (Times τ) :=
  match (t.follow x.limit path).bind t.info? with
  | some info => .ok info
  | none => .error .os

def applyMetadataFields (path : Loc) (fields : Json) : Action τ Unit := do
  let stat ← look fun t => stat x t path
  let atime ← lift (fieldTime x fields "accessed_time" stat.accessed)
  let mtime ← lift (fieldTime x fields "modified_time" stat.modified)
  change .os fun t => t.utime x.limit path ⟨atime, mtime⟩

def localHosts : List String := ["localhost", "127.0.0.1", "host.docker.internal", "mirage-api"]

def approvedUrl (downloadUrl : Json) : Except Failure String :=
  match downloadUrl with
  | .str url =>
    match x.urlparse url with
    | some (scheme, hostname) =>
      if scheme ≠ "https" && !(scheme = "http" && hostname.any (· ∈ localHosts)) then
        .error .downloadUrl
      else .ok url
    | none => .error .valueError
  | _ => .error .typeError

/-- `destination.with_name(f".{destination.name}.mirage-download")`. -/
def tempPath : Loc → Except Failure Loc
  | [] => .error .valueError
  | name :: parent => .ok (("." ++ name ++ ".mirage-download") :: parent)

def takeChunks (size : ℕ) : List ByteArray → List ByteArray × Bool
  | [] => ([], true)
  | chunk :: rest =>
    if size + chunk.size > 250 * 1024 * 1024 then ([], false)
    else ((chunk :: (takeChunks (size + chunk.size) rest).1), (takeChunks (size + chunk.size) rest).2)

def checkedDownload (expectedHash : Json) (success complete : Bool) (taken : List ByteArray × Bool) :
    Except Failure Unit :=
  if !success then .error .network
  else if !taken.2 then .error .downloadTooLarge
  else if !complete then .error .network
  else if !expectedHash.isTrue ||
      !Json.isText (some expectedHash) (x.digest (taken.1.foldl (· ++ ·) .empty)) then
    .error .downloadHash
  else .ok ()

def fetchInto (temp destination : Loc) (url : String) (expectedHash : Json) : Action τ Unit :=
  match x.fetch url with
  | .unreachable => raise .network
  | .answered success chunks complete => do
    let taken := if success then takeChunks 0 chunks else ([], true)
    writeBytes x clock temp (taken.1.foldl (· ++ ·) .empty)
    lift (checkedDownload x expectedHash success complete taken)
    change .os fun t => (t.entry x.limit temp).bind fun s =>
      (t.entry x.limit destination).bind fun d => t.rename s d

def unlinkMissingOk (p : Loc) : Action τ Unit :=
  change .os fun t =>
    if (t.entry x.limit p).any fun q => (t.node q).isNone then some (t, []) else t.unlink x.limit p

def download (destination : Loc) (downloadUrl expectedHash : Json) : Action τ Unit := do
  let url ← lift (approvedUrl x downloadUrl)
  mkdirs x clock destination.tail
  let temp ← lift (tempPath destination)
  onError (fetchInto x clock temp destination url expectedHash) (unlinkMissingOk x temp)

def decoded (contentB64 expectedHash : Json) : Except Failure ByteArray :=
  match x.b64decode contentB64 with
  | none => .error .valueError
  | some content =>
    if expectedHash.isTrue && !Json.isText (some expectedHash) (x.digest content) then
      .error (.expectedHash expectedHash (x.digest content))
    else .ok content

def placeInline (destination : Loc) (contentB64 expectedHash : Json) : Action τ Unit := do
  let content ← lift (decoded x contentB64 expectedHash)
  mkdirs x clock destination.tail
  writeBytes x clock destination content

def placeContent (destination : Loc) (downloadUrl contentB64 expectedHash : Json) : Action τ Unit :=
  if downloadUrl.isTrue then download x clock destination downloadUrl expectedHash
  else
    match contentB64 with
    | .null => raise .noContent
    | contentB64 => placeInline x clock destination contentB64 expectedHash

/-- `params.get("expected_sha256") or params.get("expected_hash")`. -/
def expectedHashOf (params : Json) : Except Failure Json := do
  let sha256 ← getItem params "expected_sha256" .null
  if sha256.isTrue then pure sha256 else getItem params "expected_hash" .null

def placeMetadata (destination : Loc) (visibleMetadata : Json) : Action τ Unit :=
  if visibleMetadata.isTrue then applyMetadataFields x destination visibleMetadata else pure ()

def placeArtifact (params : Json) : Action τ RollbackDefinition := do
  let destination ← look fun t => pathParam x ctx t params "destination"
  let contentB64 ← lift (getItem params "content_b64" .null)
  let downloadUrl ← lift (getItem params "download_url" .null)
  let expectedHash ← lift (expectedHashOf params)
  placeContent x clock destination downloadUrl contentB64 expectedHash
  let visibleMetadata ← lift (getItem params "visible_metadata" .null)
  placeMetadata x destination visibleMetadata
  pure (.deleteFile destination)

def present (p : Loc) : Action τ Unit := look fun t =>
  if t.existsAt x.limit p then .ok () else .error (.notFound p)

def moveArtifact (params : Json) : Action τ RollbackDefinition := do
  let source ← look fun t => pathParam x ctx t params "source"
  let destination ← look fun t => pathParam x ctx t params "destination"
  present x source
  mkdirs x clock destination.tail
  move x source destination
  pure (.moveFile destination source)

def writeProfile (path : Loc) (metadataProfile : Json) : Action τ Unit :=
  if metadataProfile.isTrue then
    writeText x clock (".mirage_metadata_profile.json" :: path) (x.dumps metadataProfile)
  else pure ()

def createDecoyDirectory (params : Json) : Action τ RollbackDefinition := do
  let path ← look fun t => pathParam x ctx t params "path"
  mkdirs x clock path
  let metadataProfile ← lift (getItem params "metadata_profile" .null)
  writeProfile x clock path metadataProfile
  pure (.deleteDirectory path)

def changeVisibleMetadata (params : Json) : Action τ RollbackDefinition := do
  let target ← look fun t => pathParam x ctx t params "target"
  present x target
  let approvedFields ← lift (item params "approved_fields")
  let priorState ← lift (item params "prior_state")
  applyMetadataFields x target approvedFields
  pure (.restoreMetadata target priorState)

def firstRoot : Except Failure Loc :=
  match ctx.allowedRoots with
  | root :: _ => .ok root
  | [] => .error .indexError

def messageTag (params : Json) : Except Failure Json := do
  let outputTag ← getItem params "output_tag" .null
  if Json.isText (some outputTag) "AI_GENERATED_INTERACTION" ||
      Json.isText (some outputTag) "ANALYST_MESSAGE" then pure outputTag
  else .error .outputTag

def messageEntry (params outputTag : Json) : Except Failure String := do
  let surface ← item params "surface"
  let content ← item params "content"
  pure (x.dumps (.obj [("surface", surface), ("content", content), ("output_tag", outputTag),
    ("at", clock.time)]) ++ "\n")

def displayMessage (params : Json) : Action τ RollbackDefinition := do
  let outputTag ← lift (messageTag params)
  let root ← lift (firstRoot ctx)
  mkdirs x clock root
  let line ← lift (messageEntry x clock params outputTag)
  appendText x clock ("_messages.log" :: root) line
  pure .noop

def approvedDecoyServices : List (String × String) :=
  [ ("decoy-print-spooler", "MirageDecoyPrintSpooler"),
    ("decoy-remote-registry", "MirageDecoyRemoteRegistry"), ("decoy-ftp", "MirageDecoyFtp") ]

def resolveApprovedServiceName (serviceId : Json) : Except Failure String :=
  match serviceId with
  | .str id =>
    match approvedDecoyServices.find? fun service => service.1 = id with
    | some _ => .ok id
    | none => .error (.unapprovedService serviceId)
  | .arr _ | .obj _ => .error .typeError
  | other => .error (.unapprovedService other)

def markerPath (serviceId : Json) : Except Failure Loc := do
  let id ← resolveApprovedServiceName serviceId
  let root ← firstRoot ctx
  pure ((id ++ ".enabled") :: "_decoy_services" :: root)

def enable (serviceId configProfile : Json) : Action τ Unit := do
  let marker ← lift (markerPath ctx serviceId)
  mkdirs x clock marker.tail
  writeText x clock marker (x.dumps (.obj [("config_profile", configProfile)]))

def storedProfile (t : Files τ) (marker : Loc) : Except Failure Json :=
  match (t.contentAt x.limit marker).bind x.loads with
  | some (.obj members) => .ok ((Json.member "config_profile" members).getD .null)
  | _ => .error .valueError

def disableMarker (marker : Loc) (found : Bool) : Action τ Json :=
  if found then do
    let configProfile ← look fun t => storedProfile x t marker
    unlink x marker
    pure (.obj [("config_profile", configProfile)])
  else pure .null

def disable (serviceId : Json) : Action τ Json := do
  let marker ← lift (markerPath ctx serviceId)
  let found ← pathExists x marker
  disableMarker x marker found

def enableDecoyService (params : Json) : Action τ RollbackDefinition := do
  let serviceId ← lift (item params "service_id")
  let configProfile ← lift (getItem params "config_profile" .null)
  enable x ctx clock serviceId configProfile
  pure (.disableDecoyService serviceId)

def disableDecoyService (params : Json) : Action τ RollbackDefinition := do
  let serviceId ← lift (item params "service_id")
  let priorState ← disable x ctx serviceId
  pure (.enableDecoyService serviceId priorState)

def snapshotsDir : Loc := "Snapshots" :: ctx.programdata

def snapshotPath : Loc :=
  ("snapshot-" ++ toString clock.millis ++ ".tar.gz") :: snapshotsDir ctx

def requestSnapshot : Action τ RollbackDefinition := do
  mkdirs x clock (snapshotsDir ctx)
  let archive ← look fun t => .ok (x.archive t (ctx.allowedRoots.filter (t.existsAt x.limit)))
  writeBytes x clock (snapshotPath ctx clock) archive
  pure (.deleteFile (snapshotPath ctx clock))

def concludedMarker : Loc := "session_concluded.json" :: ctx.programdata

def shutdownMarker : Loc := "shutdown_requested.json" :: ctx.programdata

def concludeSession (params : Json) : Action τ RollbackDefinition := do
  mkdirs x clock ctx.programdata
  let reason ← lift (item params "reason")
  writeText x clock (concludedMarker ctx)
    (x.dumps (.obj [("reason", reason), ("concluded_at", clock.time)]))
  pure (.deleteFile (concludedMarker ctx))

def testFilePlacement (params : Json) : Action τ RollbackDefinition := do
  let destination ← look fun t => pathParam x ctx t params "destination"
  mkdirs x clock destination.tail
  let content ← lift (getItem params "content" (.str "mirage-self-test"))
  let text ← lift (match content with
    | .str text => .ok text
    | _ => .error .typeError)
  writeText x clock destination text
  pure (.deleteFile destination)

def testMetadataUpdate (params : Json) : Action τ RollbackDefinition := do
  let target ← look fun t => pathParam x ctx t params "target"
  present x target
  let prior ← look fun t => stat x t target
  let modifiedTime ← lift (item params "modified_time")
  applyMetadataFields x target (.obj [("modified_time", modifiedTime)])
  pure (.restoreMetadata target (.obj [("modified_time", x.shownTime prior.modified)]))

/-! SOFT_RESET and FULL_REBUILD. -/

def removeRoot (root : Loc) (found : Bool) : Action τ Unit :=
  if found then rmtree x root else pure ()

def wipeRoot (root : Loc) : Action τ Unit := do
  let found ← pathExists x root
  removeRoot x root found
  mkdirs x clock root

def wipeRoots : List Loc → Action τ Unit
  | [] => pure ()
  | root :: rest => do
    wipeRoot x clock root
    wipeRoots rest

def memberPath (directory : Loc) (member : Member) : Loc :=
  (names member.name).reverse ++ if absolute member.name then [] else directory

def extractKind (target : Loc) : MemberKind → Action τ Unit
  | .dir => mkdirs x clock target
  | .file content => writeBytes x clock target content
  | .link text => do
    unlinkMissingOk x target
    change .os fun t => t.symlink x.limit text target

def extractAll (directory : Loc) : List Member → Action τ Unit
  | [] => pure ()
  | member :: rest => do
    mkdirs x clock (memberPath directory member).tail
    extractKind x clock (memberPath directory member) member.kind
    extractAll directory rest

def readMembers (t : Files τ) (snapshot : Loc) : Except Failure (List Member) :=
  match t.contentAt x.limit snapshot with
  | none => .error .os
  | some archive =>
    match x.members archive with
    | some members => .ok members
    | none => .error .valueError

def reseedFrom (snapshot : Loc) (found : Bool) : Action τ Unit :=
  if found then do
    let members ← look fun t => readMembers x t snapshot
    let root ← lift (firstRoot ctx)
    extractAll x clock root.tail members
  else pure ()

def reseed : Action τ Unit :=
  match ctx.baselineSnapshot with
  | none => pure ()
  | some snapshot => do
    let found ← pathExists x snapshot
    reseedFrom x ctx clock snapshot found

def wipeAndReseed : Action τ Unit := do
  wipeRoots x clock ctx.allowedRoots
  reseed x ctx clock

def softReset : Action τ RollbackDefinition := do
  wipeAndReseed x ctx clock
  pure .noop

def unlinkFound (p : Loc) (found : Bool) : Action τ Unit :=
  if found then unlink x p else pure ()

def fullRebuild : Action τ RollbackDefinition := do
  wipeAndReseed x ctx clock
  let found ← pathExists x (concludedMarker ctx)
  unlinkFound x (concludedMarker ctx) found
  pure .noop

def cleanShutdown (params : Json) : Action τ RollbackDefinition := do
  mkdirs x clock ctx.programdata
  let reason ← lift (getItem params "reason" (.str ""))
  writeText x clock (shutdownMarker ctx) (x.dumps (.obj [("reason", reason), ("at", clock.time)]))
  pure (.deleteFile (shutdownMarker ctx))

def removeDirectory (p : Loc) (found : Bool) : Action τ Unit :=
  if found then rmtree x p else pure ()

def moveBack (source destination : Loc) (found : Bool) : Action τ Unit :=
  if found then do
    mkdirs x clock destination.tail
    move x source destination
  else pure ()

def restoreFound (p : Loc) (priorState : Json) (found : Bool) : Action τ Unit :=
  if found then applyMetadataFields x p priorState else pure ()

def applyRollbackDefinition : RollbackDefinition → Action τ Unit
  | .noop => pure ()
  | .deleteFile path => do
    let p ← look fun t => resolvePath x ctx t path
    let found ← pathExists x p
    unlinkFound x p found
  | .deleteDirectory path => do
    let p ← look fun t => resolvePath x ctx t path
    let found ← pathExists x p
    removeDirectory x p found
  | .moveFile path destination => do
    let source ← look fun t => resolvePath x ctx t path
    let destination ← look fun t => resolvePath x ctx t destination
    let found ← pathExists x source
    moveBack x clock source destination found
  | .restoreMetadata path priorState => do
    let p ← look fun t => resolvePath x ctx t path
    let found ← pathExists x p
    restoreFound x p priorState found
  | .enableDecoyService serviceId priorState => enable x ctx clock serviceId priorState
  | .disableDecoyService serviceId => do
    let _ ← disable x ctx serviceId
    pure ()

def handler (actionType : ActionType) (params : Json) : Action τ RollbackDefinition :=
  match actionType with
  | .placeArtifact => placeArtifact x ctx clock params
  | .moveArtifact => moveArtifact x ctx clock params
  | .createDecoyDirectory => createDecoyDirectory x ctx clock params
  | .changeVisibleMetadata => changeVisibleMetadata x ctx params
  | .displayMessage => displayMessage x ctx clock params
  | .enableDecoyService => enableDecoyService x ctx clock params
  | .disableDecoyService => disableDecoyService x ctx params
  | .requestSnapshot => requestSnapshot x ctx clock
  | .concludeSession => concludeSession x ctx clock params
  | .testFilePlacement => testFilePlacement x ctx clock params
  | .testMetadataUpdate => testMetadataUpdate x ctx params
  | .softReset => softReset x ctx clock
  | .fullRebuild => fullRebuild x ctx clock
  | .cleanShutdown => cleanShutdown x ctx clock params
  | .rollbackAction => raise (.keyError "ROLLBACK_ACTION")

end

/-! The journal and the dispatcher. -/

inductive JournalStatus where
  | success
  | failed
  | rejected
  | rolledBack
  deriving DecidableEq

structure JournalRow where
  actionId : String
  actionType : ActionType
  actionParams : Json
  rollbackDefinition : Option RollbackDefinition
  status : JournalStatus

abbrev Journal := KeyedTable JournalRow.actionId

def record (journal : Journal) (row : JournalRow) : Journal :=
  journal.upsert row (fun old => { row with actionId := old.actionId }) fun _ => rfl

def markStatus (journal : Journal) (actionId : String) (status : JournalStatus) : Journal :=
  journal.update actionId (fun row => { row with status }) fun _ => rfl

structure ActionOutcome where
  status : JournalStatus
  outputTag : Option String
  rollbackDefinition : Option RollbackDefinition
  error : Option Failure

structure Call (τ : Type) where
  actionType : String
  params : Json
  actionId : String
  clock : Clock τ

structure Controller (τ : Type) where
  files : Files τ
  journal : Journal

structure Executed (τ : Type) where
  outcome : Option ActionOutcome
  after : Controller τ
  touched : List Loc

def defaultOutputTag : ActionType → Option String
  | .displayMessage => none
  | .enableDecoyService | .disableDecoyService => some "DECOY_SERVICE_OUTPUT"
  | _ => some "REAL_OS_OUTPUT"

def outputTagOf (actionType : ActionType) (params : Json) : Option String :=
  match actionType with
  | .displayMessage =>
    match params.get? "output_tag" with
    | some (.str tag) => some tag
    | _ => none
  | other => defaultOutputTag other

def failureStatus (failure : Failure) : JournalStatus :=
  if failure.restricted then .rejected else .failed

/-- The value that `WHERE action_id = ?` compares with the text column. -/
def boundText : Json → Except Failure (Option String)
  | .null => .ok none
  | .bool b => .ok (some (if b then "1" else "0"))
  | .int n => if -(2 ^ 63) ≤ n && n < 2 ^ 63 then .ok (some (toString n)) else .error .valueError
  | .float repr _ => .ok (some repr)
  | .str text => .ok (some text)
  | .arr _ | .obj _ => .error .typeError

def rejectedRollback (c : Controller τ) (failure : Failure) : Executed τ :=
  ⟨some ⟨.rejected, none, none, some failure⟩, c, []⟩

section
variable (x : Externals τ) (ctx : Context)

/-- `_execute_rollback_action` with the entry of its target. -/
def rollBack (c : Controller τ) (call : Call τ) (entry : JournalRow) : Executed τ :=
  let done := match entry.rollbackDefinition with
    | some definition => applyRollbackDefinition x ctx call.clock definition c.files
    | none => ⟨.ok (), c.files, []⟩
  match done.result with
  | .error failure =>
    ⟨some ⟨.failed, none, none, some failure⟩,
      ⟨done.state, record c.journal ⟨call.actionId, .rollbackAction, call.params, none, .failed⟩⟩,
      done.log⟩
  | .ok _ =>
    ⟨some ⟨.success, defaultOutputTag .rollbackAction, some .noop, none⟩,
      ⟨done.state, record (markStatus c.journal entry.actionId .rolledBack)
        ⟨call.actionId, .rollbackAction, call.params, some .noop, .success⟩⟩,
      done.log⟩

def executeRollbackAction (c : Controller τ) (call : Call τ) : Executed τ :=
  match (item call.params "target_action_id").bind boundText with
  | .error _ => ⟨none, c, []⟩
  | .ok target =>
    match target.bind c.journal.find with
    | none => rejectedRollback c .noJournalEntry
    | some entry =>
      if entry.status ≠ .success then rejectedRollback c .notSuccess else rollBack x ctx c call entry

def perform (c : Controller τ) (call : Call τ) (actionType : ActionType) : Executed τ :=
  let done := handler x ctx call.clock actionType call.params c.files
  match done.result with
  | .error failure =>
    ⟨some ⟨failureStatus failure, none, none, some failure⟩,
      ⟨done.state, record c.journal
        ⟨call.actionId, actionType, call.params, none, failureStatus failure⟩⟩, done.log⟩
  | .ok definition =>
    ⟨some ⟨.success, outputTagOf actionType call.params, some definition, none⟩,
      ⟨done.state, record c.journal
        ⟨call.actionId, actionType, call.params, some definition, .success⟩⟩, done.log⟩

def executeAction (c : Controller τ) (call : Call τ) : Executed τ :=
  match actionTypeOf call.actionType with
  | none => ⟨none, c, []⟩
  | some .rollbackAction => executeRollbackAction x ctx c call
  | some actionType => perform x ctx c call actionType

end

section
variable {x : Externals τ} {ctx : Context} {c : Controller τ} {call : Call τ}

theorem executeAction_perform {actionType : ActionType}
    (named : actionTypeOf call.actionType = some actionType) (other : actionType ≠ .rollbackAction) :
    executeAction x ctx c call = perform x ctx c call actionType := by
  unfold executeAction
  split
  next unknown =>
    rw [named] at unknown
    cases unknown
  next rolled =>
    rw [named] at rolled
    cases rolled
    exact absurd rfl other
  next _ named' =>
    rw [named] at named'
    cases named'
    rfl

theorem perform_files (actionType : ActionType) : (perform x ctx c call actionType).after.files =
    (handler x ctx call.clock actionType call.params c.files).state := by
  unfold perform
  dsimp only
  split <;> rfl

theorem perform_touched (actionType : ActionType) : (perform x ctx c call actionType).touched =
    (handler x ctx call.clock actionType call.params c.files).log := by
  unfold perform
  dsimp only
  split <;> rfl

theorem perform_rejected {actionType : ActionType} {outcome : ActionOutcome}
    (given : (perform x ctx c call actionType).outcome = some outcome)
    (rejected : outcome.status = .rejected) :
    ∃ failure, (handler x ctx call.clock actionType call.params c.files).result = .error failure ∧
      failure.restricted = true := by
  unfold perform at given
  dsimp only at given
  split at given
  next failure raised =>
    cases given
    refine ⟨failure, raised, ?_⟩
    by_contra other
    rw [failureStatus, if_neg other] at rejected
    cases rejected
  next =>
    cases given
    cases rejected

def rolledBack (c : Controller τ) (call : Call τ) : Option JournalRow :=
  match (item call.params "target_action_id").bind boundText with
  | .error _ => none
  | .ok target => (target.bind c.journal.find).filter fun entry => entry.status = .success

theorem executeRollbackAction_some {entry : JournalRow} (found : rolledBack c call = some entry) :
    executeRollbackAction x ctx c call = rollBack x ctx c call entry := by
  unfold rolledBack at found
  unfold executeRollbackAction
  split at found
  next => cases found
  next target named =>
    obtain ⟨held, success⟩ := Option.filter_eq_some_iff.mp found
    rw [held]
    simp only [of_decide_eq_true success, ne_eq, not_true_eq_false, if_false]

theorem executeRollbackAction_none (x : Externals τ) (ctx : Context) (missing : rolledBack c call = none) :
    (executeRollbackAction x ctx c call).after = c ∧
      (executeRollbackAction x ctx c call).touched = [] := by
  unfold rolledBack at missing
  unfold executeRollbackAction
  split at missing
  next => exact ⟨rfl, rfl⟩
  next target named =>
    split
    next => exact ⟨rfl, rfl⟩
    next entry held =>
      rw [held, Option.filter_some] at missing
      split at missing
      next => cases missing
      next other =>
        rw [if_pos fun success => other (decide_eq_true success)]
        exact ⟨rfl, rfl⟩

def undo (x : Externals τ) (ctx : Context) (clock : Clock τ) (entry : JournalRow) : Action τ Unit :=
  match entry.rollbackDefinition with
  | some definition => applyRollbackDefinition x ctx clock definition
  | none => pure ()

theorem rollBack_spec (x : Externals τ) (ctx : Context) (c : Controller τ) (call : Call τ)
    (entry : JournalRow) :
    (rollBack x ctx c call entry).after.files = (undo x ctx call.clock entry c.files).state ∧
      (rollBack x ctx c call entry).touched = (undo x ctx call.clock entry c.files).log ∧
      ∀ outcome, (rollBack x ctx c call entry).outcome = some outcome → outcome.status ≠ .rejected := by
  have same : undo x ctx call.clock entry c.files = match entry.rollbackDefinition with
      | some definition => applyRollbackDefinition x ctx call.clock definition c.files
      | none => ⟨.ok (), c.files, []⟩ := by
    unfold undo
    cases entry.rollbackDefinition with
    | none => rfl
    | some definition => rfl
  unfold rollBack
  rw [← same]
  dsimp only
  split
  · refine ⟨rfl, rfl, ?_⟩
    rintro outcome ⟨⟩
    simp
  · refine ⟨rfl, rfl, ?_⟩
    rintro outcome ⟨⟩
    simp

end

theorem find_record (journal : Journal) (row : JournalRow) (id : String) :
    (record journal row).find id = if id = row.actionId then some row else journal.find id := by
  rw [record, KeyedTable.find_upsert]
  split
  next =>
    cases held : journal.find row.actionId with
    | none => rfl
    | some old =>
      have key := journal.key_of_find held
      rw [Option.map_some, Option.getD_some, key]
  next => rfl

theorem find_markStatus (journal : Journal) {id target : String} (status : JournalStatus)
    (other : id ≠ target) : (markStatus journal target status).find id = journal.find id := by
  rw [markStatus, KeyedTable.find_update, if_neg other]

theorem pathExists_bind {β : Type} (x : Externals τ) (p : Loc) (g : Bool → Action τ β) (t : Files τ) :
    (pathExists x p >>= g) t = g (t.existsAt x.limit p) t := rfl

theorem resolvePath_bind {β : Type} {x : Externals τ} {ctx : Context} {t : Files τ} {path p : Loc}
    (resolved : resolvePath x ctx t path = .ok p) (g : Loc → Action τ β) :
    ((look fun t => resolvePath x ctx t path) >>= g) t = g p t :=
  look_bind_ok resolved

theorem lift_bind {α β : Type} {value : Except Failure α} {a : α} (read : value = .ok a)
    (g : α → Action τ β) (t : Files τ) : (lift value >>= g) t = g a t :=
  look_bind_ok (f := fun _ => value) read

theorem lift_bind_error {α β : Type} {value : Except Failure α} {e : Failure} (failed : value = .error e)
    (g : α → Action τ β) (t : Files τ) : (lift value >>= g) t = ⟨.error e, t, []⟩ :=
  @look_bind_error _ _ _ _ _ (fun _ => value) g t e failed

theorem present_found {x : Externals τ} {t : Files τ} {p : Loc} {u : Unit}
    (ok : (if t.existsAt x.limit p then Except.ok () else .error (Failure.notFound p)) = .ok u) :
    t.existsAt x.limit p = true := by
  by_contra absent
  rw [if_neg absent] at ok
  cases ok

/-! What passes the check of a path. -/

structure Admitted (x : Externals τ) (ctx : Context) (t : Files τ) (p : Loc) : Prop where
  settled : t.Settled p
  within : withinRoots x t p ctx.allowedRoots = .ok p

theorem withinRoots_ok {x : Externals τ} {t : Files τ} {p q : Loc} {roots : List Loc}
    (checked : withinRoots x t p roots = .ok q) :
    q = p ∧ ∃ root ∈ roots, ∃ r, t.follow x.limit root = some r ∧ r <:+ p := by
  induction roots with
  | nil => cases checked
  | cons root rest ih =>
    simp only [withinRoots] at checked
    split at checked
    · cases checked
    next r found =>
      split at checked
      next under =>
        cases checked
        exact ⟨rfl, root, List.mem_cons_self, r, found, under⟩
      next =>
        obtain ⟨same, root', mem, inside⟩ := ih checked
        exact ⟨same, root', List.mem_cons_of_mem root mem, inside⟩

theorem withinRoots_congr {x : Externals τ} {t t' : Files τ} {roots : List Loc}
    (same : ∀ root ∈ roots, t'.follow x.limit root = t.follow x.limit root) (p : Loc) :
    withinRoots x t' p roots = withinRoots x t p roots := by
  induction roots with
  | nil => rfl
  | cons root rest ih =>
    simp only [withinRoots, same root List.mem_cons_self]
    rw [ih fun root' mem => same root' (List.mem_cons_of_mem root mem)]

section
variable {x : Externals τ} {ctx : Context} {t : Files τ}

theorem resolvePath_ok {path p : Loc} (resolved : resolvePath x ctx t path = .ok p) :
    Admitted x ctx t p := by
  unfold resolvePath at resolved
  split at resolved
  · cases resolved
  next q found =>
    obtain ⟨rfl, -⟩ := withinRoots_ok resolved
    exact ⟨Tree.follow_settled found, resolved⟩

theorem pathParam_ok {params : Json} {name : String} {p : Loc}
    (resolved : pathParam x ctx t params name = .ok p) : Admitted x ctx t p := by
  unfold pathParam at resolved
  cases named : item params name with
  | error e =>
    rw [named] at resolved
    cases resolved
  | ok rawPath =>
    rw [named] at resolved
    replace resolved : resolveWithinRoots x ctx t rawPath = .ok p := resolved
    unfold resolveWithinRoots at resolved
    split at resolved
    · cases resolved
    · split at resolved
      · split at resolved
        · cases resolved
        · split at resolved
          · cases resolved
          · exact resolvePath_ok resolved
      · cases resolved

theorem Admitted.resolvePath {p : Loc} (admitted : Admitted x ctx t p) :
    EnvController.resolvePath x ctx t p = .ok p := by
  rw [EnvController.resolvePath, admitted.settled.follow]
  exact admitted.within

/-- Where the roots lead where they did, and nothing on the way has become a
link, a location stays admitted. -/
theorem Admitted.congr {t' : Files τ} {p : Loc} (admitted : Admitted x ctx t p)
    (links : ∀ q, q <:+ p → t'.link? q = t.link? q)
    (roots : ∀ root ∈ ctx.allowedRoots, t'.follow x.limit root = t.follow x.limit root) :
    Admitted x ctx t' p :=
  ⟨admitted.settled.congr links, (withinRoots_congr roots p).trans admitted.within⟩

end

/-- Times are numbers of seconds here, and `dumps` writes one dictionary. -/
def sampleExternals : Externals ℕ where
  limit := 40
  digest := fun _ => ""
  b64decode := fun _ => none
  dumps := fun _ => "\x7b\"config_profile\": null\x7d"
  loads := fun _ => some (.obj [("config_profile", .null)])
  loads_dumps := fun _ => ⟨_, rfl⟩
  isoTime := fun _ => none
  numberTime
    | .int n => some n.toNat
    | _ => none
  shownTime := fun n => .int n
  numberTime_shownTime := fun _ => rfl
  shownTime_number := fun _ _ same => (nomatch same)
  urlparse := fun _ => none
  fetch := fun _ => .unreachable
  archive := fun _ _ => .empty
  members := fun _ => none

def sampleContext : Context := ⟨[["decoys"]], ["programdata"], none⟩

def sampleClock : Clock ℕ := ⟨⟨7, 7⟩, .int 7, 7000⟩

end Mirage.EnvController
