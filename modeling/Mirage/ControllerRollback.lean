import Mirage.EnvController
import Mirage.EventRun

/-! ROLLBACK_ACTION against the seven actions that place, move, make and switch things. -/

namespace Mirage.ControllerRollback
open FileTree Effects EnvController
open SandboxActions (ActionType actionTypeOf)

variable {τ : Type}

structure Undone (x : Externals τ) (ctx : Context) (t : Files τ)
    (done : Done Failure (Files τ) Loc RollbackDefinition) : Prop where
  failed : ∀ e, done.result = .error e → done.state = t
  undone : ∀ definition, done.result = .ok definition → ∀ clock,
    (applyRollbackDefinition x ctx clock definition done.state).result = .ok () ∧
      (applyRollbackDefinition x ctx clock definition done.state).state = t

section
variable {x : Externals τ} {ctx : Context} {t : Files τ}

theorem undone_error (e : Failure) (log : List Loc) : Undone x ctx t ⟨.error e, t, log⟩ :=
  ⟨fun _ _ => rfl, fun _ ok => (by cases ok)⟩

theorem undone_look {α : Type} {f : Files τ → Except Failure α} {g : α → Action τ RollbackDefinition}
    (rest : ∀ a, f t = .ok a → Undone x ctx t (g a t)) :
    Undone x ctx t ((look f >>= g : Action τ RollbackDefinition) t) := by
  cases read : f t with
  | error e =>
    rw [look_bind_error read]
    exact undone_error e []
  | ok a =>
    rw [look_bind_ok read]
    exact rest a read

theorem undone_bind {α : Type} {m : Action τ α} {g : α → Action τ RollbackDefinition} {a : α}
    {s s' : Files τ} {log : List Loc} (ran : m s = ⟨.ok a, s', log⟩)
    (rest : Undone x ctx t (g a s')) : Undone x ctx t ((m >>= g) s) := by
  rw [bind_of_ok ran]
  exact ⟨rest.failed, rest.undone⟩

theorem undone_bind_error {α : Type} {m : Action τ α} {g : α → Action τ RollbackDefinition}
    {e : Failure} {log : List Loc} (failed : m t = ⟨.error e, t, log⟩) :
    Undone x ctx t ((m >>= g) t) := by
  rw [bind_of_error failed]
  exact undone_error e log

theorem undone_ok {definition : RollbackDefinition} {t' : Files τ} {log : List Loc}
    (undone : ∀ clock, (applyRollbackDefinition x ctx clock definition t').result = .ok () ∧
      (applyRollbackDefinition x ctx clock definition t').state = t) :
    Undone x ctx t ⟨.ok definition, t', log⟩ := by
  refine ⟨fun _ raised => (by cases raised), fun definition' same => ?_⟩
  cases same
  exact undone

theorem admitted_extends {t' : Files τ} {p : Loc} (admitted : Admitted x ctx t p)
    (made : Tree.Extends t t' p) : Admitted x ctx t' p :=
  admitted.congr (fun q _ => made.links q) fun root _ => Tree.follow_congr made.links x.limit root

theorem deleteFile_undoes {t' : Files τ} {p : Loc} (admitted : Admitted x ctx t p)
    (made : Tree.Extends t t' p) (leaf : t'.isDir p = false) (there : (t'.node p).isSome = true)
    (clock : Clock τ) :
    (applyRollbackDefinition x ctx clock (.deleteFile p) t').result = .ok () ∧
      (applyRollbackDefinition x ctx clock (.deleteFile p) t').state = t := by
  have admitted' := admitted_extends admitted made
  have unlinked : t'.unlink x.limit p = some (t, [p]) := by
    rw [Tree.unlink, admitted'.settled.entry]
    simp only [leaf, there, and_self, dite_true, made.remove leaf]
  have found : t'.existsAt x.limit p = true := by
    rw [admitted'.settled.existsAt]
    exact there
  rw [applyRollbackDefinition, resolvePath_bind admitted'.resolvePath, pathExists_bind,
    found, unlinkFound, if_pos rfl, EnvController.unlink, change_some unlinked]
  exact ⟨rfl, rfl⟩

theorem deleteDirectory_undoes {t' : Files τ} {p : Loc} (admitted : Admitted x ctx t p)
    (made : Tree.Extends t t' p) (dir : t'.isDir p = true) (proper : p ≠ []) (clock : Clock τ) :
    (applyRollbackDefinition x ctx clock (.deleteDirectory p) t').result = .ok () ∧
      (applyRollbackDefinition x ctx clock (.deleteDirectory p) t').state = t := by
  have admitted' := admitted_extends admitted made
  have removed : t'.rmtree x.limit p = some (t, [p]) := by
    rw [Tree.rmtree, admitted'.settled.entry]
    simp only [dir, ne_eq, proper, not_false_eq_true, and_self, dite_true, made.prune proper]
  have found : t'.existsAt x.limit p = true := by
    rw [admitted'.settled.existsAt, Option.isSome_iff_ne_none]
    exact Tree.node_of_isDir dir
  rw [applyRollbackDefinition, resolvePath_bind admitted'.resolvePath, pathExists_bind,
    found, removeDirectory, if_pos rfl, EnvController.rmtree, if_neg proper, change_some removed]
  exact ⟨rfl, rfl⟩

end

section
variable (x : Externals τ) (ctx : Context) (clock : Clock τ) (t : Files τ)

/-- A file can be put there and taken away again: the way is barred, or its directory is there and
it is not. -/
def FileReversible (p : Loc) (fits : Prop) : Prop :=
  t.mkdirs x.limit clock.now p.tail = none ∨
    (t.isDir p.tail = true ∧ (t.isDir p = true ∨ (t.node p = none ∧ fits)))

def inlineContent (params : Json) : Except Failure ByteArray := do
  let contentB64 ← getItem params "content_b64" .null
  let expectedHash ← expectedHashOf params
  match contentB64 with
  | .null => .error .noContent
  | contentB64 => decoded x contentB64 expectedHash

def readableFields (fields : Json) : Prop :=
  (∀ default, ∃ time, fieldTime x fields "accessed_time" default = .ok time) ∧
    ∀ default, ∃ time, fieldTime x fields "modified_time" default = .ok time

def PlaceReversible (params : Json) : Prop :=
  ∀ destination, pathParam x ctx t params "destination" = .ok destination →
    ∀ content, inlineContent x params = .ok content →
      FileReversible x clock t destination (∀ metadata,
        getItem params "visible_metadata" .null = .ok metadata → metadata.isTrue = true →
          readableFields x metadata)

def TestFileReversible (params : Json) : Prop :=
  ∀ destination, pathParam x ctx t params "destination" = .ok destination →
    t.mkdirs x.limit clock.now destination.tail = none ∨
      (t.isDir destination.tail = true ∧
        (t.isDir destination = true ∨ t.node destination = none ∨
          ∀ text, getItem params "content" (.str "mirage-self-test") ≠ .ok (.str text)))

/-- A move that fails or changes nothing, or goes to a missing place while the
roots lead where they did. -/
def MoveReversible (source destination : Loc) : Prop :=
  source = destination ∨
  (t.isDir destination = true ∧
    (t.existsAt x.limit (source.headD "" :: destination) = true ∨ source <:+ destination ∨
      (t.isDir source = true ∧ t.node (source.headD "" :: destination) ≠ none))) ∨
  (t.node destination ≠ none ∧ t.isDir destination = false ∧ t.isDir source = true) ∨
  (t.node destination = none ∧ ∀ t' touched, t.rename source destination = some (t', touched) →
    ∀ root ∈ ctx.allowedRoots, t'.follow x.limit root = t.follow x.limit root)

def MoveArtifactReversible (params : Json) : Prop :=
  ∀ source, pathParam x ctx t params "source" = .ok source →
    ∀ destination, pathParam x ctx t params "destination" = .ok destination →
      t.existsAt x.limit source = true →
        t.mkdirs x.limit clock.now destination.tail = none ∨
          (t.isDir destination.tail = true ∧ MoveReversible x ctx t source destination)

def profilePath (path : Loc) : Loc := ".mirage_metadata_profile.json" :: path

def CreateReversible (params : Json) : Prop :=
  ∀ path, pathParam x ctx t params "path" = .ok path →
    t.mkdirs x.limit clock.now path = none ∨
      (t.isDir path.tail = true ∧ t.node path = none) ∨
      (t.isDir path = true ∧ t.writable x.limit (profilePath path) = false ∧
        ∃ profile, getItem params "metadata_profile" .null = .ok profile ∧ profile.isTrue = true)

def EnableReversible (params : Json) : Prop :=
  ∀ serviceId, item params "service_id" = .ok serviceId →
    ∀ marker, markerPath ctx serviceId = .ok marker →
      t.mkdirs x.limit clock.now marker.tail = none ∨
        (t.isDirAt x.limit marker.tail = true ∧
          (t.writable x.limit marker = false ∨
            ∀ q, t.entry x.limit marker = some q → t.node q = none))

def DisableReversible (params : Json) : Prop :=
  ∀ serviceId, item params "service_id" = .ok serviceId →
    ∀ marker, markerPath ctx serviceId = .ok marker →
      t.existsAt x.limit marker = true ∧ ∃ e, storedProfile x t marker = .error e

def Reversible (params : Json) : ActionType → Prop
  | .placeArtifact => PlaceReversible x ctx clock t params
  | .moveArtifact => MoveArtifactReversible x ctx clock t params
  | .createDecoyDirectory => CreateReversible x ctx clock t params
  | .testFilePlacement => TestFileReversible x ctx clock t params
  | .enableDecoyService => EnableReversible x ctx clock t params
  | .disableDecoyService => DisableReversible x ctx t params
  | _ => True

end

section
variable {x : Externals τ} {ctx : Context} {clock : Clock τ} {t : Files τ}

theorem mkdirs_there {β : Type} {p : Loc} (dir : t.isDirAt x.limit p = true)
    (g : Unit → Action τ β) : (mkdirs x clock p >>= g) t = g () t := by
  rw [mkdirs, change_bind_some (Tree.mkdirs_of_isDirAt dir clock.now)]
  rfl

theorem mkdirs_refused {β : Type} {p : Loc} (refused : t.mkdirs x.limit clock.now p = none)
    (g : Unit → Action τ β) : (mkdirs x clock p >>= g) t = ⟨.error .os, t, []⟩ :=
  change_bind_none refused g

theorem write_new_file {p : Loc} {n : String} {q : Loc} (found : t.follow x.limit p = some (n :: q))
    (dir : t.isDir q = true) (missing : t.node (n :: q) = none) (content : ByteArray) :
    writeBytes x clock p content t = ⟨.ok (),
      t.put n q (.file content clock.now) dir (Tree.isDir_of_none missing), [n :: q]⟩ := by
  rw [writeBytes, change_some (Tree.write_new found dir missing clock.now content)]

theorem writeBytes_refused {p : Loc} (unwritable : t.writable x.limit p = false) (content : ByteArray) :
    writeBytes x clock p content t = ⟨.error .os, t, []⟩ :=
  change_none (f := fun t : Files τ => t.write x.limit clock.now p fun _ => content)
    (Tree.write_unwritable unwritable clock.now _)

theorem stat_settled {t : Files τ} {p : Loc} {info : Times τ} (settled : t.Settled p)
    (had : t.info? p = some info) : stat x t p = .ok info := by
  rw [stat, settled.follow, Option.bind_some, had]

theorem utime_settled {t : Files τ} {p : Loc} {info : Times τ} (settled : t.Settled p)
    (had : t.info? p = some info) (times : Times τ) :
    t.utime x.limit p times = some (t.setInfo p times, [p]) := by
  rw [Tree.utime, settled.follow]
  simp only [had, Option.isSome_some, if_true]

theorem applyMetadataFields_run {t : Files τ} {p : Loc} {info : Times τ} {fields : Json} {atime mtime : τ}
    (settled : t.Settled p) (had : t.info? p = some info)
    (accessed : fieldTime x fields "accessed_time" info.accessed = .ok atime)
    (modified : fieldTime x fields "modified_time" info.modified = .ok mtime) :
    applyMetadataFields x p fields t = ⟨.ok (), t.setInfo p ⟨atime, mtime⟩, [p]⟩ := by
  rw [applyMetadataFields, look_bind_ok (f := fun t => stat x t p) (stat_settled settled had),
    lift_bind accessed, lift_bind modified, change_some (utime_settled settled had _)]

theorem info?_put {t : Files τ} {n : String} {q : Loc} {content : ByteArray} {times : Times τ}
    (dir : t.isDir q = true) (leaf : t.isDir (n :: q) = false) :
    (t.put n q (.file content times) dir leaf).info? (n :: q) = some times := by
  simp only [Tree.info?, Tree.put, Function.update_self]

theorem setInfo_leaf {t : Files τ} {p : Loc} (leaf : t.isDir p = false) (times : Times τ) :
    (t.setInfo p times).isDir p = false := by
  unfold Tree.isDir at leaf ⊢
  simp only [Tree.setInfo, Function.update_self]
  rcases found : t.node p with _ | (info | ⟨content, info⟩ | target)
  · rfl
  · rw [found] at leaf
    cases leaf
  · rfl
  · rfl

theorem setInfo_there {t : Files τ} {p : Loc} (there : (t.node p).isSome = true) (times : Times τ) :
    ((t.setInfo p times).node p).isSome = true := by
  simp only [Tree.setInfo, Function.update_self, Option.isSome_map]
  exact there

structure NewFile (x : Externals τ) (t t' : Files τ) (p : Loc) : Prop where
  made : Tree.Extends t t' p
  leaf : t'.isDir p = false
  there : (t'.node p).isSome = true
  times : ∃ info, t'.info? p = some info

theorem newFile_put {n : String} {q : Loc} {content : ByteArray} {times : Times τ}
    (dir : t.isDir q = true) (missing : t.node (n :: q) = none) :
    NewFile x t (t.put n q (.file content times) dir (Tree.isDir_of_none missing)) (n :: q) := by
  refine ⟨Tree.extends_put dir missing fun target same => (by cases same), ?_, ?_, times,
    info?_put dir _⟩
  · simp only [Tree.isDir, Tree.put, Function.update_self]
  · simp only [Tree.put, Function.update_self, Option.isSome_some]

theorem NewFile.setInfo {t' : Files τ} {p : Loc} (new : NewFile x t t' p) (times : Times τ) :
    NewFile x t (t'.setInfo p times) p := by
  obtain ⟨info, had⟩ := new.times
  exact ⟨new.made.setInfo times, setInfo_leaf new.leaf times, setInfo_there new.there times, times,
    Tree.info?_setInfo had times⟩

theorem NewFile.undone {t' : Files τ} {p : Loc} (admitted : Admitted x ctx t p)
    (new : NewFile x t t' p) (log : List Loc) :
    Undone x ctx t ⟨.ok (.deleteFile p), t', log⟩ :=
  undone_ok (deleteFile_undoes admitted new.made new.leaf new.there)

/-- A file is written into a directory: its name is taken by a directory, or it
is new. -/
theorem writeBytes_cases {p : Loc} (settled : t.Settled p) (dir : t.isDir p.tail = true)
    (free : t.isDir p = true ∨ t.node p = none) (content : ByteArray) :
    writeBytes x clock p content t = ⟨.error .os, t, []⟩ ∨
      (t.node p = none ∧ ∃ t' log, writeBytes x clock p content t = ⟨.ok (), t', log⟩ ∧
        NewFile x t t' p) := by
  rcases free with taken | missing
  · refine .inl (writeBytes_refused ?_ content)
    rw [Tree.writable, settled.follow]
    cases p with
    | nil => rfl
    | cons n q => simp only [taken, Bool.not_true, Bool.and_false]
  · cases p with
    | nil =>
      have root := Tree.isDir_of_none missing
      rw [Tree.isDir_root] at root
      cases root
    | cons n q =>
      exact .inr ⟨missing, _, _, write_new_file (settled.follow x.limit) dir missing content,
        newFile_put dir missing⟩

theorem placeInline_cases {p : Loc} {contentB64 expectedHash : Json} {fits : Prop}
    (settled : t.Settled p)
    (reversible : ∀ content, decoded x contentB64 expectedHash = .ok content →
      FileReversible x clock t p fits) :
    (∃ e log, placeInline x clock p contentB64 expectedHash t = ⟨.error e, t, log⟩) ∨
      (fits ∧ ∃ t' log, placeInline x clock p contentB64 expectedHash t = ⟨.ok (), t', log⟩ ∧
        NewFile x t t' p) := by
  unfold placeInline
  cases read : decoded x contentB64 expectedHash with
  | error e => exact .inl ⟨e, [], look_bind_error (f := fun _ => .error e) rfl⟩
  | ok content =>
    rw [lift_bind rfl]
    rcases reversible content read with refused | ⟨dir, free⟩
    · exact .inl ⟨_, _, mkdirs_refused refused _⟩
    · have dir' : t.isDirAt x.limit p.tail = true := by
        rw [settled.tail.isDirAt]
        exact dir
      rw [mkdirs_there dir']
      rcases writeBytes_cases settled dir (free.imp_right And.left) content with failed | ⟨missing, t', log, ran, new⟩
      · exact .inl ⟨_, _, failed⟩
      · refine .inr ⟨?_, t', log, ran, new⟩
        rcases free with taken | ⟨-, fits⟩
        · rw [Tree.isDir_of_none missing] at taken
          cases taken
        · exact fits

theorem placeContent_cases {p : Loc} {params downloadUrl contentB64 expectedHash : Json} {fits : Prop}
    (settled : t.Settled p) (offline : downloadUrl.isTrue = false)
    (named : getItem params "content_b64" .null = .ok contentB64)
    (hashed : expectedHashOf params = .ok expectedHash)
    (reversible : ∀ content, inlineContent x params = .ok content → FileReversible x clock t p fits) :
    (∃ e log, placeContent x clock p downloadUrl contentB64 expectedHash t = ⟨.error e, t, log⟩) ∨
      (fits ∧ ∃ t' log, placeContent x clock p downloadUrl contentB64 expectedHash t =
        ⟨.ok (), t', log⟩ ∧ NewFile x t t' p) := by
  unfold placeContent
  rw [offline, if_neg Bool.false_ne_true]
  split
  next => exact .inl ⟨.noContent, [], rfl⟩
  next given =>
    apply placeInline_cases settled
    intro content read
    apply reversible content
    rw [inlineContent, named, hashed]
    show (match contentB64 with
      | .null => Except.error Failure.noContent
      | contentB64 => decoded x contentB64 expectedHash) = _
    split
    · exact absurd rfl given
    · exact read

theorem placeMetadata_cases {p : Loc} {metadata : Json} {t' : Files τ} (settled : t'.Settled p)
    (new : NewFile x t t' p) (readable : metadata.isTrue = true → readableFields x metadata) :
    ∃ t'' log, placeMetadata x p metadata t' = ⟨.ok (), t'', log⟩ ∧ NewFile x t t'' p := by
  unfold placeMetadata
  split
  next given =>
    obtain ⟨info, had⟩ := new.times
    obtain ⟨atime, accessed⟩ := (readable given).1 info.accessed
    obtain ⟨mtime, modified⟩ := (readable given).2 info.modified
    exact ⟨_, _, applyMetadataFields_run settled had accessed modified, new.setInfo _⟩
  next => exact ⟨t', [], rfl, new⟩

theorem placeArtifact_undone {params : Json}
    (inline : ∀ url, getItem params "download_url" .null = .ok url → url.isTrue = false)
    (reversible : PlaceReversible x ctx clock t params) :
    Undone x ctx t (placeArtifact x ctx clock params t) := by
  apply undone_look
  intro destination resolved
  have admitted := pathParam_ok resolved
  apply undone_look
  intro contentB64 named
  apply undone_look
  intro downloadUrl linked
  apply undone_look
  intro expectedHash hashed
  rcases placeContent_cases admitted.settled (inline downloadUrl linked) named hashed
    (reversible destination resolved) with ⟨e, log, failed⟩ | ⟨fits, t', log, ran, new⟩
  · exact undone_bind_error failed
  · refine undone_bind ran ?_
    cases shown : getItem params "visible_metadata" .null with
    | error e =>
      cases params with
      | obj members => cases shown
      | _ => cases named
    | ok metadata =>
      have settled' := (admitted_extends admitted new.made).settled
      obtain ⟨t'', log', applied, new'⟩ := placeMetadata_cases settled' new (fits metadata shown)
      rw [lift_bind rfl]
      exact undone_bind applied (new'.undone admitted [])

theorem testFilePlacement_undone {params : Json} (reversible : TestFileReversible x ctx clock t params) :
    Undone x ctx t (testFilePlacement x ctx clock params t) := by
  apply undone_look
  intro destination resolved
  have admitted := pathParam_ok resolved
  rcases reversible destination resolved with refused | ⟨dir, free⟩
  · rw [mkdirs_refused refused]
    exact undone_error _ _
  · have dir' : t.isDirAt x.limit destination.tail = true := by
      rw [admitted.settled.tail.isDirAt]
      exact dir
    rw [mkdirs_there dir']
    apply undone_look
    intro content given
    apply undone_look
    intro text texted
    split at texted
    next text' =>
      cases texted
      have free' : t.isDir destination = true ∨ t.node destination = none := by
        rcases free with taken | missing | other
        · exact .inl taken
        · exact .inr missing
        · exact absurd given (other text)
      rw [writeText]
      rcases writeBytes_cases admitted.settled dir free' text.toUTF8 with
        failed | ⟨-, t', log, ran, new⟩
      · exact undone_bind_error failed
      · exact undone_bind ran (new.undone admitted [])
    next => cases texted

theorem info?_of_exists {p : Loc} (settled : t.Settled p) (there : t.existsAt x.limit p = true) :
    ∃ info, t.info? p = some info := by
  rw [settled.existsAt] at there
  have leaf := settled.linkFree p (List.suffix_refl p)
  unfold Tree.link? at leaf
  unfold Tree.info?
  rcases found : t.node p with _ | (info | ⟨content, info⟩ | target)
  · rw [found] at there
    cases there
  · exact ⟨info, rfl⟩
  · exact ⟨info, rfl⟩
  · rw [found] at leaf
    cases leaf

theorem fieldTime_absent (value : Json) (default : τ) :
    fieldTime x (.obj [("modified_time", value)]) "accessed_time" default = .ok default := rfl

theorem fieldTime_shown (time default : τ) :
    fieldTime x (.obj [("modified_time", x.shownTime time)]) "modified_time" default = .ok time := by
  have read : timeOf x (x.shownTime time) = some time := by
    unfold timeOf
    split
    next text same => exact absurd same (x.shownTime_number time text)
    next => exact x.numberTime_shownTime time
  simp only [fieldTime, Json.member, if_true, read]

theorem restoreMetadata_undoes {p : Loc} {info : Times τ} (admitted : Admitted x ctx t p)
    (had : t.info? p = some info) (there : t.existsAt x.limit p = true) (mtime : τ) (clock : Clock τ) :
    let definition := RollbackDefinition.restoreMetadata p
      (.obj [("modified_time", x.shownTime info.modified)])
    let t' := t.setInfo p ⟨info.accessed, mtime⟩
    (applyRollbackDefinition x ctx clock definition t').result = .ok () ∧
      (applyRollbackDefinition x ctx clock definition t').state = t := by
  intro definition t'
  have links : ∀ q, t'.link? q = t.link? q := Tree.setInfo_link? t p _
  have admitted' : Admitted x ctx t' p :=
    admitted.congr (fun q _ => links q) fun root _ => Tree.follow_congr links x.limit root
  have found : t'.existsAt x.limit p = true := by
    rw [admitted.settled.existsAt] at there
    rw [admitted'.settled.existsAt]
    exact setInfo_there there _
  have restored : applyMetadataFields x p (.obj [("modified_time", x.shownTime info.modified)]) t' = _ :=
    applyMetadataFields_run admitted'.settled (Tree.info?_setInfo had _)
      (fieldTime_absent (x.shownTime info.modified) info.accessed) (fieldTime_shown info.modified mtime)
  rw [applyRollbackDefinition, resolvePath_bind admitted'.resolvePath, pathExists_bind, found,
    restoreFound, if_pos rfl, restored]
  exact ⟨rfl, Tree.setInfo_setInfo had _⟩

theorem testMetadataUpdate_undone (params : Json) :
    Undone x ctx t (testMetadataUpdate x ctx params t) := by
  apply undone_look
  intro target resolved
  have admitted := pathParam_ok resolved
  apply undone_look
  intro u there
  obtain ⟨info, had⟩ := info?_of_exists admitted.settled (present_found there)
  apply undone_look
  intro prior shown
  rw [stat_settled admitted.settled had] at shown
  cases shown
  apply undone_look
  intro modifiedTime named
  cases read : fieldTime x (.obj [("modified_time", modifiedTime)]) "modified_time" info.modified with
  | error e =>
    have failed : applyMetadataFields x target (.obj [("modified_time", modifiedTime)]) t =
        ⟨.error e, t, []⟩ := by
      rw [applyMetadataFields,
        look_bind_ok (f := fun t => stat x t target) (stat_settled admitted.settled had),
        lift_bind (fieldTime_absent _ _)]
      exact look_bind_error (f := fun _ => fieldTime x _ _ _) read
    exact undone_bind_error failed
  | ok mtime =>
    refine undone_bind
      (applyMetadataFields_run admitted.settled had (fieldTime_absent _ _) read) ?_
    exact undone_ok (restoreMetadata_undoes admitted had (present_found there) mtime)

theorem put_isDir {n : String} {q : Loc} {times : Times τ} (dir : t.isDir q = true)
    (leaf : t.isDir (n :: q) = false) : (t.put n q (.dir times) dir leaf).isDir (n :: q) = true := by
  simp only [Tree.isDir, Tree.put, Function.update_self]

theorem writeProfile_new {path : Loc} {profile : Json} {t' : Files τ} (settled : t'.Settled path)
    (made : Tree.Extends t t' path) (dir : t'.isDir path = true)
    (empty : ∀ n, t'.node (n :: path) = none) :
    ∃ t'' log, writeProfile x clock path profile t' = ⟨.ok (), t'', log⟩ ∧
      Tree.Extends t t'' path ∧ t''.isDir path = true := by
  unfold writeProfile
  split
  next given =>
    have missing := empty ".mirage_metadata_profile.json"
    have found : t'.follow x.limit (".mirage_metadata_profile.json" :: path) =
        some (".mirage_metadata_profile.json" :: path) := by
      refine Tree.follow_cons (by decide) ?_ (settled.follow x.limit)
      simp [Tree.link?, missing]
    refine ⟨_, _, write_new_file found dir missing _,
      made.put dir missing fun target same => (by cases same), ?_⟩
    simp only [Tree.isDir, Tree.put, Function.update_of_ne (List.cons_ne_self _ path).symm]
    exact dir
  next => exact ⟨t', [], rfl, made, dir⟩

theorem createDecoyDirectory_undone {params : Json} (reversible : CreateReversible x ctx clock t params) :
    Undone x ctx t (createDecoyDirectory x ctx clock params t) := by
  apply undone_look
  intro path resolved
  have admitted := pathParam_ok resolved
  rcases reversible path resolved with refused | ⟨dir, missing⟩ | ⟨dir, unwritable, profile, named, given⟩
  · rw [mkdirs_refused refused]
    exact undone_error _ _
  · cases path with
    | nil =>
      have root := Tree.isDir_of_none missing
      rw [Tree.isDir_root] at root
      cases root
    | cons n q =>
      have made : Tree.Extends t _ (n :: q) :=
        Tree.extends_put (x := .dir clock.now) dir missing fun target same => (by cases same)
      have empty : ∀ m, (t.put n q (.dir clock.now) dir (Tree.isDir_of_none missing)).node
          (m :: n :: q) = none := by
        intro m
        simp only [Tree.put, Function.update_of_ne (List.cons_ne_self m (n :: q))]
        exact Tree.node_of_missing (List.suffix_cons m (n :: q)) missing
      have ran : mkdirs x clock (n :: q) t = ⟨.ok (), _, _⟩ :=
        change_some (f := fun t : Files τ => t.mkdirs x.limit clock.now (n :: q))
          (Tree.mkdirs_new admitted.settled dir missing x.limit clock.now)
      refine undone_bind ran ?_
      cases named : getItem params "metadata_profile" .null with
      | error e =>
        cases params with
        | obj members => cases named
        | _ => cases resolved
      | ok profile =>
        obtain ⟨t'', log, wrote, made', dir'⟩ := writeProfile_new
          (admitted_extends admitted made).settled made (put_isDir dir _) empty
        rw [lift_bind rfl]
        exact undone_bind wrote (undone_ok
          (deleteDirectory_undoes admitted made' dir' (List.cons_ne_nil n q)))
  · have dir' : t.isDirAt x.limit path = true := by
      rw [admitted.settled.isDirAt]
      exact dir
    rw [mkdirs_there dir', lift_bind named]
    have failed : writeProfile x clock path profile t = ⟨.error .os, t, []⟩ := by
      rw [writeProfile, if_pos given]
      exact writeBytes_refused unwritable _
    exact undone_bind_error failed

theorem move_cases {source destination : Loc} (from' : t.Settled source) (there : t.Settled destination)
    (found : t.existsAt x.limit source = true) (reversible : MoveReversible x ctx t source destination) :
    t.move x.limit source destination = none ∨
      t.move x.limit source destination = t.rename source destination := by
  have named : t.entry x.limit destination = some destination := there.entry x.limit
  unfold Tree.move
  rw [from'.entry, there.isDirAt, from'.follow, there.follow, named]
  by_cases inside : (t.isDir destination && decide (some source ≠ some destination)) = true
  · simp only [inside, if_true]
    split
    next => exact .inl rfl
    next absent =>
      left
      simp only [Bool.and_eq_true, decide_eq_true_eq, ne_eq, Option.some.injEq] at inside
      have target : t.entry x.limit (source.headD "" :: destination) =
          some (source.headD "" :: destination) := by
        rw [Tree.entry, there.follow]
        rfl
      rw [target, Option.bind_some]
      obtain refused | ⟨same, -⟩ | ⟨-, -, apart, -, -, -, free, -⟩ :=
        t.rename_cases source (source.headD "" :: destination)
      · exact refused
      · -- what stands in the destination already was found there
        rw [← same] at absent
        exact absurd found absent
      · rcases reversible with same | ⟨-, taken | under | taken⟩ | ⟨-, leaf, -⟩ | ⟨missing, -⟩
        · exact absurd same inside.2
        · exact absurd taken absent
        · exact absurd (under.trans (List.suffix_cons _ _)) apart
        · exact absurd taken free
        · rw [inside.1] at leaf
          cases leaf
        · exact absurd missing (Tree.node_of_isDir inside.1)
  · simp only [inside, Option.bind_some]
    exact .inr rfl

theorem moveFile_undoes {source destination : Loc} (from' : Admitted x ctx t source)
    (there : Admitted x ctx t destination) (dir : t.isDir destination.tail = true)
    (leaf : t.isDir destination = false) (apart : ¬ source <:+ destination)
    (found : t.node source ≠ none) (proper : source ≠ []) (missing : t.node destination = none)
    (roots : ∀ root ∈ ctx.allowedRoots,
      (t.graft source destination dir leaf apart).follow x.limit root = t.follow x.limit root)
    (clock : Clock τ) :
    let t' := t.graft source destination dir leaf apart
    (applyRollbackDefinition x ctx clock (.moveFile destination source) t').result = .ok () ∧
      (applyRollbackDefinition x ctx clock (.moveFile destination source) t').state = t := by
  intro t'
  have apart' : ¬ destination <:+ source := by
    intro under
    exact found (Tree.node_of_missing under missing)
  have still := from'.settled.linkFree source (List.suffix_refl source)
  have there' : Admitted x ctx t' destination := there.congr
    (fun q under => Tree.graft_link?_target dir leaf apart still there.settled.linkFree under) roots
  have from'' : Admitted x ctx t' source := from'.congr
    (fun q under => Tree.graft_link?_source dir leaf apart apart' from'.settled.linkFree under) roots
  have gone : t'.node source = none := Tree.graft_source dir leaf apart apart'
  have arrived : t'.node destination = t.node source := Tree.graft_target dir leaf apart
  have parent : t'.isDir source.tail = true := by
    cases source with
    | nil => exact absurd rfl proper
    | cons n p =>
      have same : t'.node p = t.node p := Tree.graft_outside dir leaf apart
        (fun under => apart' (under.trans (List.suffix_cons n p)))
        (fun under => List.cons_ne_self n p (Tree.suffix_antisymm under (List.suffix_cons n p)))
      rw [List.tail_cons, Tree.isDir, same]
      exact Tree.isDir_parent found
  have proper' : destination ≠ [] := by
    rintro rfl
    exact Tree.node_of_isDir t.isDir_root missing
  have other : destination ≠ source := by
    rintro rfl
    exact apart (List.suffix_refl _)
  have back : t'.move x.limit destination source = some (t, [destination, source]) := by
    have absent := Tree.isDir_of_none gone
    rw [Tree.move, there'.settled.entry, from''.settled.isDirAt, absent, Bool.false_and,
      from''.settled.entry]
    simp only [Bool.false_eq_true, if_false, Option.bind_some, Tree.rename, arrived, found, proper',
      or_self, other, gone, ne_eq, not_true_eq_false, and_false, parent, absent, apart',
      not_false_eq_true, and_self, dite_true]
    rw [Tree.graft_graft dir leaf apart missing]
  have present : t'.existsAt x.limit destination = true := by
    rw [there'.settled.existsAt, arrived]
    exact Option.isSome_iff_ne_none.mpr found
  have dir' : t'.isDirAt x.limit source.tail = true := by
    rw [from''.settled.tail.isDirAt]
    exact parent
  rw [applyRollbackDefinition, resolvePath_bind there'.resolvePath, resolvePath_bind from''.resolvePath,
    pathExists_bind, present, moveBack, if_pos rfl, mkdirs_there dir', EnvController.move,
    change_some (f := fun t : Files τ => t.move x.limit destination source) back]
  exact ⟨rfl, rfl⟩

theorem moveFile_same {p : Loc} (admitted : Admitted x ctx t p) (found : t.node p ≠ none)
    (dir : t.isDir p.tail = true) (stays : t.rename p p = some (t, [])) (clock : Clock τ) :
    (applyRollbackDefinition x ctx clock (.moveFile p p) t).result = .ok () ∧
      (applyRollbackDefinition x ctx clock (.moveFile p p) t).state = t := by
  have back : t.move x.limit p p = some (t, []) := by
    simp only [Tree.move, admitted.settled.entry, ne_eq, not_true_eq_false, decide_false, Bool.and_false,
      Bool.false_eq_true, if_false, Option.bind_some, stays]
  have present : t.existsAt x.limit p = true := by
    rw [admitted.settled.existsAt]
    exact Option.isSome_iff_ne_none.mpr found
  have dir' : t.isDirAt x.limit p.tail = true := by
    rw [admitted.settled.tail.isDirAt]
    exact dir
  rw [applyRollbackDefinition, resolvePath_bind admitted.resolvePath, resolvePath_bind admitted.resolvePath,
    pathExists_bind, present, moveBack, if_pos rfl, mkdirs_there dir', EnvController.move,
    change_some (f := fun t : Files τ => t.move x.limit p p) back]
  exact ⟨rfl, rfl⟩

theorem moveArtifact_undone {params : Json} (reversible : MoveArtifactReversible x ctx clock t params) :
    Undone x ctx t (moveArtifact x ctx clock params t) := by
  apply undone_look
  intro source resolved
  have from' := pathParam_ok resolved
  apply undone_look
  intro destination resolved'
  have there := pathParam_ok resolved'
  apply undone_look
  intro u present
  have exists' := present_found present
  rcases reversible source resolved destination resolved' exists' with refused | ⟨dir, reversible⟩
  · rw [mkdirs_refused refused]
    exact undone_error _ _
  · have dir' : t.isDirAt x.limit destination.tail = true := by
      rw [there.settled.tail.isDirAt]
      exact dir
    have found : t.node source ≠ none := by
      rw [from'.settled.existsAt] at exists'
      exact Option.isSome_iff_ne_none.mp exists'
    rw [mkdirs_there dir']
    rcases move_cases from'.settled there.settled exists' reversible with refused | renamed
    · exact undone_bind_error
        (change_none (f := fun t : Files τ => t.move x.limit source destination) refused)
    · obtain refused | ⟨rfl, stays⟩ | ⟨dir, leaf, apart, other, -, proper, free, moved⟩ :=
        t.rename_cases source destination
      · exact undone_bind_error (change_none
          (f := fun t : Files τ => t.move x.limit source destination) (renamed.trans refused))
      · refine undone_bind (change_some
          (f := fun t : Files τ => t.move x.limit source source) (renamed.trans stays)) ?_
        exact undone_ok (moveFile_same from' found dir stays)
      · refine undone_bind (change_some
          (f := fun t : Files τ => t.move x.limit source destination) (renamed.trans moved)) ?_
        rcases reversible with same | ⟨taken, -⟩ | ⟨taken, -, directory⟩ | ⟨missing, roots⟩
        · exact absurd same other
        · rw [leaf] at taken
          cases taken
        · exact absurd ⟨directory, taken⟩ free
        · exact undone_ok (moveFile_undoes from' there dir leaf apart found proper missing
            (roots _ _ moved))

theorem resolveApprovedServiceName_ok {serviceId : Json} {id : String}
    (approved : resolveApprovedServiceName serviceId = .ok id) :
    ∃ service ∈ approvedDecoyServices, service.1 = id := by
  unfold resolveApprovedServiceName at approved
  split at approved
  next text =>
    split at approved
    next service found =>
      cases approved
      exact ⟨service, List.mem_of_find?_eq_some found, by simpa using List.find?_some found⟩
    next => cases approved
  next => cases approved
  next => cases approved
  next => cases approved

theorem markerPath_ok {serviceId : Json} {marker : Loc} (named : markerPath ctx serviceId = .ok marker) :
    ∃ n directory, marker = n :: directory ∧ n ≠ ".." := by
  unfold markerPath at named
  cases approved : resolveApprovedServiceName serviceId with
  | error e =>
    rw [approved] at named
    cases named
  | ok id =>
    cases first : firstRoot ctx with
    | error e =>
      rw [approved, first] at named
      cases named
    | ok root =>
      rw [approved, first] at named
      cases named
      refine ⟨_, _, rfl, ?_⟩
      obtain ⟨service, listed, rfl⟩ := resolveApprovedServiceName_ok approved
      have plain : ∀ service ∈ approvedDecoyServices, service.1 ++ ".enabled" ≠ ".." := by decide
      exact plain service listed

theorem disable_undoes {serviceId : Json} {n : String} {directory q : Loc} {members : List (String × Json)}
    (named : markerPath ctx serviceId = .ok (n :: directory)) (name : n ≠ "..")
    (found : t.follow x.limit directory = some q) (dir : t.isDir q = true)
    (missing : t.node (n :: q) = none) (times : Times τ) (clock : Clock τ) :
    let t' := t.put n q (.file (x.dumps (.obj members)).toUTF8 times) dir (Tree.isDir_of_none missing)
    (applyRollbackDefinition x ctx clock (.disableDecoyService serviceId) t').result = .ok () ∧
      (applyRollbackDefinition x ctx clock (.disableDecoyService serviceId) t').state = t := by
  intro t'
  have new : NewFile x t t' (n :: q) := newFile_put dir missing
  have parent : t'.follow x.limit directory = some q :=
    (Tree.follow_congr new.made.links x.limit directory).trans found
  have absent : t'.link? (n :: q) = none := by
    rw [new.made.links, Tree.link?, missing]
  have marked : t'.follow x.limit (n :: directory) = some (n :: q) :=
    Tree.follow_cons name absent parent
  have stands : t'.node (n :: q) = some (.file (x.dumps (.obj members)).toUTF8 times) :=
    Function.update_self _ _ _
  have exists' : t'.existsAt x.limit (n :: directory) = true := by
    rw [Tree.existsAt, marked, Option.any_some, stands]
    rfl
  obtain ⟨members', loaded⟩ := x.loads_dumps members
  have profile : storedProfile x t' (n :: directory) =
      .ok ((Json.member "config_profile" members').getD .null) := by
    rw [storedProfile, Tree.contentAt, marked, Option.bind_some, stands]
    simp only [Option.bind_some, loaded]
  have unlinked : t'.unlink x.limit (n :: directory) = some (t, [n :: q]) := by
    rw [Tree.unlink, Tree.entry, parent]
    simp only [Option.map_some, new.leaf, new.there, and_self, dite_true, new.made.remove new.leaf]
  have disabled : disable x ctx serviceId t' = ⟨.ok (.obj [("config_profile",
      (Json.member "config_profile" members').getD .null)]), t, [n :: q]⟩ := by
    rw [disable, lift_bind named, pathExists_bind, exists', disableMarker, if_pos rfl,
      look_bind_ok (f := fun t : Files τ => storedProfile x t (n :: directory)) profile,
      EnvController.unlink,
      change_bind_some (f := fun t : Files τ => t.unlink x.limit (n :: directory)) unlinked]
    rfl
  rw [applyRollbackDefinition, bind_of_ok disabled]
  exact ⟨rfl, rfl⟩

theorem enableDecoyService_undone {params : Json} (reversible : EnableReversible x ctx clock t params) :
    Undone x ctx t (enableDecoyService x ctx clock params t) := by
  apply undone_look
  intro serviceId given
  apply undone_look
  intro configProfile profiled
  cases named : markerPath ctx serviceId with
  | error e =>
    have failed : enable x ctx clock serviceId configProfile t = ⟨.error e, t, []⟩ := by
      rw [enable, lift_bind_error named]
    exact undone_bind_error failed
  | ok marker =>
    rcases reversible serviceId given marker named with refused | ⟨dir, unwritable | missing⟩
    · have failed : enable x ctx clock serviceId configProfile t = ⟨.error .os, t, []⟩ := by
        rw [enable, lift_bind named, mkdirs_refused refused]
      exact undone_bind_error failed
    · have failed : enable x ctx clock serviceId configProfile t = ⟨.error .os, t, []⟩ := by
        rw [enable, lift_bind named, mkdirs_there dir]
        exact writeBytes_refused unwritable _
      exact undone_bind_error failed
    · obtain ⟨n, directory, rfl, name⟩ := markerPath_ok named
      rw [List.tail_cons] at dir
      cases found : t.follow x.limit directory with
      | none =>
        rw [Tree.isDirAt, found] at dir
        cases dir
      | some q =>
        have isDir : t.isDir q = true := by
          rw [Tree.isDirAt, found] at dir
          exact dir
        have absent : t.node (n :: q) = none := by
          refine missing (n :: q) ?_
          rw [Tree.entry, found]
          rfl
        have marked : t.follow x.limit (n :: directory) = some (n :: q) :=
          Tree.follow_cons name (by rw [Tree.link?, absent]) found
        have enabled : enable x ctx clock serviceId configProfile t = ⟨.ok (),
            t.put n q (.file (x.dumps (.obj [("config_profile", configProfile)])).toUTF8 clock.now)
              isDir (Tree.isDir_of_none absent), [n :: q]⟩ := by
          rw [enable, lift_bind named, List.tail_cons, mkdirs_there dir]
          exact write_new_file marked isDir absent _
        refine undone_bind enabled ?_
        exact undone_ok (disable_undoes named name found isDir absent clock.now)

theorem disableDecoyService_undone {params : Json} (reversible : DisableReversible x ctx t params) :
    Undone x ctx t (disableDecoyService x ctx params t) := by
  apply undone_look
  intro serviceId given
  cases named : markerPath ctx serviceId with
  | error e =>
    have failed : disable x ctx serviceId t = ⟨.error e, t, []⟩ := by
      rw [disable, lift_bind_error named]
    exact undone_bind_error failed
  | ok marker =>
    obtain ⟨there, e, unread⟩ := reversible serviceId given marker named
    have failed : disable x ctx serviceId t = ⟨.error e, t, []⟩ := by
      rw [disable, lift_bind named, pathExists_bind, there, disableMarker, if_pos rfl]
      exact look_bind_error (f := fun t : Files τ => storedProfile x t marker) unread
    exact undone_bind_error failed

end

/-! Runs of actions, and their rollbacks. -/

def InScope (call : Call τ) : Prop :=
  ∃ actionType, actionTypeOf call.actionType = some actionType ∧
    actionType ∈ [.placeArtifact, .moveArtifact, .createDecoyDirectory, .testFilePlacement,
      .testMetadataUpdate, .enableDecoyService, .disableDecoyService] ∧
    (actionType = .placeArtifact →
      ∀ url, getItem call.params "download_url" .null = .ok url → url.isTrue = false)

section
variable (x : Externals τ) (ctx : Context)

def step (c : Controller τ) (call : Call τ) : Controller τ := (executeAction x ctx c call).after

def succeeds (c : Controller τ) (call : Call τ) : Bool :=
  (executeAction x ctx c call).outcome.any fun outcome => outcome.status = .success

def succeeded : Controller τ → List (Call τ) → List String
  | _, [] => []
  | c, call :: rest =>
    if succeeds x ctx c call then call.actionId :: succeeded (step x ctx c call) rest
    else succeeded (step x ctx c call) rest

def Admits (c : Controller τ) (call : Call τ) : Prop :=
  ∀ actionType, actionTypeOf call.actionType = some actionType →
    Reversible x ctx call.clock c.files call.params actionType

end

/-- ROLLBACK_ACTION of a target; `plan` gives its own id and its time. -/
def rollbackOf (plan : String → String × Clock τ) (target : String) : Call τ :=
  ⟨"ROLLBACK_ACTION", .obj [("target_action_id", .str target)], (plan target).1, (plan target).2⟩

def rollbacks (x : Externals τ) (ctx : Context) (plan : String → String × Clock τ) (c : Controller τ)
    (calls : List (Call τ)) : List (Call τ) :=
  (succeeded x ctx c calls).reverse.map (rollbackOf plan)

def Restores (x : Externals τ) (ctx : Context) (plan : String → String × Clock τ) (c : Controller τ)
    (calls : List (Call τ)) : Prop :=
  let last := EventRun.run (step x ctx) c calls
  EventRun.Along (step x ctx) (fun c call => succeeds x ctx c call = true) last
      (rollbacks x ctx plan c calls) ∧
    (EventRun.run (step x ctx) last (rollbacks x ctx plan c calls)).files = c.files

section
variable {x : Externals τ} {ctx : Context}

theorem handler_undone {clock : Clock τ} {t : Files τ} {params : Json} {actionType : ActionType}
    (scope : actionType ∈ [ActionType.placeArtifact, .moveArtifact, .createDecoyDirectory,
      .testFilePlacement, .testMetadataUpdate, .enableDecoyService, .disableDecoyService])
    (inline : actionType = .placeArtifact →
      ∀ url, getItem params "download_url" .null = .ok url → url.isTrue = false)
    (reversible : Reversible x ctx clock t params actionType) :
    Undone x ctx t (handler x ctx clock actionType params t) := by
  simp only [List.mem_cons, List.not_mem_nil, or_false] at scope
  rcases scope with rfl | rfl | rfl | rfl | rfl | rfl | rfl
  · exact placeArtifact_undone (inline rfl) reversible
  · exact moveArtifact_undone reversible
  · exact createDecoyDirectory_undone reversible
  · exact testFilePlacement_undone reversible
  · exact testMetadataUpdate_undone params
  · exact enableDecoyService_undone reversible
  · exact disableDecoyService_undone reversible

/-- What a call of a run leaves: nothing, or a change with its definition in the
journal. -/
inductive Left (x : Externals τ) (ctx : Context) (c : Controller τ) (call : Call τ) : Prop where
  | nothing (failed : succeeds x ctx c call = false)
      (files : (step x ctx c call).files = c.files)
  | change (done : succeeds x ctx c call = true) (row : JournalRow) (definition : RollbackDefinition)
      (recorded : (step x ctx c call).journal.find call.actionId = some row)
      (key : row.actionId = call.actionId) (status : row.status = .success)
      (defined : row.rollbackDefinition = some definition)
      (undone : ∀ clock, (applyRollbackDefinition x ctx clock definition
          (step x ctx c call).files).result = .ok () ∧
        (applyRollbackDefinition x ctx clock definition (step x ctx c call).files).state = c.files)

theorem step_left {c : Controller τ} {call : Call τ} (scope : InScope call)
    (admits : Admits x ctx c call) : Left x ctx c call := by
  obtain ⟨actionType, named, listed, inline⟩ := scope
  have other : actionType ≠ .rollbackAction := by
    rintro rfl
    simp at listed
  have undone : Undone x ctx c.files (handler x ctx call.clock actionType call.params c.files) :=
    handler_undone listed inline (admits actionType named)
  have executed : executeAction x ctx c call = perform x ctx c call actionType :=
    executeAction_perform named other
  cases ran : (handler x ctx call.clock actionType call.params c.files).result with
  | error failure =>
    have performed : executeAction x ctx c call = ⟨some ⟨failureStatus failure, none, none, some failure⟩,
        ⟨(handler x ctx call.clock actionType call.params c.files).state, record c.journal
          ⟨call.actionId, actionType, call.params, none, failureStatus failure⟩⟩,
        (handler x ctx call.clock actionType call.params c.files).log⟩ := by
      rw [executed, perform, ran]
    refine .nothing ?_ ?_
    · rw [succeeds, performed, Option.any_some, failureStatus]
      split <;> rfl
    · rw [step, performed]
      exact undone.failed failure ran
  | ok definition =>
    have performed : executeAction x ctx c call =
        ⟨some ⟨.success, outputTagOf actionType call.params, some definition, none⟩,
        ⟨(handler x ctx call.clock actionType call.params c.files).state, record c.journal
          ⟨call.actionId, actionType, call.params, some definition, .success⟩⟩,
        (handler x ctx call.clock actionType call.params c.files).log⟩ := by
      rw [executed, perform, ran]
    refine .change ?_ ⟨call.actionId, actionType, call.params, some definition, .success⟩ definition
      ?_ rfl rfl rfl fun clock => ?_
    · rw [succeeds, performed]
      rfl
    · rw [step, performed, find_record, if_pos rfl]
    · rw [step, performed]
      exact undone.undone definition ran clock

def Spares (id : String) (call : Call τ) : Prop :=
  id ≠ call.actionId ∧
    (actionTypeOf call.actionType = some .rollbackAction →
      (item call.params "target_action_id").bind boundText ≠ .ok (some id))

theorem rollBack_find {c : Controller τ} {call : Call τ} {entry : JournalRow} {id : String}
    (other : id ≠ call.actionId) (other' : id ≠ entry.actionId) :
    (rollBack x ctx c call entry).after.journal.find id = c.journal.find id := by
  unfold rollBack
  dsimp only
  split
  next => rw [find_record, if_neg other]
  next => rw [find_record, if_neg other, find_markStatus c.journal _ other']

theorem step_find {c : Controller τ} {call : Call τ} {id : String} (spares : Spares id call) :
    (step x ctx c call).journal.find id = c.journal.find id := by
  obtain ⟨other, target⟩ := spares
  unfold step executeAction
  split
  next => rfl
  next rolled =>
    unfold executeRollbackAction
    split
    next => rfl
    next bound read =>
      split
      next => rfl
      next entry found =>
        split
        next => rfl
        next =>
          obtain ⟨named, rfl, found⟩ := Option.bind_eq_some_iff.mp found
          refine rollBack_find other fun same => target rolled ?_
          rw [read, same, c.journal.key_of_find found]
  next actionType named _ =>
    unfold perform
    dsimp only
    split
    next => rw [find_record, if_neg other]
    next => rw [find_record, if_neg other]

theorem run_find {c : Controller τ} {calls : List (Call τ)} {id : String}
    (spares : ∀ call ∈ calls, Spares id call) :
    (EventRun.run (step x ctx) c calls).journal.find id = c.journal.find id := by
  induction calls generalizing c with
  | nil => rfl
  | cons call rest ih =>
    rw [EventRun.run_cons, ih fun call' mem => spares call' (List.mem_cons_of_mem call mem)]
    exact step_find (spares call List.mem_cons_self)

theorem mem_succeeded {c : Controller τ} {calls : List (Call τ)} {id : String}
    (mem : id ∈ succeeded x ctx c calls) : id ∈ calls.map Call.actionId := by
  induction calls generalizing c with
  | nil => cases mem
  | cons call rest ih =>
    rw [List.map_cons, List.mem_cons]
    simp only [succeeded] at mem
    split at mem
    · rcases List.mem_cons.mp mem with same | later
      · exact .inl same
      · exact .inr (ih later)
    · exact .inr (ih mem)

theorem rollback_step {c : Controller τ} {target : String} {row : JournalRow}
    {definition : RollbackDefinition} {t : Files τ} (plan : String → String × Clock τ)
    (recorded : c.journal.find target = some row) (status : row.status = .success)
    (defined : row.rollbackDefinition = some definition)
    (undone : (applyRollbackDefinition x ctx (plan target).2 definition c.files).result = .ok () ∧
      (applyRollbackDefinition x ctx (plan target).2 definition c.files).state = t) :
    succeeds x ctx c (rollbackOf plan target) = true ∧
      (step x ctx c (rollbackOf plan target)).files = t := by
  have executed : executeAction x ctx c (rollbackOf plan target) =
      rollBack x ctx c (rollbackOf plan target) row := by
    show executeRollbackAction x ctx c (rollbackOf plan target) = _
    have params : (item (rollbackOf plan target).params "target_action_id").bind boundText = .ok (some target) := rfl
    rw [executeRollbackAction, params]
    simp only [Option.bind_some, recorded, status, ne_eq, not_true_eq_false, if_false]
  have rolled : rollBack x ctx c (rollbackOf plan target) row =
      ⟨some ⟨.success, defaultOutputTag .rollbackAction, some .noop, none⟩, ⟨t,
        record (markStatus c.journal row.actionId .rolledBack) ⟨(plan target).1, .rollbackAction,
          .obj [("target_action_id", .str target)], some .noop, .success⟩⟩,
        (applyRollbackDefinition x ctx (plan target).2 definition c.files).log⟩ := by
    simp only [rollBack, defined, rollbackOf, undone.1, undone.2]
  rw [succeeds, step, executed, rolled]
  exact ⟨rfl, rfl⟩

theorem rollbackOf_spares {plan : String → String × Clock τ} {target id : String}
    (other : id ≠ target) (other' : id ≠ (plan target).1) : Spares id (rollbackOf plan target) := by
  refine ⟨other', fun _ same => other ?_⟩
  cases same
  rfl

theorem inScope_spares {call : Call τ} {id : String} (scope : InScope call)
    (other : id ≠ call.actionId) : Spares id call := by
  obtain ⟨actionType, named, listed, -⟩ := scope
  refine ⟨other, fun rolled => ?_⟩
  rw [named] at rolled
  cases rolled
  simp at listed

/-- In every run of actions that each find the tree as their rollbacks need it,
rolling back the successes in reverse order succeeds and restores the files. -/
theorem rollback_restores (x : Externals τ) (ctx : Context) (plan : String → String × Clock τ)
    (c : Controller τ) (calls : List (Call τ)) (scope : ∀ call ∈ calls, InScope call)
    (distinct : (calls.map Call.actionId).Nodup)
    (apart : ∀ call ∈ calls, ∀ call' ∈ calls, call.actionId ≠ (plan call'.actionId).1)
    (admitted : EventRun.Along (step x ctx) (Admits x ctx) c calls) :
    Restores x ctx plan c calls := by
  induction calls generalizing c with
  | nil => exact ⟨trivial, rfl⟩
  | cons call rest ih =>
    rw [List.map_cons, List.nodup_cons] at distinct
    have later := ih (step x ctx c call) (fun call' mem => scope call' (List.mem_cons_of_mem call mem))
      distinct.2 (fun call₁ mem₁ call₂ mem₂ => apart call₁ (List.mem_cons_of_mem call mem₁) call₂
        (List.mem_cons_of_mem call mem₂)) admitted.2
    obtain ⟨along, restored⟩ := later
    rcases step_left (scope call List.mem_cons_self) admitted.1 with
      ⟨failed, files⟩ | ⟨done, row, definition, recorded, -, status, defined, undone⟩
    · have same : rollbacks x ctx plan c (call :: rest) =
          rollbacks x ctx plan (step x ctx c call) rest := by
        rw [rollbacks, succeeded, failed, if_neg Bool.false_ne_true]
        rfl
      rw [Restores, same, EventRun.run_cons]
      exact ⟨along, restored.trans files⟩
    · have grown : rollbacks x ctx plan c (call :: rest) =
          rollbacks x ctx plan (step x ctx c call) rest ++ [rollbackOf plan call.actionId] := by
        rw [rollbacks, succeeded, done, if_pos rfl, List.reverse_cons, List.map_append]
        rfl
      -- the entry of the first action outlives the rest of the run and its rollbacks
      have kept : (EventRun.run (step x ctx) (EventRun.run (step x ctx) (step x ctx c call) rest)
          (rollbacks x ctx plan (step x ctx c call) rest)).journal.find call.actionId = some row := by
        rw [run_find, run_find, recorded]
        · intro call' mem
          refine inScope_spares (scope call' (List.mem_cons_of_mem call mem)) fun same => ?_
          exact distinct.1 (same ▸ List.mem_map_of_mem mem)
        · intro call' mem
          obtain ⟨target, listed, rfl⟩ := List.mem_map.mp mem
          obtain ⟨call'', mem', rfl⟩ := List.mem_map.mp (mem_succeeded (List.mem_reverse.mp listed))
          refine rollbackOf_spares (fun same => ?_) ?_
          · exact distinct.1 (same ▸ List.mem_map_of_mem mem')
          · exact apart call List.mem_cons_self call'' (List.mem_cons_of_mem call mem')
      have undone' := undone (plan call.actionId).2
      rw [← restored] at undone'
      obtain ⟨success, files⟩ := rollback_step plan kept status defined undone'
      rw [Restores, grown, EventRun.run_cons]
      refine ⟨EventRun.along_append along ⟨success, trivial⟩, ?_⟩
      rw [EventRun.run_append]
      exact files

end

def sampleFiles : Files ℕ where
  node
    | [] => some (.dir ⟨1, 1⟩)
    | ["decoys"] => some (.dir ⟨2, 2⟩)
    | ["payroll.txt", "decoys"] => some (.file "salaries".toUTF8 ⟨3, 3⟩)
    | _ => none
  root := ⟨_, rfl⟩
  parent := by
    intro n p y found
    split at found
    next same => cases same
    next same =>
      cases same
      exact ⟨_, rfl⟩
    next same =>
      cases same
      exact ⟨_, rfl⟩
    next => cases found

def sampleStart : Controller ℕ := ⟨sampleFiles, .empty⟩

def samplePlan (target : String) : String × Clock ℕ := ("undo-" ++ target, sampleClock)

def overwrite : Call ℕ :=
  ⟨"TEST_FILE_PLACEMENT", .obj [("destination", .str "/decoys/payroll.txt")], "a1", sampleClock⟩

def makeDirectory : Call ℕ :=
  ⟨"CREATE_DECOY_DIRECTORY", .obj [("path", .str "/decoys/reports")], "a2", sampleClock⟩

/-- The file that was there is gone after the rollback. -/
theorem overwrite_lost : InScope overwrite ∧
    ¬ Restores sampleExternals sampleContext samplePlan sampleStart [overwrite] := by
  refine ⟨⟨.testFilePlacement, rfl, by decide, fun place => (by cases place)⟩, fun restores => ?_⟩
  have gone : ((EventRun.run (step sampleExternals sampleContext)
      (EventRun.run (step sampleExternals sampleContext) sampleStart [overwrite])
      (rollbacks sampleExternals sampleContext samplePlan sampleStart [overwrite])).files.node
        ["payroll.txt", "decoys"]).isNone = true := by decide +kernel
  rw [restores.2] at gone
  cases gone

/-- A directory made where none was is rolled back. -/
theorem rollback_restores_directory :
    Restores sampleExternals sampleContext samplePlan sampleStart [makeDirectory] := by
  have resolved : pathParam sampleExternals sampleContext sampleFiles makeDirectory.params "path" =
      .ok ["reports", "decoys"] := rfl
  refine rollback_restores sampleExternals sampleContext samplePlan sampleStart [makeDirectory] ?_ ?_ ?_ ?_
  · intro call mem
    rw [List.mem_singleton] at mem
    subst mem
    exact ⟨.createDecoyDirectory, rfl, by decide, fun place => (by cases place)⟩
  · decide
  · intro call mem call' mem'
    rw [List.mem_singleton] at mem mem'
    subst mem mem'
    decide
  · refine ⟨fun actionType named => ?_, trivial⟩
    cases named
    intro path found
    have same := resolved.symm.trans found
    cases same
    exact .inr (.inl ⟨rfl, rfl⟩)

end Mirage.ControllerRollback
