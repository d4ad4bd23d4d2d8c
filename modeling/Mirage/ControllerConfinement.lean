import Mirage.EnvController

/-! Where `execute_action` may write. A path that a request names is resolved and checked
before anything is done, and what is done to it stays inside the roots. -/

namespace Mirage.ControllerConfinement
open FileTree Effects EnvController
open SandboxActions (ActionType actionTypeOf)

variable {τ : Type}

def ControllerFile (x : Externals τ) (ctx : Context) (t : Files τ) (q : Loc) : Prop :=
  ∃ base, t.follow x.limit ctx.programdata = some base ∧
    (q = base ∨ q = "Snapshots" :: base ∨ q = "session_concluded.json" :: base ∨
      q = "shutdown_requested.json" :: base ∨
      ∃ millis : ℕ, q = ("snapshot-" ++ toString millis ++ ".tar.gz") :: "Snapshots" :: base)

def Permitted (x : Externals τ) (ctx : Context) (t : Files τ) (q : Loc) : Prop :=
  (∃ root ∈ ctx.allowedRoots, ∃ r, t.follow x.limit root = some r ∧ r <:+ q) ∨
    ControllerFile x ctx t q

/-- What a call does is confined: the log of what it touched is complete, all of
it is permitted, and a rejected call touches nothing. -/
structure Confined (x : Externals τ) (ctx : Context) (c : Controller τ) (call : Call τ) : Prop where
  logged : ∀ r, (∀ q ∈ (executeAction x ctx c call).touched, ¬ q <:+ r) →
    (executeAction x ctx c call).after.files.node r = c.files.node r
  permitted : ∀ q ∈ (executeAction x ctx c call).touched, Permitted x ctx c.files q
  rejected : ∀ outcome, (executeAction x ctx c call).outcome = some outcome →
    outcome.status = .rejected → (executeAction x ctx c call).after.files = c.files

/-! What is not checked by the handlers. -/

section
variable (x : Externals τ) (ctx : Context) (clock : Clock τ) (P : Loc → Prop)

def MadeWithin (t : Files τ) (p : Loc) : Prop :=
  ∀ t' made, t.mkdirs x.limit clock.now p = some (t', made) → ∀ q ∈ made, P q

def WriteWithin (t : Files τ) (p : Loc) : Prop :=
  t.writable x.limit p = true → ∀ q, t.follow x.limit p = some q → P q

def UnlinkWithin (t : Files τ) (p : Loc) : Prop :=
  ∀ q, t.entry x.limit p = some q → t.isDir q = false → (t.node q).isSome = true → P q

def FileWithin (t : Files τ) (directory p : Loc) : Prop :=
  ∀ t' made, t.mkdirs x.limit clock.now directory = some (t', made) →
    (∀ q ∈ made, P q) ∧ WriteWithin x P t' p

/-- What `rmtree` leaves of a directory that may be missing. -/
def emptied (t : Files τ) (root : Loc) : Option (Files τ × List Loc) :=
  if t.existsAt x.limit root then t.rmtree x.limit root else some (t, [])

def vacated (t : Files τ) (p : Loc) : Option (Files τ × List Loc) :=
  if (t.entry x.limit p).any fun q => (t.node q).isNone then some (t, []) else t.unlink x.limit p

def EnableContained (t : Files τ) (serviceId : Json) : Prop :=
  ∀ marker, markerPath ctx serviceId = .ok marker → FileWithin x clock P t marker.tail marker

def DisableContained (t : Files τ) (serviceId : Json) : Prop :=
  ∀ marker, markerPath ctx serviceId = .ok marker → t.existsAt x.limit marker = true →
    (∃ profile, storedProfile x t marker = .ok profile) → UnlinkWithin x P t marker

end

section
variable {x : Externals τ} {ctx : Context} {clock : Clock τ} {P : Loc → Prop} {t : Files τ}

theorem within_mkdirs_bind {β : Type} (p : Loc) (g : Unit → Action τ β) :
    Within P (mkdirs x clock p >>= g) t ↔
      ∀ t' made, t.mkdirs x.limit clock.now p = some (t', made) →
        (∀ q ∈ made, P q) ∧ Within P (g ()) t' :=
  within_change_bind P _ _ g t

theorem within_write (p : Loc) (content : Option ByteArray → ByteArray) :
    Within P (change Failure.os fun t : Files τ => t.write x.limit clock.now p content) t ↔
      WriteWithin x P t p := by
  rw [within_change]
  unfold WriteWithin Tree.writable Tree.write
  cases found : t.follow x.limit p with
  | none => simp
  | some q =>
    cases q with
    | nil => simp
    | cons n q =>
      by_cases open' : t.isDir q = true ∧ t.isDir (n :: q) = false
      · simp [open']
      · have shut : (t.isDir q && !t.isDir (n :: q)) = false := by
          rw [Bool.eq_false_iff]
          simpa using open'
        simp [open', shut]

theorem within_writeBytes (p : Loc) (content : ByteArray) :
    Within P (writeBytes x clock p content) t ↔ WriteWithin x P t p :=
  within_write p _

theorem within_unlink (p : Loc) : Within P (unlink x p) t ↔ UnlinkWithin x P t p := by
  rw [unlink, within_change]
  unfold UnlinkWithin Tree.unlink
  cases found : t.entry x.limit p with
  | none => simp
  | some q =>
    by_cases there : t.isDir q = false ∧ (t.node q).isSome = true
    · simp [there]
    · simp only [there, dite_false, reduceCtorEq, false_implies, implies_true, true_iff,
        Option.some.injEq]
      rintro _ rfl leaf present
      exact absurd ⟨leaf, present⟩ there

theorem within_bind_pure {α β : Type} (m : Action τ α) (f : α → β) :
    Within P (m >>= fun a => (pure (f a) : Action τ β)) t ↔ Within P m t := by
  rw [within_bind]
  simp

theorem within_lift_bind {α β : Type} (value : Except Failure α) (g : α → Action τ β) :
    Within P (lift value >>= g) t ↔ ∀ a, value = .ok a → Within P (g a) t :=
  within_look_bind P (fun _ => value) g t

theorem within_lift_bind_iff {α β : Type} {value : Except Failure α} {g : α → Action τ β} {Q : Prop}
    (rest : ∀ a, Within P (g a) t ↔ Q) :
    Within P (lift value >>= g) t ↔ ((∃ a, value = .ok a) → Q) := by
  rw [within_lift_bind]
  constructor
  · rintro within ⟨a, read⟩
    exact (rest a).mp (within a read)
  · intro granted a read
    exact (rest a).mpr (granted ⟨a, read⟩)

end

/-! What the handlers have checked. -/

section
variable {x : Externals τ} {ctx : Context} {clock : Clock τ} {t t' : Files τ} {p : Loc}

theorem permitted_under (admitted : Admitted x ctx t p) {r : Loc} (under : p <:+ r) :
    Permitted x ctx t r := by
  obtain ⟨-, root, listed, q, found, inside⟩ := withinRoots_ok admitted.within
  exact .inl ⟨root, listed, q, found, inside.trans under⟩

theorem settled_later (admitted : Admitted x ctx t p) (links : ∀ q, t'.link? q = t.link? q) :
    t'.Settled p :=
  admitted.settled.congr fun q _ => links q

theorem writeWithin_checked (admitted : Admitted x ctx t p) (links : ∀ q, t'.link? q = t.link? q) :
    WriteWithin x (Permitted x ctx t) t' p := by
  intro _ q found
  rw [(settled_later admitted links).follow] at found
  cases found
  exact permitted_under admitted (List.suffix_refl p)

theorem unlinkWithin_settled {P : Loc → Prop} (settled : t.Settled p) (granted : P p) :
    UnlinkWithin x P t p := by
  intro q found _ _
  rw [settled.entry] at found
  cases found
  exact granted

theorem unlinkWithin_checked (admitted : Admitted x ctx t p) :
    UnlinkWithin x (Permitted x ctx t) t p :=
  unlinkWithin_settled admitted.settled (permitted_under admitted (List.suffix_refl p))

theorem within_applyMetadataFields_settled {P : Loc → Prop} (settled : t.Settled p) (granted : P p)
    (fields : Json) : Within P (applyMetadataFields x p fields) t := by
  rw [applyMetadataFields, within_look_bind]
  intro times _
  rw [within_lift_bind]
  intro atime _
  rw [within_lift_bind]
  intro mtime _
  rw [within_change]
  intro t'' touched done q mem
  unfold Tree.utime at done
  rw [settled.follow] at done
  dsimp only at done
  split at done
  · cases done
    rw [List.mem_singleton] at mem
    subst mem
    exact granted
  · cases done

theorem within_applyMetadataFields_checked (admitted : Admitted x ctx t p)
    (links : ∀ q, t'.link? q = t.link? q) (fields : Json) :
    Within (Permitted x ctx t) (applyMetadataFields x p fields) t' :=
  within_applyMetadataFields_settled (settled_later admitted links)
    (permitted_under admitted (List.suffix_refl p)) fields

theorem rename_touched {src dst : Loc} {touched : List Loc}
    (done : t.rename src dst = some (t', touched)) : touched = [] ∨ touched = [src, dst] := by
  obtain refused | ⟨-, stays⟩ | ⟨_, _, _, -, -, -, -, moved⟩ := t.rename_cases src dst
  · rw [refused] at done
    cases done
  · rw [stays] at done
    cases done
    exact .inl rfl
  · rw [moved] at done
    cases done
    exact .inr rfl

theorem within_move_settled {P : Loc → Prop} {source destination : Loc} (from' : t.Settled source)
    (there : t.Settled destination) (taken : P source) (put : ∀ q, destination <:+ q → P q) :
    Within P (move x source destination) t := by
  have target : ∀ target, target = destination ∨ target = source.headD "" :: destination →
      ∀ t'' touched, t.rename source target = some (t'', touched) → ∀ q ∈ touched, P q := by
    rintro target named t'' touched renamed q mem
    rcases rename_touched renamed with rfl | rfl
    · cases mem
    · rcases List.mem_cons.mp mem with rfl | mem
      · exact taken
      · rw [List.mem_singleton] at mem
        subst mem
        rcases named with rfl | rfl
        · exact put _ (List.suffix_refl _)
        · exact put _ (List.suffix_cons _ _)
  rw [move, within_change]
  intro t'' touched done
  unfold Tree.move at done
  rw [from'.entry, there.entry] at done
  dsimp only at done
  split at done
  · split at done
    · cases done
    · rw [Tree.entry, there.follow] at done
      exact target _ (.inr rfl) t'' touched done
  · exact target _ (.inl rfl) t'' touched done

theorem within_move_checked {source destination : Loc} (from' : Admitted x ctx t source)
    (there : Admitted x ctx t destination) (links : ∀ q, t'.link? q = t.link? q) :
    Within (Permitted x ctx t) (move x source destination) t' :=
  within_move_settled (settled_later from' links) (settled_later there links)
    (permitted_under from' (List.suffix_refl source)) fun _ under => permitted_under there under

theorem within_rmtree_settled {P : Loc → Prop} (settled : t.Settled p) (granted : P p) :
    Within P (rmtree x p) t := by
  unfold rmtree
  split
  next root =>
    subst root
    rw [within_change_bind]
    rintro t' touched done
    cases done
    refine ⟨fun q mem => ?_, by simp⟩
    rw [List.mem_singleton] at mem
    subst mem
    exact granted
  next =>
    rw [within_change]
    intro t' touched done q mem
    unfold Tree.rmtree at done
    rw [settled.entry] at done
    dsimp only at done
    split at done
    · cases done
      rw [List.mem_singleton] at mem
      subst mem
      exact granted
    · cases done

theorem within_rmtree_checked (admitted : Admitted x ctx t p) :
    Within (Permitted x ctx t) (rmtree x p) t :=
  within_rmtree_settled admitted.settled (permitted_under admitted (List.suffix_refl p))

end

/-! When a handler is contained. -/

section
variable (x : Externals τ) (ctx : Context) (clock : Clock τ) (P : Loc → Prop)

def MetadataWithin (t : Files τ) (p : Loc) (metadata : Json) : Prop :=
  metadata.isTrue = true → ∀ q info, t.follow x.limit p = some q → t.info? q = some info →
    (∃ atime, fieldTime x metadata "accessed_time" info.accessed = .ok atime) →
    (∃ mtime, fieldTime x metadata "modified_time" info.modified = .ok mtime) → P q

def FetchContained (t : Files τ) (temp destination : Loc) (url : String) (expectedHash metadata : Json) :
    Prop :=
  match x.fetch url with
  | .unreachable => UnlinkWithin x P t temp
  | .answered success chunks complete =>
    let taken := if success then takeChunks 0 chunks else ([], true)
    WriteWithin x P t temp ∧ (t.writable x.limit temp = false → UnlinkWithin x P t temp) ∧
      ∀ t' touched, t.write x.limit clock.now temp (fun _ => taken.1.foldl (· ++ ·) .empty) =
          some (t', touched) →
        match checkedDownload x expectedHash success complete taken with
        | .error _ => UnlinkWithin x P t' temp
        | .ok _ =>
          match (t'.entry x.limit temp).bind fun s =>
              (t'.entry x.limit destination).bind fun d => t'.rename s d with
          | none => UnlinkWithin x P t' temp
          | some (t'', moved) => (∀ q ∈ moved, P q) ∧ MetadataWithin x P t'' destination metadata

def DownloadContained (t : Files τ) (destination : Loc) (downloadUrl expectedHash metadata : Json) :
    Prop :=
  ∀ url, approvedUrl x downloadUrl = .ok url →
    ∀ t' made, t.mkdirs x.limit clock.now destination.tail = some (t', made) → (∀ q ∈ made, P q) ∧
      ∀ temp, tempPath destination = .ok temp →
        FetchContained x clock P t' temp destination url expectedHash metadata

def PlaceContained (t : Files τ) (params : Json) : Prop :=
  ∀ destination, pathParam x ctx t params "destination" = .ok destination →
    ∀ contentB64, getItem params "content_b64" .null = .ok contentB64 →
    ∀ downloadUrl, getItem params "download_url" .null = .ok downloadUrl →
    ∀ expectedHash, expectedHashOf params = .ok expectedHash →
    ∀ metadata, getItem params "visible_metadata" .null = .ok metadata →
      if downloadUrl.isTrue then
        DownloadContained x clock P t destination downloadUrl expectedHash metadata
      else contentB64 ≠ .null → (∃ content, decoded x contentB64 expectedHash = .ok content) →
        MadeWithin x clock P t destination.tail

def MoveContained (t : Files τ) (params : Json) : Prop :=
  ∀ source, pathParam x ctx t params "source" = .ok source →
    ∀ destination, pathParam x ctx t params "destination" = .ok destination →
      t.existsAt x.limit source = true → MadeWithin x clock P t destination.tail

def CreateContained (t : Files τ) (params : Json) : Prop :=
  ∀ path, pathParam x ctx t params "path" = .ok path →
    ∀ t' made, t.mkdirs x.limit clock.now path = some (t', made) → (∀ q ∈ made, P q) ∧
      ∀ profile, getItem params "metadata_profile" .null = .ok profile → profile.isTrue = true →
        WriteWithin x P t' (".mirage_metadata_profile.json" :: path)

def DisplayContained (t : Files τ) (params : Json) : Prop :=
  ∀ outputTag, messageTag params = .ok outputTag → ∀ root, firstRoot ctx = .ok root →
    ∀ t' made, t.mkdirs x.limit clock.now root = some (t', made) → (∀ q ∈ made, P q) ∧
      ((∃ line, messageEntry x clock params outputTag = .ok line) →
        WriteWithin x P t' ("_messages.log" :: root))

def ConcludeContained (t : Files τ) (params : Json) : Prop :=
  ∀ t' made, t.mkdirs x.limit clock.now ctx.programdata = some (t', made) → (∀ q ∈ made, P q) ∧
    ((∃ reason, item params "reason" = .ok reason) → WriteWithin x P t' (concludedMarker ctx))

def ShutdownContained (t : Files τ) (params : Json) : Prop :=
  ∀ t' made, t.mkdirs x.limit clock.now ctx.programdata = some (t', made) → (∀ q ∈ made, P q) ∧
    ((∃ reason, getItem params "reason" (.str "") = .ok reason) →
      WriteWithin x P t' (shutdownMarker ctx))

/-- The directories that are emptied and made again, and then whatever comes
after them. -/
def WipeContained (next : Files τ → Prop) : List Loc → Files τ → Prop
  | [], t => next t
  | [] :: _, _ => P []
  | root :: rest, t =>
    ∀ t' removed, emptied x t root = some (t', removed) → (∀ q ∈ removed, P q) ∧
      ∀ t'' made, t'.mkdirs x.limit clock.now root = some (t'', made) → (∀ q ∈ made, P q) ∧
        WipeContained next rest t''

def MemberContained (next : Files τ → Prop) (target : Loc) (t : Files τ) : MemberKind → Prop
  | .dir => ∀ t' made, t.mkdirs x.limit clock.now target = some (t', made) →
      (∀ q ∈ made, P q) ∧ next t'
  | .file content => ∀ t' touched,
      t.write x.limit clock.now target (fun _ => content) = some (t', touched) →
        (∀ q ∈ touched, P q) ∧ next t'
  | .link text => ∀ t' removed, vacated x t target = some (t', removed) → (∀ q ∈ removed, P q) ∧
      ∀ t'' touched, t'.symlink x.limit text target = some (t'', touched) →
        (∀ q ∈ touched, P q) ∧ next t''

def ExtractContained (next : Files τ → Prop) (directory : Loc) : List Member → Files τ → Prop
  | [], t => next t
  | member :: rest, t =>
    ∀ t' made, t.mkdirs x.limit clock.now (memberPath directory member).tail = some (t', made) →
      (∀ q ∈ made, P q) ∧
        MemberContained x clock P (ExtractContained next directory rest)
          (memberPath directory member) t' member.kind

def ReseedContained (next : Files τ → Prop) (t : Files τ) : Prop :=
  match ctx.baselineSnapshot with
  | none => next t
  | some snapshot =>
    if t.existsAt x.limit snapshot then
      ∀ members, readMembers x t snapshot = .ok members → ∀ root, firstRoot ctx = .ok root →
        ExtractContained x clock P next root.tail members t
    else next t

def ResetContained (next : Files τ → Prop) (t : Files τ) : Prop :=
  WipeContained x clock P (ReseedContained x ctx clock P next) ctx.allowedRoots t

def RollbackContained (t : Files τ) : RollbackDefinition → Prop
  | .moveFile path destination =>
    ∀ source, resolvePath x ctx t path = .ok source →
      ∀ target, resolvePath x ctx t destination = .ok target →
        t.existsAt x.limit source = true → MadeWithin x clock P t target.tail
  | .enableDecoyService serviceId _ => EnableContained x ctx clock P t serviceId
  | .disableDecoyService serviceId => DisableContained x ctx P t serviceId
  | _ => True

def TestFileContained (t : Files τ) (params : Json) : Prop :=
  ∀ destination, pathParam x ctx t params "destination" = .ok destination →
    MadeWithin x clock P t destination.tail

end

section
variable {x : Externals τ} {ctx : Context} {clock : Clock τ} {P : Loc → Prop} {t : Files τ}

theorem within_moveArtifact (params : Json) :
    Within (Permitted x ctx t) (moveArtifact x ctx clock params) t ↔
      MoveContained x ctx clock (Permitted x ctx t) t params := by
  rw [moveArtifact, within_look_bind]
  refine forall_congr' fun source => forall_congr' fun resolved => ?_
  rw [within_look_bind]
  refine forall_congr' fun destination => forall_congr' fun resolved' => ?_
  rw [present, within_look_bind]
  constructor
  · intro within there
    have := within () (if_pos there)
    rw [within_mkdirs_bind] at this
    exact fun t' made done => (this t' made done).1
  · intro made u there
    rw [within_mkdirs_bind]
    refine fun t' listed done => ⟨made (present_found there) t' listed done, ?_⟩
    rw [within_bind_pure]
    exact within_move_checked (pathParam_ok resolved) (pathParam_ok resolved') (Tree.mkdirs_links done)

theorem within_createDecoyDirectory (params : Json) :
    Within P (createDecoyDirectory x ctx clock params) t ↔ CreateContained x ctx clock P t params := by
  rw [createDecoyDirectory, within_look_bind]
  refine forall_congr' fun path => forall_congr' fun _ => ?_
  rw [within_mkdirs_bind]
  refine forall_congr' fun t' => forall_congr' fun made => forall_congr' fun _ => and_congr_right fun _ => ?_
  rw [within_lift_bind]
  refine forall_congr' fun profile => forall_congr' fun _ => ?_
  rw [within_bind_pure, writeProfile]
  split
  next set => simp only [writeText, within_writeBytes, set, forall_true_left]
  next unset => simp only [within_pure, unset, Bool.false_eq_true, false_implies]

theorem within_displayMessage (params : Json) :
    Within P (displayMessage x ctx clock params) t ↔ DisplayContained x ctx clock P t params := by
  rw [displayMessage, within_lift_bind]
  refine forall_congr' fun outputTag => forall_congr' fun _ => ?_
  rw [within_lift_bind]
  refine forall_congr' fun root => forall_congr' fun _ => ?_
  rw [within_mkdirs_bind]
  refine forall_congr' fun t' => forall_congr' fun made => forall_congr' fun _ => and_congr_right fun _ => ?_
  apply within_lift_bind_iff
  intro line
  rw [within_bind_pure, appendText, within_write]

theorem within_enable (serviceId configProfile : Json) :
    Within P (enable x ctx clock serviceId configProfile) t ↔
      EnableContained x ctx clock P t serviceId := by
  rw [enable, within_lift_bind]
  refine forall_congr' fun marker => forall_congr' fun _ => ?_
  rw [within_mkdirs_bind]
  simp only [writeText, within_writeBytes, FileWithin]

theorem within_disable (serviceId : Json) :
    Within P (disable x ctx serviceId) t ↔ DisableContained x ctx P t serviceId := by
  rw [disable, within_lift_bind]
  refine forall_congr' fun marker => forall_congr' fun _ => ?_
  rw [pathExists, within_look_bind]
  simp only [Except.ok.injEq, forall_eq', disableMarker]
  split
  next found =>
    rw [within_look_bind]
    simp only [within_bind_pure, within_unlink, found, forall_true_left, forall_exists_index]
  next absent => simp only [within_pure, absent, Bool.false_eq_true, false_implies]

theorem within_requestSnapshot :
    Within P (requestSnapshot x ctx clock) t ↔
      FileWithin x clock P t (snapshotsDir ctx) (snapshotPath ctx clock) := by
  rw [requestSnapshot, within_mkdirs_bind]
  refine forall_congr' fun t' => forall_congr' fun made => forall_congr' fun _ => and_congr_right fun _ => ?_
  rw [within_look_bind]
  simp only [within_bind_pure, within_writeBytes, Except.ok.injEq, forall_eq']

theorem within_concludeSession (params : Json) :
    Within P (concludeSession x ctx clock params) t ↔ ConcludeContained x ctx clock P t params := by
  rw [concludeSession, within_mkdirs_bind]
  refine forall_congr' fun t' => forall_congr' fun made => forall_congr' fun _ => and_congr_right fun _ => ?_
  apply within_lift_bind_iff
  intro reason
  rw [within_bind_pure, writeText, within_writeBytes]

theorem within_cleanShutdown (params : Json) :
    Within P (cleanShutdown x ctx clock params) t ↔ ShutdownContained x ctx clock P t params := by
  rw [cleanShutdown, within_mkdirs_bind]
  refine forall_congr' fun t' => forall_congr' fun made => forall_congr' fun _ => and_congr_right fun _ => ?_
  apply within_lift_bind_iff
  intro reason
  rw [within_bind_pure, writeText, within_writeBytes]

theorem within_testFilePlacement (params : Json) :
    Within (Permitted x ctx t) (testFilePlacement x ctx clock params) t ↔
      TestFileContained x ctx clock (Permitted x ctx t) t params := by
  rw [testFilePlacement, within_look_bind]
  refine forall_congr' fun destination => forall_congr' fun resolved => ?_
  rw [within_mkdirs_bind]
  refine forall_congr' fun t' => forall_congr' fun made => forall_congr' fun done => ?_
  refine and_iff_left ?_
  rw [within_lift_bind]
  intro content _
  rw [within_lift_bind]
  intro text _
  rw [within_bind_pure, writeText, within_writeBytes]
  exact writeWithin_checked (pathParam_ok resolved) (Tree.mkdirs_links done)

theorem within_changeVisibleMetadata (params : Json) :
    Within (Permitted x ctx t) (changeVisibleMetadata x ctx params) t := by
  rw [changeVisibleMetadata, within_look_bind]
  intro target resolved
  rw [present, within_look_bind]
  intro _ _
  rw [within_lift_bind]
  intro approvedFields _
  rw [within_lift_bind]
  intro priorState _
  rw [within_bind_pure]
  exact within_applyMetadataFields_checked (pathParam_ok resolved) (fun _ => rfl) approvedFields

theorem within_testMetadataUpdate (params : Json) :
    Within (Permitted x ctx t) (testMetadataUpdate x ctx params) t := by
  rw [testMetadataUpdate, within_look_bind]
  intro target resolved
  rw [present, within_look_bind]
  intro _ _
  rw [within_look_bind]
  intro prior _
  rw [within_lift_bind]
  intro modifiedTime _
  rw [within_bind_pure]
  exact within_applyMetadataFields_checked (pathParam_ok resolved) (fun _ => rfl) _

theorem within_unlinkMissingOk (p : Loc) : Within P (unlinkMissingOk x p) t ↔ UnlinkWithin x P t p := by
  rw [← within_unlink, unlinkMissingOk, unlink, within_change, within_change]
  split
  next missing =>
    obtain ⟨q, found, absent⟩ := (Option.any_eq_true _ _).mp missing
    have refused : t.unlink x.limit p = none := by
      rw [Tree.unlink, found]
      simp [Option.isNone_iff_eq_none.mp absent]
    simp [refused]
  next => rfl

theorem within_placeMetadata (p : Loc) (metadata : Json) :
    Within P (placeMetadata x p metadata) t ↔ MetadataWithin x P t p metadata := by
  unfold placeMetadata MetadataWithin
  split
  next set =>
    rw [applyMetadataFields, within_look_bind]
    simp only [set, forall_true_left]
    constructor
    · rintro within q info found read ⟨atime, accessed⟩ ⟨mtime, modified⟩
      have stated : stat x t p = .ok info := by
        rw [stat, found, Option.bind_some, read]
      have touched := within info stated
      rw [within_lift_bind] at touched
      replace touched := touched atime accessed
      rw [within_lift_bind] at touched
      replace touched := touched mtime modified
      rw [within_change] at touched
      have set' : t.utime x.limit p ⟨atime, mtime⟩ = some (t.setInfo q ⟨atime, mtime⟩, [q]) := by
        simp only [Tree.utime, found, read, Option.isSome_some, if_true]
      exact touched _ _ set' q (List.mem_singleton_self q)
    · intro granted info stated
      rw [within_lift_bind]
      intro atime accessed
      rw [within_lift_bind]
      intro mtime modified
      rw [within_change]
      intro t' touched done q mem
      unfold stat at stated
      split at stated
      next info' read =>
        cases stated
        obtain ⟨r, found, read⟩ := Option.bind_eq_some_iff.mp read
        simp only [Tree.utime, found, read, Option.isSome_some, if_true] at done
        cases done
        rw [List.mem_singleton] at mem
        subst mem
        exact granted q info found read ⟨atime, accessed⟩ ⟨mtime, modified⟩
      next => cases stated
  next unset => simp only [within_pure, unset, Bool.false_eq_true, false_implies]

theorem fetchInto_written {temp destination : Loc} {url : String} {expectedHash : Json}
    {success complete : Bool} {chunks : List ByteArray} {t' : Files τ} {touched : List Loc}
    (fetched : x.fetch url = .answered success chunks complete)
    (wrote : t.write x.limit clock.now temp
      (fun _ => (if success then takeChunks 0 chunks else ([], true)).1.foldl (· ++ ·) .empty) =
        some (t', touched)) :
    fetchInto x clock temp destination url expectedHash t =
      match checkedDownload x expectedHash success complete
          (if success then takeChunks 0 chunks else ([], true)) with
      | .error e => ⟨.error e, t', touched⟩
      | .ok _ =>
        match (t'.entry x.limit temp).bind fun s =>
            (t'.entry x.limit destination).bind fun d => t'.rename s d with
        | none => ⟨.error .os, t', touched⟩
        | some (t'', moved) => ⟨.ok (), t'', touched ++ moved⟩ := by
  rw [fetchInto, fetched]
  refine (change_bind_some wrote _).trans ?_
  cases checked : checkedDownload x expectedHash success complete
      (if success then takeChunks 0 chunks else ([], true)) with
  | error e =>
    rw [lift_bind_error rfl]
    simp only [List.append_nil]
  | ok u =>
    rw [lift_bind rfl]
    dsimp only
    split
    next refused =>
      rw [change_none refused]
      simp only [List.append_nil]
    next t'' moved renamed => rw [change_some renamed]

theorem within_fetch (temp destination : Loc) (url : String) (expectedHash metadata : Json) :
    Within P (onError (fetchInto x clock temp destination url expectedHash) (unlinkMissingOk x temp) >>=
        fun _ => placeMetadata x destination metadata) t ↔
      FetchContained x clock P t temp destination url expectedHash metadata := by
  unfold FetchContained
  cases fetched : x.fetch url with
  | unreachable =>
    have ran : fetchInto x clock temp destination url expectedHash t = ⟨.error .network, t, []⟩ := by
      rw [fetchInto, fetched]
      rfl
    rw [within_onError_bind_error ran, within_unlinkMissingOk]
    simp
  | answered success chunks complete =>
    dsimp only
    rw [← within_write temp, within_change]
    cases wrote : t.write x.limit clock.now temp
        (fun _ => (if success then takeChunks 0 chunks else ([], true)).1.foldl (· ++ ·) .empty) with
    | none =>
      have ran : fetchInto x clock temp destination url expectedHash t = ⟨.error .os, t, []⟩ := by
        rw [fetchInto, fetched]
        exact change_bind_none wrote _
      rw [within_onError_bind_error ran, within_unlinkMissingOk]
      simp [Tree.unwritable_of_write wrote]
    | some done =>
      obtain ⟨t', touched⟩ := done
      have ran : fetchInto x clock temp destination url expectedHash t = _ := fetchInto_written fetched wrote
      have open' : t.writable x.limit temp = true := by
        by_contra shut
        rw [Tree.write_unwritable (Bool.eq_false_iff.mpr shut)] at wrote
        cases wrote
      simp only [Option.some.injEq, Prod.mk.injEq, and_imp, forall_apply_eq_imp_iff, forall_eq', open', Bool.true_eq_false, false_implies, true_and]
      split at ran
      next e checked =>
        rw [within_onError_bind_error ran, within_unlinkMissingOk]
      next checked =>
        split at ran
        next refused =>
          rw [within_onError_bind_error ran, within_unlinkMissingOk]
        next t'' moved renamed =>
          rw [within_onError_bind_ok ran, within_placeMetadata]
          simp [or_imp, forall_and, and_assoc]

theorem within_download (destination : Loc) (downloadUrl expectedHash metadata : Json) :
    Within P (download x clock destination downloadUrl expectedHash >>=
        fun _ => placeMetadata x destination metadata) t ↔
      DownloadContained x clock P t destination downloadUrl expectedHash metadata := by
  rw [download, bind_assoc, within_lift_bind]
  refine forall_congr' fun url => forall_congr' fun _ => ?_
  rw [bind_assoc, within_mkdirs_bind]
  refine forall_congr' fun t' => forall_congr' fun made => forall_congr' fun _ => and_congr_right fun _ => ?_
  rw [bind_assoc, within_lift_bind]
  exact forall_congr' fun temp => forall_congr' fun _ => within_fetch temp destination url _ metadata

theorem within_placeInline {destination : Loc} (admitted : Admitted x ctx t destination)
    (contentB64 expectedHash metadata : Json) :
    Within (Permitted x ctx t) (placeInline x clock destination contentB64 expectedHash >>=
        fun _ => placeMetadata x destination metadata) t ↔
      ((∃ content, decoded x contentB64 expectedHash = .ok content) →
        MadeWithin x clock (Permitted x ctx t) t destination.tail) := by
  rw [placeInline, bind_assoc]
  apply within_lift_bind_iff
  intro content
  rw [bind_assoc, within_mkdirs_bind]
  refine forall_congr' fun t' => forall_congr' fun made => forall_congr' fun done => ?_
  refine and_iff_left ?_
  have links := Tree.mkdirs_links done
  rw [writeBytes, within_change_bind]
  intro t'' touched wrote
  have here : Within (Permitted x ctx t)
      (change Failure.os fun t => t.write x.limit clock.now destination fun _ => content) t' :=
    (within_write destination _).mpr (writeWithin_checked admitted links)
  rw [within_change] at here
  refine ⟨here t'' touched wrote, ?_⟩
  unfold placeMetadata
  split
  · refine within_applyMetadataFields_checked admitted (fun q => ?_) metadata
    rw [Tree.write_links wrote, links]
  · rw [within_pure]
    trivial

theorem getItem_ok {params value : Json} {name : String} {default : Json}
    (read : getItem params name default = .ok value) (name' : String) (default' : Json) :
    ∃ value', getItem params name' default' = .ok value' := by
  unfold getItem at read ⊢
  split at read
  · exact ⟨_, rfl⟩
  · cases read

theorem getItem_of_item {params value : Json} {name : String} (read : item params name = .ok value)
    (name' : String) (default : Json) : ∃ value', getItem params name' default = .ok value' := by
  unfold item at read
  unfold getItem
  split at read
  · exact ⟨_, rfl⟩
  · cases read

theorem within_placeArtifact (params : Json) :
    Within (Permitted x ctx t) (placeArtifact x ctx clock params) t ↔
      PlaceContained x ctx clock (Permitted x ctx t) t params := by
  rw [placeArtifact, within_look_bind]
  refine forall_congr' fun destination => forall_congr' fun resolved => ?_
  rw [within_lift_bind]
  refine forall_congr' fun contentB64 => forall_congr' fun given => ?_
  rw [within_lift_bind]
  refine forall_congr' fun downloadUrl => forall_congr' fun _ => ?_
  rw [within_lift_bind]
  refine forall_congr' fun expectedHash => forall_congr' fun _ => ?_
  -- the metadata are read after the content is placed, and can always be read
  obtain ⟨metadata, named⟩ := getItem_ok given "visible_metadata" .null
  have later : ∀ t', Within (Permitted x ctx t) (do
      let visibleMetadata ← lift (getItem params "visible_metadata" .null)
      placeMetadata x destination visibleMetadata
      pure (RollbackDefinition.deleteFile destination)) t' ↔
        Within (Permitted x ctx t) (placeMetadata x destination metadata) t' := by
    intro t'
    simp only [within_lift_bind, within_bind_pure, named, Except.ok.injEq, forall_eq']
  rw [within_bind]
  simp only [later]
  rw [← within_bind (Permitted x ctx t) _ fun _ => placeMetadata x destination metadata]
  simp only [named, Except.ok.injEq, forall_eq']
  unfold placeContent
  split
  next => exact within_download destination downloadUrl expectedHash metadata
  next =>
    split
    next =>
      rw [within_bind]
      simp
    next given' =>
      rw [within_placeInline (pathParam_ok resolved)]
      exact ⟨fun made _ => made, fun made => made given'⟩

theorem within_wipeRoot {β : Type} {root : Loc} (proper : root ≠ []) (g : Unit → Action τ β) :
    Within P (wipeRoot x clock root >>= g) t ↔
      ∀ t' removed, emptied x t root = some (t', removed) → (∀ q ∈ removed, P q) ∧
        ∀ t'' made, t'.mkdirs x.limit clock.now root = some (t'', made) → (∀ q ∈ made, P q) ∧
          Within P (g ()) t'' := by
  rw [wipeRoot, bind_assoc, pathExists, within_look_bind]
  simp only [Except.ok.injEq, forall_eq', bind_assoc]
  unfold removeRoot emptied
  split
  next =>
    rw [rmtree, if_neg proper, within_change_bind]
    simp only [within_mkdirs_bind]
  next =>
    rw [within_pure_bind, within_mkdirs_bind]
    constructor
    · rintro within t' removed ⟨⟩
      exact ⟨by simp, within⟩
    · intro within
      exact (within t [] rfl).2

theorem within_wipeRoot_nil {β : Type} (g : Unit → Action τ β) :
    Within P (wipeRoot x clock [] >>= g) t ↔ P [] := by
  have found : t.existsAt x.limit [] = true := by
    rw [t.settled_nil.existsAt]
    obtain ⟨info, held⟩ := t.root
    rw [held]
    rfl
  rw [wipeRoot, bind_assoc, pathExists, within_look_bind]
  simp only [Except.ok.injEq, forall_eq', bind_assoc, found, removeRoot, if_true, rmtree]
  rw [within_change_bind]
  simp [within_bind]

theorem within_wipeRoots {β : Type} (roots : List Loc) (g : Unit → Action τ β) :
    Within P (wipeRoots x clock roots >>= g) t ↔
      WipeContained x clock P (Within P (g ())) roots t := by
  induction roots generalizing t with
  | nil => exact within_pure_bind P () g t
  | cons root rest ih =>
    rw [wipeRoots, bind_assoc]
    cases root with
    | nil => rw [within_wipeRoot_nil, WipeContained]
    | cons n p =>
      rw [within_wipeRoot (List.cons_ne_nil n p)]
      simp only [ih, WipeContained]

theorem within_extractKind {β : Type} (target : Loc) (kind : MemberKind) (g : Unit → Action τ β) :
    Within P (extractKind x clock target kind >>= g) t ↔
      MemberContained x clock P (Within P (g ())) target t kind := by
  cases kind with
  | dir => exact within_mkdirs_bind target g
  | file content => exact within_change_bind P _ _ g t
  | link text =>
    rw [extractKind, bind_assoc, unlinkMissingOk, within_change_bind]
    refine forall_congr' fun t' => forall_congr' fun removed => forall_congr' fun _ => and_congr_right fun _ => ?_
    exact within_change_bind P _ _ g t'

theorem within_extractAll {β : Type} (directory : Loc) (members : List Member) (g : Unit → Action τ β) :
    Within P (extractAll x clock directory members >>= g) t ↔
      ExtractContained x clock P (Within P (g ())) directory members t := by
  induction members generalizing t with
  | nil => exact within_pure_bind P () g t
  | cons member rest ih =>
    have later : Within P (extractAll x clock directory rest >>= g) =
        ExtractContained x clock P (Within P (g ())) directory rest :=
      funext fun t => propext ih
    rw [extractAll, bind_assoc, within_mkdirs_bind]
    simp only [bind_assoc, within_extractKind, later, ExtractContained]

theorem within_reseed {β : Type} (g : Unit → Action τ β) :
    Within P (reseed x ctx clock >>= g) t ↔ ReseedContained x ctx clock P (Within P (g ())) t := by
  unfold reseed ReseedContained
  cases ctx.baselineSnapshot with
  | none => exact within_pure_bind P () g t
  | some snapshot =>
    dsimp only
    rw [bind_assoc, pathExists, within_look_bind]
    simp only [Except.ok.injEq, forall_eq', reseedFrom]
    split
    next =>
      rw [bind_assoc, within_look_bind]
      refine forall_congr' fun members => forall_congr' fun _ => ?_
      rw [bind_assoc, within_lift_bind]
      exact forall_congr' fun root => forall_congr' fun _ => within_extractAll root.tail members g
    next => exact within_pure_bind P () g t

theorem within_wipeAndReseed {β : Type} (g : Unit → Action τ β) :
    Within P (wipeAndReseed x ctx clock >>= g) t ↔ ResetContained x ctx clock P (Within P (g ())) t := by
  rw [wipeAndReseed, bind_assoc, within_wipeRoots]
  have later : Within P (reseed x ctx clock >>= g) = ReseedContained x ctx clock P (Within P (g ())) :=
    funext fun t => propext (within_reseed g)
  rw [later]
  rfl

theorem within_softReset :
    Within P (softReset x ctx clock) t ↔ ResetContained x ctx clock P (fun _ => True) t := by
  have last : Within P (pure .noop : Action τ RollbackDefinition) = fun _ => True :=
    funext fun t' => propext (within_pure P _ t')
  rw [softReset, within_wipeAndReseed, last]

theorem within_fullRebuild :
    Within P (fullRebuild x ctx clock) t ↔ ResetContained x ctx clock P (fun t' =>
      t'.existsAt x.limit (concludedMarker ctx) = true → UnlinkWithin x P t' (concludedMarker ctx)) t := by
  have last : Within P (do
      let found ← pathExists x (concludedMarker ctx)
      unlinkFound x (concludedMarker ctx) found
      pure RollbackDefinition.noop) = fun t' =>
        t'.existsAt x.limit (concludedMarker ctx) = true → UnlinkWithin x P t' (concludedMarker ctx) := by
    funext t'
    rw [pathExists, within_look_bind]
    simp only [Except.ok.injEq, forall_eq', within_bind_pure, unlinkFound]
    split
    next found => simp only [within_unlink, found, forall_true_left]
    next absent => simp only [within_pure, absent, Bool.false_eq_true, false_implies]
  rw [fullRebuild, within_wipeAndReseed, last]

theorem within_resolved {path : Loc} {act : Loc → Bool → Action τ Unit}
    (absent : ∀ p, act p false = pure ())
    (found : ∀ p, resolvePath x ctx t path = .ok p → t.existsAt x.limit p = true →
      Within P (act p true) t) :
    Within P (do
      let p ← look fun t => resolvePath x ctx t path
      let there ← pathExists x p
      act p there) t := by
  rw [within_look_bind]
  intro p resolved
  rw [pathExists, within_look_bind]
  simp only [Except.ok.injEq, forall_eq']
  cases there : t.existsAt x.limit p with
  | true => exact found p resolved there
  | false =>
    rw [absent, within_pure]
    trivial

theorem within_applyRollbackDefinition (definition : RollbackDefinition) :
    Within (Permitted x ctx t) (applyRollbackDefinition x ctx clock definition) t ↔
      RollbackContained x ctx clock (Permitted x ctx t) t definition := by
  cases definition with
  | noop => exact within_pure _ () t
  | deleteFile path =>
    refine iff_of_true (within_resolved (fun _ => rfl) fun p resolved _ => ?_) trivial
    exact (within_unlink p).mpr (unlinkWithin_checked (resolvePath_ok resolved))
  | deleteDirectory path =>
    refine iff_of_true (within_resolved (fun _ => rfl) fun p resolved _ => ?_) trivial
    exact within_rmtree_checked (resolvePath_ok resolved)
  | moveFile path destination =>
    rw [applyRollbackDefinition, within_look_bind]
    refine forall_congr' fun source => forall_congr' fun resolved => ?_
    rw [within_look_bind]
    refine forall_congr' fun target => forall_congr' fun resolved' => ?_
    rw [pathExists, within_look_bind]
    simp only [Except.ok.injEq, forall_eq', moveBack]
    split
    next there =>
      simp only [there, forall_true_left]
      rw [within_mkdirs_bind]
      refine forall_congr' fun t' => forall_congr' fun made => forall_congr' fun done => and_iff_left ?_
      exact within_move_checked (resolvePath_ok resolved) (resolvePath_ok resolved') (Tree.mkdirs_links done)
    next absent => simp only [within_pure, absent, Bool.false_eq_true, false_implies]
  | restoreMetadata path priorState =>
    refine iff_of_true (within_resolved (fun _ => rfl) fun p resolved _ => ?_) trivial
    exact within_applyMetadataFields_checked (resolvePath_ok resolved) (fun _ => rfl) priorState
  | enableDecoyService serviceId priorState => exact within_enable serviceId priorState
  | disableDecoyService serviceId =>
    rw [applyRollbackDefinition, within_bind_pure]
    exact within_disable serviceId

end

/-! What a call is contained by. -/

section
variable (x : Externals τ) (ctx : Context)

def HandlerContained (clock : Clock τ) (t : Files τ) (params : Json) : ActionType → Prop
  | .placeArtifact => PlaceContained x ctx clock (Permitted x ctx t) t params
  | .moveArtifact => MoveContained x ctx clock (Permitted x ctx t) t params
  | .createDecoyDirectory => CreateContained x ctx clock (Permitted x ctx t) t params
  | .displayMessage => DisplayContained x ctx clock (Permitted x ctx t) t params
  | .enableDecoyService => ∀ serviceId, item params "service_id" = .ok serviceId →
      EnableContained x ctx clock (Permitted x ctx t) t serviceId
  | .disableDecoyService => ∀ serviceId, item params "service_id" = .ok serviceId →
      DisableContained x ctx (Permitted x ctx t) t serviceId
  | .requestSnapshot =>
    FileWithin x clock (Permitted x ctx t) t (snapshotsDir ctx) (snapshotPath ctx clock)
  | .concludeSession => ConcludeContained x ctx clock (Permitted x ctx t) t params
  | .testFilePlacement => TestFileContained x ctx clock (Permitted x ctx t) t params
  | .softReset => ResetContained x ctx clock (Permitted x ctx t) (fun _ => True) t
  | .fullRebuild => ResetContained x ctx clock (Permitted x ctx t) (fun t' =>
      t'.existsAt x.limit (concludedMarker ctx) = true →
        UnlinkWithin x (Permitted x ctx t) t' (concludedMarker ctx)) t
  | .cleanShutdown => ShutdownContained x ctx clock (Permitted x ctx t) t params
  | .changeVisibleMetadata | .testMetadataUpdate | .rollbackAction => True

def Contained (c : Controller τ) (call : Call τ) : Prop :=
  match actionTypeOf call.actionType with
  | none => True
  | some .rollbackAction =>
    ∀ entry, rolledBack c call = some entry →
      ∀ definition, entry.rollbackDefinition = some definition →
        RollbackContained x ctx call.clock (Permitted x ctx c.files) c.files definition
  | some actionType => HandlerContained x ctx call.clock c.files call.params actionType

end

section
variable {x : Externals τ} {ctx : Context} {clock : Clock τ} {t : Files τ}

theorem within_handler (actionType : ActionType) (params : Json) :
    Within (Permitted x ctx t) (handler x ctx clock actionType params) t ↔
      HandlerContained x ctx clock t params actionType := by
  cases actionType with
  | placeArtifact => exact within_placeArtifact params
  | moveArtifact => exact within_moveArtifact params
  | createDecoyDirectory => exact within_createDecoyDirectory params
  | changeVisibleMetadata => exact iff_of_true (within_changeVisibleMetadata params) trivial
  | displayMessage => exact within_displayMessage params
  | enableDecoyService =>
    rw [handler, enableDecoyService, within_lift_bind]
    refine forall_congr' fun serviceId => forall_congr' fun named => ?_
    obtain ⟨configProfile, given⟩ := getItem_of_item named "config_profile" .null
    rw [within_lift_bind]
    simp only [given, Except.ok.injEq, forall_eq', within_bind_pure, within_enable]
  | disableDecoyService =>
    rw [handler, disableDecoyService, within_lift_bind]
    simp only [within_bind_pure, within_disable, HandlerContained]
  | requestSnapshot => exact within_requestSnapshot
  | concludeSession => exact within_concludeSession params
  | testFilePlacement => exact within_testFilePlacement params
  | testMetadataUpdate => exact iff_of_true (within_testMetadataUpdate params) trivial
  | softReset => exact within_softReset
  | fullRebuild => exact within_fullRebuild
  | cleanShutdown => exact within_cleanShutdown params
  | rollbackAction => exact within_raise _ _ t

theorem within_undo (entry : JournalRow) :
    Within (Permitted x ctx t) (undo x ctx clock entry) t ↔
      ∀ definition, entry.rollbackDefinition = some definition →
        RollbackContained x ctx clock (Permitted x ctx t) t definition := by
  unfold undo
  cases entry.rollbackDefinition with
  | none => simp
  | some definition =>
    simp only [Option.some.injEq, forall_eq']
    exact within_applyRollbackDefinition definition

theorem touched_permitted (c : Controller τ) (call : Call τ) :
    (∀ q ∈ (executeAction x ctx c call).touched, Permitted x ctx c.files q) ↔
      Contained x ctx c call := by
  unfold Contained
  split
  next unknown => simp [executeAction, unknown]
  next rolled =>
    rw [executeAction, rolled]
    dsimp only
    cases found : rolledBack c call with
    | none => simp [(executeRollbackAction_none x ctx found).2]
    | some entry =>
      rw [executeRollbackAction_some found, (rollBack_spec x ctx c call entry).2.1]
      simp only [Option.some.injEq, forall_eq']
      exact within_undo entry
  next actionType other named =>
    rw [executeAction_perform named fun same => other (same ▸ rfl), perform_touched]
    exact within_handler actionType call.params

end

/-! The log is complete, and a rejected call has done nothing. -/

def Accounts (log : List Loc) (t t' : Files τ) : Prop :=
  ∀ r, (∀ q ∈ log, ¬ q <:+ r) → t'.node r = t.node r

theorem account_accounts : Account (@Accounts τ) where
  refl _ _ _ := rfl
  trans log log' t t' t'' first second r outside := by
    rw [second r fun q mem => outside q (List.mem_append_right _ mem)]
    exact first r fun q mem => outside q (List.mem_append_left _ mem)

def Plain {α : Type} : Except Failure α → Prop
  | .ok _ => True
  | .error e => e.restricted = false

structure Routine {α : Type} (m : Action τ α) : Prop where
  accounted : Obeys Accounts m
  unrestricted : Raises (fun e => e.restricted = false) m

structure Proper {α : Type} (m : Action τ α) : Prop where
  accounted : Obeys Accounts m
  rejected : ∀ t e, (m t).result = .error e → e.restricted = true → (m t).state = t

section
variable {α β : Type}

theorem Plain.bind {value : Except Failure α} {f : α → Except Failure β} (first : Plain value)
    (rest : ∀ a, Plain (f a)) : Plain (value >>= f) := by
  cases value with
  | error e => exact first
  | ok a => exact rest a

theorem routine_pure (a : α) : Routine (pure a : Action τ α) :=
  ⟨obeys_pure account_accounts a, raises_pure a⟩

theorem routine_raise {e : Failure} (plain : e.restricted = false) : Routine (raise e : Action τ α) := by
  refine ⟨obeys_raise account_accounts e, fun t e' raised => ?_⟩
  cases raised
  exact plain

theorem routine_look {f : Files τ → Except Failure α} (plain : ∀ t, Plain (f t)) : Routine (look f) := by
  refine ⟨obeys_look account_accounts f, fun t e raised => ?_⟩
  have := plain t
  rwa [show f t = .error e from raised] at this

theorem routine_lift {value : Except Failure α} (plain : Plain value) : Routine (lift value : Action τ α) :=
  routine_look fun _ => plain

theorem routine_change {f : Files τ → Option (Files τ × List Loc)} (logged : Tree.Logged f) :
    Routine (change .os f) :=
  ⟨obeys_change account_accounts _ logged, raises_change (Q := fun e => Failure.restricted e = false) rfl f⟩

theorem Routine.bind {m : Action τ α} {f : α → Action τ β} (first : Routine m)
    (rest : ∀ a, Routine (f a)) : Routine (m >>= f) :=
  ⟨obeys_bind account_accounts first.accounted fun a => (rest a).accounted,
    raises_bind first.unrestricted fun a => (rest a).unrestricted⟩

theorem Routine.onError {m : Action τ α} {handler : Action τ Unit} (first : Routine m)
    (second : Routine handler) : Routine (onError m handler) :=
  ⟨obeys_onError account_accounts first.accounted second.accounted,
    raises_onError first.unrestricted second.unrestricted⟩

theorem Routine.proper {m : Action τ α} (routine : Routine m) : Proper m := by
  refine ⟨routine.accounted, fun t e raised restricted => ?_⟩
  have plain : e.restricted = false := routine.unrestricted t e raised
  rw [restricted] at plain
  cases plain

theorem proper_look {f : Files τ → Except Failure α} {g : α → Action τ β} (rest : ∀ a, Proper (g a)) :
    Proper (look f >>= g) := by
  refine ⟨obeys_bind account_accounts (obeys_look account_accounts f) fun a => (rest a).accounted,
    fun t e raised restricted => ?_⟩
  cases read : f t with
  | error e' => rw [look_bind_error read]
  | ok a =>
    rw [look_bind_ok read] at raised ⊢
    exact (rest a).rejected t e raised restricted

theorem proper_bind_pure {m : Action τ α} (proper : Proper m) (f : α → β) :
    Proper (m >>= fun a => pure (f a)) := by
  refine ⟨obeys_bind account_accounts proper.accounted fun a => obeys_pure account_accounts (f a),
    fun t e raised restricted => ?_⟩
  cases ran : (m t).result with
  | error e' =>
    rw [bind_error ran] at raised ⊢
    cases raised
    exact proper.rejected t e ran restricted
  | ok a =>
    rw [bind_ok ran] at raised
    cases raised

end

theorem plain_item (params : Json) (name : String) : Plain (item params name) := by
  unfold item
  split
  · split <;> trivial
  · rfl

theorem plain_getItem (params : Json) (name : String) (default : Json) :
    Plain (getItem params name default) := by
  unfold getItem
  split <;> trivial

theorem plain_firstRoot (ctx : Context) : Plain (firstRoot ctx) := by
  unfold firstRoot
  split <;> trivial

theorem plain_expectedHashOf (params : Json) : Plain (expectedHashOf params) := by
  refine (plain_getItem _ _ _).bind fun sha256 => ?_
  split
  · trivial
  · exact plain_getItem _ _ _

theorem plain_messageTag (params : Json) : Plain (messageTag params) := by
  refine (plain_getItem _ _ _).bind fun outputTag => ?_
  split <;> trivial

section
variable (x : Externals τ) (ctx : Context) (clock : Clock τ)

theorem plain_messageEntry (params outputTag : Json) : Plain (messageEntry x clock params outputTag) :=
  (plain_item _ _).bind fun _ => (plain_item _ _).bind fun _ => trivial

theorem plain_fieldTime (fields : Json) (name : String) (default : τ) :
    Plain (fieldTime x fields name default) := by
  unfold fieldTime
  split
  · split
    · trivial
    · split <;> trivial
  · rfl

theorem plain_stat (t : Files τ) (path : Loc) : Plain (stat x t path) := by
  unfold stat
  split <;> trivial

theorem plain_approvedUrl (downloadUrl : Json) : Plain (approvedUrl x downloadUrl) := by
  unfold approvedUrl
  split
  · split
    · split <;> trivial
    · rfl
  · rfl

theorem plain_tempPath (destination : Loc) : Plain (tempPath destination) := by
  cases destination <;> trivial

theorem plain_checkedDownload (expectedHash : Json) (success complete : Bool)
    (taken : List ByteArray × Bool) : Plain (checkedDownload x expectedHash success complete taken) := by
  unfold checkedDownload
  split
  · rfl
  · split
    · rfl
    · split
      · rfl
      · split <;> trivial

theorem plain_decoded (contentB64 expectedHash : Json) : Plain (decoded x contentB64 expectedHash) := by
  unfold decoded
  split
  · rfl
  · split <;> trivial

theorem plain_storedProfile (t : Files τ) (marker : Loc) : Plain (storedProfile x t marker) := by
  unfold storedProfile
  split <;> trivial

theorem plain_readMembers (t : Files τ) (snapshot : Loc) : Plain (readMembers x t snapshot) := by
  unfold readMembers
  split
  · rfl
  · split <;> trivial

theorem routine_mkdirs (p : Loc) : Routine (mkdirs x clock p) :=
  routine_change (Tree.mkdirs_logged x.limit clock.now p)

theorem routine_writeBytes (p : Loc) (content : ByteArray) : Routine (writeBytes x clock p content) :=
  routine_change (Tree.write_logged x.limit clock.now p _)

theorem routine_unlink (p : Loc) : Routine (unlink x p) := routine_change (Tree.unlink_logged x.limit p)

theorem routine_move (source destination : Loc) : Routine (move x source destination) :=
  routine_change (Tree.move_logged x.limit source destination)

theorem routine_pathExists (p : Loc) : Routine (pathExists x p) := routine_look fun _ => trivial

theorem routine_present (p : Loc) : Routine (present x p) := by
  refine routine_look fun t => ?_
  split <;> trivial

theorem routine_rmtree (p : Loc) : Routine (rmtree x p) := by
  unfold rmtree
  split
  · refine (routine_change fun t t' touched done r outside => ?_).bind fun _ => routine_raise rfl
    cases done
    exact absurd List.nil_suffix (outside [] (List.mem_singleton_self _))
  · exact routine_change (Tree.rmtree_logged x.limit p)

theorem routine_unlinkMissingOk (p : Loc) : Routine (unlinkMissingOk x p) := by
  refine routine_change fun t t' touched done => ?_
  split at done
  · cases done
    exact fun _ _ => rfl
  · exact Tree.unlink_logged x.limit p t t' touched done

theorem routine_applyMetadataFields (path : Loc) (fields : Json) :
    Routine (applyMetadataFields x path fields) := by
  refine (routine_look fun t => plain_stat x t path).bind fun stat => ?_
  refine (routine_lift (plain_fieldTime x _ _ _)).bind fun atime => ?_
  refine (routine_lift (plain_fieldTime x _ _ _)).bind fun mtime => ?_
  exact routine_change (Tree.utime_logged x.limit path _)

theorem routine_if {α : Type} {m m' : Action τ α} (found : Bool) (then' : Routine m) (else' : Routine m') :
    Routine (if found then m else m') := by
  cases found with
  | true => exact then'
  | false => exact else'

theorem routine_fetchInto (temp destination : Loc) (url : String) (expectedHash : Json) :
    Routine (fetchInto x clock temp destination url expectedHash) := by
  unfold fetchInto
  split
  · exact routine_raise rfl
  · refine (routine_writeBytes x clock _ _).bind fun _ => ?_
    refine (routine_lift (plain_checkedDownload x _ _ _ _)).bind fun _ => ?_
    refine routine_change fun t t' touched done => ?_
    obtain ⟨s, -, done⟩ := Option.bind_eq_some_iff.mp done
    obtain ⟨d, -, done⟩ := Option.bind_eq_some_iff.mp done
    exact Tree.rename_logged s d t t' touched done

theorem routine_download (destination : Loc) (downloadUrl expectedHash : Json) :
    Routine (download x clock destination downloadUrl expectedHash) := by
  refine (routine_lift (plain_approvedUrl x _)).bind fun url => ?_
  refine (routine_mkdirs x clock _).bind fun _ => ?_
  refine (routine_lift (plain_tempPath _)).bind fun temp => ?_
  exact (routine_fetchInto x clock _ _ _ _).onError (routine_unlinkMissingOk x _)

theorem routine_placeContent (destination : Loc) (downloadUrl contentB64 expectedHash : Json) :
    Routine (placeContent x clock destination downloadUrl contentB64 expectedHash) := by
  unfold placeContent
  split
  · exact routine_download x clock _ _ _
  · split
    · exact routine_raise rfl
    · refine (routine_lift (plain_decoded x _ _)).bind fun content => ?_
      exact (routine_mkdirs x clock _).bind fun _ => routine_writeBytes x clock _ _

theorem routine_wipeRoots (roots : List Loc) : Routine (wipeRoots x clock roots) := by
  induction roots with
  | nil => exact routine_pure ()
  | cons root rest ih =>
    refine Routine.bind ?_ fun _ => ih
    refine (routine_pathExists x root).bind fun found => ?_
    exact (routine_if found (routine_rmtree x root) (routine_pure ())).bind fun _ =>
      routine_mkdirs x clock root

theorem routine_extractKind (target : Loc) (kind : MemberKind) :
    Routine (extractKind x clock target kind) := by
  cases kind with
  | dir => exact routine_mkdirs x clock target
  | file content => exact routine_writeBytes x clock target content
  | link text =>
    exact (routine_unlinkMissingOk x target).bind fun _ =>
      routine_change (Tree.symlink_logged x.limit text target)

theorem routine_extractAll (directory : Loc) (members : List Member) :
    Routine (extractAll x clock directory members) := by
  induction members with
  | nil => exact routine_pure ()
  | cons member rest ih =>
    refine (routine_mkdirs x clock _).bind fun _ => ?_
    exact (routine_extractKind x clock _ member.kind).bind fun _ => ih

theorem routine_wipeAndReseed : Routine (wipeAndReseed x ctx clock) := by
  refine (routine_wipeRoots x clock _).bind fun _ => ?_
  unfold reseed
  split
  · exact routine_pure ()
  · refine (routine_pathExists x _).bind fun found => routine_if found ?_ (routine_pure ())
    refine (routine_look fun t => plain_readMembers x t _).bind fun members => ?_
    exact (routine_lift (plain_firstRoot ctx)).bind fun root => routine_extractAll x clock _ members

theorem proper_enable (serviceId configProfile : Json) :
    Proper (enable x ctx clock serviceId configProfile) := by
  refine proper_look fun marker => Routine.proper ?_
  exact (routine_mkdirs x clock _).bind fun _ => routine_writeBytes x clock _ _

theorem proper_disable (serviceId : Json) : Proper (disable x ctx serviceId) := by
  refine proper_look fun marker => Routine.proper ?_
  refine (routine_pathExists x marker).bind fun found => routine_if found ?_ (routine_pure _)
  refine (routine_look fun t => plain_storedProfile x t marker).bind fun configProfile => ?_
  exact (routine_unlink x marker).bind fun _ => routine_pure _

theorem proper_applyRollbackDefinition (definition : RollbackDefinition) :
    Proper (applyRollbackDefinition x ctx clock definition) := by
  cases definition with
  | noop => exact (routine_pure ()).proper
  | deleteFile path =>
    refine proper_look fun p => Routine.proper ?_
    exact (routine_pathExists x p).bind fun found => routine_if found (routine_unlink x p) (routine_pure ())
  | deleteDirectory path =>
    refine proper_look fun p => Routine.proper ?_
    exact (routine_pathExists x p).bind fun found => routine_if found (routine_rmtree x p) (routine_pure ())
  | moveFile path destination =>
    refine proper_look fun source => proper_look fun destination => Routine.proper ?_
    refine (routine_pathExists x source).bind fun found => routine_if found ?_ (routine_pure ())
    exact (routine_mkdirs x clock _).bind fun _ => routine_move x source destination
  | restoreMetadata path priorState =>
    refine proper_look fun p => Routine.proper ?_
    exact (routine_pathExists x p).bind fun found =>
      routine_if found (routine_applyMetadataFields x p priorState) (routine_pure ())
  | enableDecoyService serviceId priorState => exact proper_enable x ctx clock serviceId priorState
  | disableDecoyService serviceId => exact proper_bind_pure (proper_disable x ctx serviceId) fun _ => ()

theorem proper_handler (actionType : ActionType) (params : Json) :
    Proper (handler x ctx clock actionType params) := by
  cases actionType with
  | placeArtifact =>
    refine proper_look fun destination => Routine.proper ?_
    refine (routine_lift (plain_getItem _ _ _)).bind fun contentB64 => ?_
    refine (routine_lift (plain_getItem _ _ _)).bind fun downloadUrl => ?_
    refine (routine_lift (plain_expectedHashOf _)).bind fun expectedHash => ?_
    refine (routine_placeContent x clock _ _ _ _).bind fun _ => ?_
    refine (routine_lift (plain_getItem _ _ _)).bind fun metadata => ?_
    exact (routine_if _ (routine_applyMetadataFields x _ _) (routine_pure ())).bind fun _ => routine_pure _
  | moveArtifact =>
    refine proper_look fun source => proper_look fun destination => Routine.proper ?_
    refine (routine_present x source).bind fun _ => (routine_mkdirs x clock _).bind fun _ => ?_
    exact (routine_move x source destination).bind fun _ => routine_pure _
  | createDecoyDirectory =>
    refine proper_look fun path => Routine.proper ?_
    refine (routine_mkdirs x clock path).bind fun _ => ?_
    refine (routine_lift (plain_getItem _ _ _)).bind fun profile => ?_
    exact (routine_if _ (routine_writeBytes x clock _ _) (routine_pure ())).bind fun _ => routine_pure _
  | changeVisibleMetadata =>
    refine proper_look fun target => Routine.proper ?_
    refine (routine_present x target).bind fun _ => ?_
    refine (routine_lift (plain_item _ _)).bind fun fields => (routine_lift (plain_item _ _)).bind fun _ => ?_
    exact (routine_applyMetadataFields x target fields).bind fun _ => routine_pure _
  | displayMessage =>
    refine Routine.proper ((routine_lift (plain_messageTag _)).bind fun outputTag => ?_)
    refine (routine_lift (plain_firstRoot ctx)).bind fun root => (routine_mkdirs x clock root).bind fun _ => ?_
    refine (routine_lift (plain_messageEntry x clock _ _)).bind fun line => ?_
    exact (routine_change (Tree.write_logged x.limit clock.now _ _)).bind fun _ => routine_pure _
  | enableDecoyService =>
    refine proper_look fun serviceId => proper_look fun configProfile => ?_
    exact proper_bind_pure (proper_enable x ctx clock serviceId configProfile) _
  | disableDecoyService =>
    exact proper_look fun serviceId => proper_bind_pure (proper_disable x ctx serviceId) _
  | requestSnapshot =>
    refine Routine.proper ((routine_mkdirs x clock _).bind fun _ => ?_)
    refine Routine.bind (routine_look fun t => ?_) fun archive =>
      (routine_writeBytes x clock _ archive).bind fun _ => routine_pure _
    trivial
  | concludeSession =>
    refine Routine.proper ((routine_mkdirs x clock _).bind fun _ => ?_)
    refine (routine_lift (plain_item _ _)).bind fun reason => ?_
    exact (routine_writeBytes x clock _ _).bind fun _ => routine_pure _
  | testFilePlacement =>
    refine proper_look fun destination => Routine.proper ?_
    refine (routine_mkdirs x clock _).bind fun _ => ?_
    refine (routine_lift (plain_getItem _ _ _)).bind fun content => ?_
    refine (routine_lift ?_).bind fun text => (routine_writeBytes x clock _ _).bind fun _ => routine_pure _
    split <;> trivial
  | testMetadataUpdate =>
    refine proper_look fun target => Routine.proper ?_
    refine (routine_present x target).bind fun _ => ?_
    refine (routine_look fun t => plain_stat x t target).bind fun prior => ?_
    refine (routine_lift (plain_item _ _)).bind fun modifiedTime => ?_
    exact (routine_applyMetadataFields x target _).bind fun _ => routine_pure _
  | softReset => exact ((routine_wipeAndReseed x ctx clock).bind fun _ => routine_pure _).proper
  | fullRebuild =>
    refine Routine.proper ((routine_wipeAndReseed x ctx clock).bind fun _ => ?_)
    refine (routine_pathExists x _).bind fun found => ?_
    exact (routine_if found (routine_unlink x _) (routine_pure ())).bind fun _ => routine_pure _
  | cleanShutdown =>
    refine Routine.proper ((routine_mkdirs x clock _).bind fun _ => ?_)
    refine (routine_lift (plain_getItem _ _ _)).bind fun reason => ?_
    exact (routine_writeBytes x clock _ _).bind fun _ => routine_pure _
  | rollbackAction => exact (routine_raise rfl).proper

theorem proper_undo (entry : JournalRow) : Proper (undo x ctx clock entry) := by
  unfold undo
  split
  · exact proper_applyRollbackDefinition x ctx clock _
  · exact (routine_pure ()).proper

/-- Whatever a call has changed is in its log, and a rejected one has changed no
file. -/
theorem executeAction_proper (c : Controller τ) (call : Call τ) :
    Accounts (executeAction x ctx c call).touched c.files (executeAction x ctx c call).after.files ∧
      ∀ outcome, (executeAction x ctx c call).outcome = some outcome → outcome.status = .rejected →
        (executeAction x ctx c call).after.files = c.files := by
  cases named : actionTypeOf call.actionType with
  | none => simp [executeAction, named, Accounts]
  | some actionType =>
    by_cases rolled : actionType = .rollbackAction
    · subst rolled
      have executed : executeAction x ctx c call = executeRollbackAction x ctx c call := by
        rw [executeAction, named]
      rw [executed]
      cases found : rolledBack c call with
      | none =>
        obtain ⟨same, nothing⟩ := executeRollbackAction_none x ctx found
        rw [same, nothing]
        exact ⟨fun _ _ => rfl, fun _ _ _ => rfl⟩
      | some entry =>
        rw [executeRollbackAction_some found]
        obtain ⟨files, touched, never⟩ := rollBack_spec x ctx c call entry
        rw [files, touched]
        exact ⟨(proper_undo x ctx call.clock entry).accounted c.files,
          fun outcome given rejected => absurd rejected (never outcome given)⟩
    · have proper := proper_handler x ctx call.clock actionType call.params
      rw [executeAction_perform named rolled, perform_files, perform_touched]
      refine ⟨proper.accounted c.files, fun outcome given rejected => ?_⟩
      obtain ⟨failure, raised, restricted⟩ := perform_rejected given rejected
      exact proper.rejected c.files failure raised restricted

theorem confined_of_permitted {c : Controller τ} {call : Call τ}
    (permitted : ∀ q ∈ (executeAction x ctx c call).touched, Permitted x ctx c.files q) :
    Confined x ctx c call :=
  ⟨(executeAction_proper x ctx c call).1, permitted, (executeAction_proper x ctx c call).2⟩

/-- A call of `execute_action` is confined exactly if whatever it reaches without
having resolved it is permitted. -/
theorem confined_iff (c : Controller τ) (call : Call τ) :
    Confined x ctx c call ↔ Contained x ctx c call := by
  constructor
  · intro confined
    exact (touched_permitted c call).mp confined.permitted
  · intro contained
    exact confined_of_permitted x ctx ((touched_permitted c call).mpr contained)

end

section
variable {x : Externals τ} {ctx : Context} {clock : Clock τ} {t : Files τ}

end

def linkedFiles : Files ℕ where
  node
    | [] => some (.dir ⟨1, 1⟩)
    | ["decoys"] => some (.dir ⟨2, 2⟩)
    | ["_messages.log", "decoys"] => some (.link "/etc/hosts")
    | ["etc"] => some (.dir ⟨3, 3⟩)
    | ["hosts", "etc"] => some (.file "localhost".toUTF8 ⟨3, 3⟩)
    | _ => none
  root := ⟨_, rfl⟩
  parent := by
    intro n p y found
    split at found
    next same => cases same
    next same =>
      cases same
      exact ⟨_, rfl⟩
    next same =>
      cases same
      exact ⟨_, rfl⟩
    next same =>
      cases same
      exact ⟨_, rfl⟩
    next same =>
      cases same
      exact ⟨_, rfl⟩
    next => cases found

def greeting : Call ℕ :=
  ⟨"DISPLAY_MESSAGE", .obj [("surface", .str "desktop"), ("content", .str "hello"),
    ("output_tag", .str "ANALYST_MESSAGE")], "a1", sampleClock⟩

/-- The message is appended to a file outside of the root. -/
theorem greeting_escapes : (executeAction sampleExternals sampleContext ⟨linkedFiles, .empty⟩ greeting).touched =
      [["hosts", "etc"]] ∧
    ¬ Confined sampleExternals sampleContext ⟨linkedFiles, .empty⟩ greeting := by
  have touched : (executeAction sampleExternals sampleContext ⟨linkedFiles, .empty⟩ greeting).touched =
      [["hosts", "etc"]] := by decide +kernel
  refine ⟨touched, fun confined => ?_⟩
  have permitted := confined.permitted ["hosts", "etc"] (by rw [touched]; exact List.mem_singleton_self _)
  rcases permitted with ⟨root, listed, r, found, inside⟩ | ⟨base, found, named⟩
  · cases List.mem_singleton.mp listed
    have lead : linkedFiles.follow sampleExternals.limit ["decoys"] = some ["decoys"] := by decide +kernel
    cases lead.symm.trans found
    revert inside
    decide
  · have lead : linkedFiles.follow sampleExternals.limit sampleContext.programdata =
        some ["programdata"] := by decide +kernel
    cases lead.symm.trans found
    simp at named

end Mirage.ControllerConfinement
