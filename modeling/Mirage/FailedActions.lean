import Mirage.ControllerRollback
import Mirage.ControllerConfinement

/-! What an action that fails leaves behind. -/

namespace Mirage.FailedActions
open EnvController FileTree Effects ControllerConfinement
open SandboxActions (ActionType actionTypeOf)

variable {τ : Type}

section
variable (x : Externals τ) (ctx : Context)

def way (t : Files τ) (params : Json) : ActionType → Option Loc
  | .placeArtifact | .moveArtifact | .testFilePlacement =>
    (pathParam x ctx t params "destination").toOption.map List.tail
  | .displayMessage => (firstRoot ctx).toOption
  | .concludeSession | .cleanShutdown => some ctx.programdata
  | _ => none

def Downloaded (t : Files τ) (params : Json) (destination q : Loc) : Prop :=
  ∃ url, getItem params "download_url" .null = .ok url ∧ url.isTrue = true ∧
    ∃ temp, tempPath destination = .ok temp ∧ (q = temp ∨ t.follow x.limit temp = some q)

def Described (params : Json) (destination q : Loc) : Prop :=
  q = destination ∧ ∃ metadata, getItem params "visible_metadata" .null = .ok metadata ∧
    metadata.isTrue = true

def Spot (t t₁ : Files τ) (params : Json) (actionType : ActionType) (q : Loc) : Prop :=
  actionType = .placeArtifact ∧ ∃ destination, pathParam x ctx t params "destination" = .ok destination ∧
    (Described params destination q ∨ Downloaded x t₁ params destination q)

/-- What an action that fails makes of a tree `t`: at most the directories on its
way are added, and beside the spots nothing else is changed. -/
structure Trace (clock : Clock τ) (params : Json) (actionType : ActionType) (t t₁ t' : Files τ) :
    Prop where
  made : t₁ = t ∨ ∃ d, way x ctx t params actionType = some d ∧
    ∃ made, t.mkdirs x.limit clock.now d = some (t₁, made)
  grown : ∀ r, t₁.node r = t.node r ∨ (t.node r = none ∧ t₁.isDir r = true)
  rest : ∀ r, (∀ q, Spot x ctx t t₁ params actionType q → ¬ q <:+ r) → t'.node r = t₁.node r

def Traced (clock : Clock τ) (params : Json) (actionType : ActionType) (t t' : Files τ) : Prop :=
  ∃ t₁, Trace x ctx clock params actionType t t₁ t'

end

section
variable {x : Externals τ} {ctx : Context} {clock : Clock τ} {params : Json} {actionType : ActionType}
  {t t' t₁ : Files τ} {Q : Files τ → Prop}

theorem traced_same : Traced x ctx clock params actionType t t :=
  ⟨t, .inl rfl, fun _ => .inl rfl, fun _ _ => rfl⟩

theorem traced_made {d : Loc} {made : List Loc} (leads : way x ctx t params actionType = some d)
    (done : t.mkdirs x.limit clock.now d = some (t₁, made)) :
    Traced x ctx clock params actionType t t₁ :=
  ⟨t₁, .inr ⟨d, leads, made, done⟩, Tree.mkdirs_grown done, fun _ _ => rfl⟩

theorem leaves_applyMetadataFields (kept : Q t) (p : Loc) (fields : Json) :
    Leaves Q (applyMetadataFields x p fields) t :=
  leaves_look_bind kept fun _ _ => leaves_look_bind kept fun _ _ => leaves_look_bind kept fun _ _ =>
    leaves_change kept _ _

theorem leaves_writeBytes_made {n m : String} {p : Loc} {made : List Loc} (kept : Q t)
    (done : t.mkdirs x.limit clock.now (n :: p) = some (t₁, made)) (name : n ≠ "..") (name' : m ≠ "..")
    (content : ByteArray) : Leaves Q (writeBytes x clock (m :: n :: p) content) t₁ := by
  rcases Tree.mkdirs_writable done name name' with same | open'
  · rw [same]
    exact leaves_change kept _ _
  · intro e raised
    cases wrote : t₁.write x.limit clock.now (m :: n :: p) fun _ => content with
    | none =>
      rw [Tree.unwritable_of_write wrote] at open'
      cases open'
    | some after =>
      rw [writeBytes, change_some wrote] at raised
      cases raised

theorem leaves_writeBytes_settled {p : Loc} {made : List Loc} (kept : Q t) (settled : t.Settled p)
    (done : t.mkdirs x.limit clock.now p.tail = some (t₁, made)) (content : ByteArray) :
    Leaves Q (writeBytes x clock p content) t₁ := by
  match p, settled, done with
  | [], _, done =>
    cases done
    exact leaves_change kept _ _
  | [_], _, done =>
    cases done
    exact leaves_change kept _ _
  | m :: n :: p, settled, done =>
    refine leaves_writeBytes_made kept done (fun up => settled.plain ?_) (fun up => settled.plain ?_) content
    · rw [up]
      exact List.mem_cons_of_mem m List.mem_cons_self
    · rw [up]
      exact List.mem_cons_self

theorem getItem_of_pathParam {name : String} {p : Loc} (resolved : pathParam x ctx t params name = .ok p)
    (name' : String) (default : Json) : ∃ value, getItem params name' default = .ok value := by
  unfold pathParam item at resolved
  unfold getItem
  split at resolved
  next members => exact ⟨_, rfl⟩
  next => cases resolved

theorem markerPath_tail {serviceId : Json} {marker : Loc} (named : markerPath ctx serviceId = .ok marker) :
    ∃ root, marker.tail = "_decoy_services" :: root := by
  unfold markerPath at named
  cases approved : resolveApprovedServiceName serviceId with
  | error e =>
    rw [approved] at named
    cases named
  | ok id =>
    cases first : firstRoot ctx with
    | error e =>
      rw [approved, first] at named
      cases named
    | ok root =>
      rw [approved, first] at named
      cases named
      exact ⟨root, rfl⟩

/-! The handlers that leave nothing, or directories. -/

theorem leaves_changeVisibleMetadata (kept : Q t) (params : Json) :
    Leaves Q (changeVisibleMetadata x ctx params) t :=
  leaves_look_bind kept fun target _ => leaves_look_bind kept fun _ _ =>
    leaves_look_bind kept fun fields _ => leaves_look_bind kept fun _ _ =>
      leaves_bind_pure (leaves_applyMetadataFields kept target fields) _

theorem leaves_testMetadataUpdate (kept : Q t) (params : Json) :
    Leaves Q (testMetadataUpdate x ctx params) t :=
  leaves_look_bind kept fun target _ => leaves_look_bind kept fun _ _ =>
    leaves_look_bind kept fun _ _ => leaves_look_bind kept fun _ _ =>
      leaves_bind_pure (leaves_applyMetadataFields kept target _) _

theorem leaves_disableDecoyService (kept : Q t) (params : Json) :
    Leaves Q (disableDecoyService x ctx params) t := by
  refine leaves_look_bind kept fun serviceId _ => leaves_bind_pure ?_ _
  refine leaves_look_bind kept fun marker _ => leaves_look_bind kept fun found _ => ?_
  unfold disableMarker
  split
  next => exact leaves_look_bind kept fun _ _ => leaves_bind_pure (leaves_change kept _ _) _
  next => exact leaves_pure Q _ t

theorem leaves_enableDecoyService (kept : Q t) (params : Json) :
    Leaves Q (enableDecoyService x ctx clock params) t := by
  refine leaves_look_bind kept fun serviceId _ => leaves_look_bind kept fun profile _ =>
    leaves_bind_pure ?_ _
  refine leaves_look_bind kept fun marker named => leaves_change_bind kept fun t₁ made done => ?_
  obtain ⟨n, directory, rfl, name⟩ := ControllerRollback.markerPath_ok named
  obtain ⟨root, tail⟩ := markerPath_tail named
  cases tail
  exact leaves_writeBytes_made kept done (by decide) name _

theorem leaves_requestSnapshot (kept : Q t) : Leaves Q (requestSnapshot x ctx clock) t := by
  refine leaves_change_bind kept fun t₁ made done => leaves_read_bind rfl (leaves_bind_pure ?_ _)
  refine leaves_writeBytes_made kept done (by decide) (fun up => ?_) _
  have long := congrArg String.length up
  rw [String.length_append, String.length_append] at long
  have front : "snapshot-".length = 9 := by decide
  have short : "..".length = 2 := by decide
  omega

theorem leaves_createDecoyDirectory (kept : Q t) (params : Json) :
    Leaves Q (createDecoyDirectory x ctx clock params) t := by
  refine leaves_look_bind kept fun path resolved => leaves_change_bind kept fun t₁ made done => ?_
  obtain ⟨profile, read⟩ := getItem_of_pathParam resolved "metadata_profile" .null
  refine leaves_read_bind read (leaves_bind_pure ?_ _)
  unfold writeProfile
  split
  next =>
    have settled := (pathParam_ok resolved).settled
    match path, settled, done with
    | [], _, done =>
      cases done
      exact leaves_change kept _ _
    | n :: p, settled, done =>
      refine leaves_writeBytes_made kept done (fun up => settled.plain ?_) (by decide) _
      rw [up]
      exact List.mem_cons_self
  next => exact leaves_pure Q _ t₁

theorem leaves_moveArtifact (params : Json) :
    Leaves (Traced x ctx clock params .moveArtifact t) (moveArtifact x ctx clock params) t := by
  refine leaves_look_bind traced_same fun source _ => leaves_look_bind traced_same fun destination resolved =>
    leaves_look_bind traced_same fun _ _ => leaves_change_bind traced_same fun t₁ made done => ?_
  refine leaves_bind_pure (leaves_change (traced_made ?_ done) _ _) _
  rw [way, resolved]
  rfl

theorem leaves_testFilePlacement (params : Json) :
    Leaves (Traced x ctx clock params .testFilePlacement t) (testFilePlacement x ctx clock params) t := by
  refine leaves_look_bind traced_same fun destination resolved =>
    leaves_change_bind traced_same fun t₁ made done => ?_
  have left : Traced x ctx clock params .testFilePlacement t t₁ := by
    refine traced_made ?_ done
    rw [way, resolved]
    rfl
  exact leaves_look_bind left fun _ _ => leaves_look_bind left fun _ _ =>
    leaves_bind_pure (leaves_change left _ _) _

theorem leaves_displayMessage (params : Json) :
    Leaves (Traced x ctx clock params .displayMessage t) (displayMessage x ctx clock params) t := by
  refine leaves_look_bind traced_same fun outputTag _ => leaves_look_bind traced_same fun root first =>
    leaves_change_bind traced_same fun t₁ made done => ?_
  have left : Traced x ctx clock params .displayMessage t t₁ := by
    refine traced_made ?_ done
    rw [way, first]
    rfl
  exact leaves_look_bind left fun _ _ => leaves_bind_pure (leaves_change left _ _) _

theorem leaves_concludeSession (params : Json) :
    Leaves (Traced x ctx clock params .concludeSession t) (concludeSession x ctx clock params) t := by
  refine leaves_change_bind traced_same fun t₁ made done => ?_
  have left : Traced x ctx clock params .concludeSession t t₁ := traced_made rfl done
  exact leaves_look_bind left fun _ _ => leaves_bind_pure (leaves_change left _ _) _

theorem leaves_cleanShutdown (params : Json) :
    Leaves (Traced x ctx clock params .cleanShutdown t) (cleanShutdown x ctx clock params) t := by
  refine leaves_change_bind traced_same fun t₁ made done => ?_
  have left : Traced x ctx clock params .cleanShutdown t t₁ := traced_made rfl done
  exact leaves_look_bind left fun _ _ => leaves_bind_pure (leaves_change left _ _) _

theorem write_touched {p : Loc} {content : Option ByteArray → ByteArray} {touched : List Loc}
    (wrote : t.write x.limit clock.now p content = some (t', touched)) :
    ∀ q ∈ touched, t.follow x.limit p = some q := by
  unfold Tree.write at wrote
  split at wrote
  next n q found =>
    split at wrote
    next =>
      cases wrote
      intro r mem
      rw [found, List.mem_singleton.mp mem]
    next => cases wrote
  next => cases wrote

theorem temp_entry {destination temp : Loc} (settled : t.Settled destination)
    (named : tempPath destination = .ok temp) : t.entry x.limit temp = some temp := by
  cases destination with
  | nil => cases named
  | cons name parent =>
    cases named
    have parent' : t.Settled parent := settled.tail
    rw [Tree.entry, parent'.follow]
    rfl

/-- The body of the `try` fails before anything but the temporary file is
touched, or puts that in the place of the destination. -/
theorem fetchInto_touched {destination temp : Loc} (settled : t.Settled destination)
    (named : tempPath destination = .ok temp) (url : String) (expectedHash : Json) :
    ((∃ e, (fetchInto x clock temp destination url expectedHash t).result = .error e) ∧
        (∀ q, (fetchInto x clock temp destination url expectedHash t).state.link? q = t.link? q) ∧
        ∀ q ∈ (fetchInto x clock temp destination url expectedHash t).log, t.follow x.limit temp = some q) ∨
      ((fetchInto x clock temp destination url expectedHash t).result = .ok () ∧
        ∀ q ∈ (fetchInto x clock temp destination url expectedHash t).log,
          t.follow x.limit temp = some q ∨ q = temp ∨ q = destination) := by
  cases fetched : x.fetch url with
  | unreachable =>
    have ran : fetchInto x clock temp destination url expectedHash t = ⟨.error .network, t, []⟩ := by
      rw [fetchInto, fetched]
      rfl
    rw [ran]
    exact .inl ⟨⟨_, rfl⟩, fun _ => rfl, fun _ mem => (by cases mem)⟩
  | answered success chunks complete =>
    cases wrote : t.write x.limit clock.now temp
        (fun _ => (if success then takeChunks 0 chunks else ([], true)).1.foldl (· ++ ·) .empty) with
    | none =>
      have ran : fetchInto x clock temp destination url expectedHash t = ⟨.error .os, t, []⟩ := by
        rw [fetchInto, fetched]
        exact change_bind_none wrote _
      rw [ran]
      exact .inl ⟨⟨_, rfl⟩, fun _ => rfl, fun _ mem => (by cases mem)⟩
    | some done =>
      obtain ⟨t', touched⟩ := done
      rw [fetchInto_written fetched wrote]
      have links := Tree.write_links wrote
      have opened := write_touched wrote
      split
      next => exact .inl ⟨⟨_, rfl⟩, links, opened⟩
      next =>
        split
        next => exact .inl ⟨⟨_, rfl⟩, links, opened⟩
        next t'' moved renamed =>
          refine .inr ⟨rfl, fun q mem => ?_⟩
          rcases List.mem_append.mp mem with mem | mem
          · exact .inl (opened q mem)
          · have settled' : t'.Settled destination := settled.congr fun q _ => links q
            obtain ⟨s, from', renamed⟩ := Option.bind_eq_some_iff.mp renamed
            obtain ⟨d, there, renamed⟩ := Option.bind_eq_some_iff.mp renamed
            rw [settled'.entry] at there
            cases there
            rw [temp_entry settled' named] at from'
            cases from'
            rcases rename_touched renamed with rfl | rfl
            · cases mem
            · simpa using Or.inr mem

theorem fetch_rest {destination temp : Loc} (settled : t.Settled destination)
    (named : tempPath destination = .ok temp) (url : String) (expectedHash : Json) {r : Loc}
    (outside : ∀ q, (q = temp ∨ t.follow x.limit temp = some q ∨ (q = destination ∧
      (fetchInto x clock temp destination url expectedHash t).result = .ok ())) → ¬ q <:+ r) :
    (onError (fetchInto x clock temp destination url expectedHash) (unlinkMissingOk x temp) t).state.node r =
      t.node r := by
  have routine := (routine_fetchInto x clock temp destination url expectedHash).onError
    (routine_unlinkMissingOk x temp)
  refine routine.accounted t r fun q mem => outside q ?_
  rcases @fetchInto_touched _ x clock _ _ _ settled named url expectedHash with
    ⟨⟨e, raised⟩, links, touched⟩ | ⟨ok, touched⟩
  · simp only [onError, raised, List.mem_append] at mem
    rcases mem with mem | mem
    · exact .inr (.inl (touched q mem))
    · have beside : UnlinkWithin x (· = temp) (fetchInto x clock temp destination url expectedHash t).state
          temp := by
        intro q found _ _
        rw [temp_entry (settled.congr fun q _ => links q) named] at found
        cases found
        rfl
      exact .inl ((within_unlinkMissingOk temp).mpr beside q mem)
  · simp only [onError, ok] at mem
    rcases touched q mem with opened | same | same
    · exact .inr (.inl opened)
    · exact .inl same
    · exact .inr (.inr ⟨same, ok⟩)

def Placed (x : Externals τ) (clock : Clock τ) (params : Json) (destination : Loc) (t t' : Files τ) : Prop :=
  ∃ t₁ made, t.mkdirs x.limit clock.now destination.tail = some (t₁, made) ∧
    ∀ r, (∀ q, q = destination ∨ Downloaded x t₁ params destination q → ¬ q <:+ r) →
      t'.node r = t₁.node r

theorem traced_place {destination : Loc} {made : List Loc}
    (resolved : pathParam x ctx t params "destination" = .ok destination)
    (done : t.mkdirs x.limit clock.now destination.tail = some (t₁, made))
    (rest : ∀ r, (∀ q, Described params destination q ∨ Downloaded x t₁ params destination q → ¬ q <:+ r) →
      t'.node r = t₁.node r) : Traced x ctx clock params .placeArtifact t t' := by
  have leads : way x ctx t params .placeArtifact = some destination.tail := by
    rw [way, resolved]
    rfl
  refine ⟨t₁, .inr ⟨destination.tail, leads, made, done⟩, Tree.mkdirs_grown done, fun r outside => ?_⟩
  exact rest r fun q spot => outside q ⟨rfl, destination, resolved, spot⟩

theorem leaves_download {url expectedHash : Json} {p : Loc}
    (resolved : pathParam x ctx t params "destination" = .ok p)
    (read : getItem params "download_url" .null = .ok url) (named : url.isTrue = true) :
    Leaves (Traced x ctx clock params .placeArtifact t) (download x clock p url expectedHash) t := by
  refine leaves_look_bind traced_same fun approved _ => leaves_change_bind traced_same fun t₁ made done => ?_
  have settled := (pathParam_ok resolved).settled.congr fun q _ => Tree.mkdirs_links done q
  refine leaves_look_bind (traced_place resolved done fun _ _ => rfl) fun temp beside =>
    leaves_onError fun e s' log ran => traced_place resolved done fun r outside => ?_
  have frame := @fetch_rest _ x clock t₁ _ _ settled beside approved expectedHash r
  simp only [onError, ran] at frame
  refine frame fun q place => ?_
  rcases place with same | opened | ⟨-, ok⟩
  · exact outside q (.inr ⟨url, read, named, temp, beside, .inl same⟩)
  · exact outside q (.inr ⟨url, read, named, temp, beside, .inr opened⟩)
  · cases ok

theorem download_placed {url expectedHash : Json} {p : Loc} (settled : t.Settled p)
    (read : getItem params "download_url" .null = .ok url) (named : url.isTrue = true) :
    Gives (fun _ => Placed x clock params p t) (download x clock p url expectedHash) t := by
  refine gives_bind fun approved _ => gives_change_bind fun t₁ made done => gives_bind fun temp beside => ?_
  intro u _
  refine ⟨t₁, made, done, fun r outside => ?_⟩
  have settled' := settled.congr fun q _ => Tree.mkdirs_links done q
  refine fetch_rest settled' beside approved expectedHash fun q place => ?_
  rcases place with same | opened | ⟨same, -⟩
  · exact outside q (.inr ⟨url, read, named, temp, beside, .inl same⟩)
  · exact outside q (.inr ⟨url, read, named, temp, beside, .inr opened⟩)
  · exact outside q (.inl same)

theorem inline_placed {contentB64 expectedHash : Json} {p : Loc} (settled : t.Settled p) :
    Gives (fun _ => Placed x clock params p t) (placeInline x clock p contentB64 expectedHash) t := by
  refine gives_bind fun content _ => gives_change_bind fun t₁ made done => gives_change fun t' touched wrote => ?_
  refine ⟨t₁, made, done, fun r outside => ?_⟩
  refine Tree.write_logged x.limit clock.now p _ t₁ t' touched wrote r fun q mem => outside q (.inl ?_)
  have opened := write_touched wrote q mem
  rw [(settled.congr fun q _ => Tree.mkdirs_links done q).follow] at opened
  cases opened
  rfl

theorem leaves_placeContent {url contentB64 expectedHash : Json} {p : Loc}
    (resolved : pathParam x ctx t params "destination" = .ok p)
    (read : getItem params "download_url" .null = .ok url) :
    Leaves (Traced x ctx clock params .placeArtifact t) (placeContent x clock p url contentB64 expectedHash) t := by
  unfold placeContent
  split
  next named => exact leaves_download resolved read named
  next =>
    split
    next => exact leaves_raise traced_same _
    next =>
      refine leaves_look_bind traced_same fun content _ => leaves_change_bind traced_same fun t₁ made done => ?_
      exact leaves_writeBytes_settled traced_same (pathParam_ok resolved).settled done content

theorem content_placed {url contentB64 expectedHash : Json} {p : Loc} (settled : t.Settled p)
    (read : getItem params "download_url" .null = .ok url) :
    Gives (fun _ => Placed x clock params p t) (placeContent x clock p url contentB64 expectedHash) t := by
  unfold placeContent
  split
  next named => exact download_placed settled read named
  next =>
    split
    next => exact fun u given => (by cases given)
    next => exact inline_placed settled

theorem leaves_placeArtifact (params : Json) :
    Leaves (Traced x ctx clock params .placeArtifact t) (placeArtifact x ctx clock params) t := by
  refine leaves_look_bind traced_same fun destination resolved => leaves_look_bind traced_same fun contentB64 _ =>
    leaves_look_bind traced_same fun url read => leaves_look_bind traced_same fun expectedHash _ => ?_
  refine leaves_bind (leaves_placeContent resolved read) fun u t' log ran => ?_
  obtain ⟨metadata, read'⟩ := getItem_of_pathParam resolved "visible_metadata" .null
  refine leaves_read_bind read' (leaves_bind_pure ?_ _)
  unfold placeMetadata
  split
  next set' =>
    refine leaves_applyMetadataFields ?_ destination metadata
    have placed := content_placed (pathParam_ok resolved).settled read u (by rw [ran])
    rw [ran] at placed
    obtain ⟨t₁, made, done, rest⟩ := placed
    refine traced_place resolved done fun r outside => rest r fun q place => outside q ?_
    rcases place with same | downloaded
    · exact .inl ⟨same, metadata, read', set'⟩
    · exact .inr downloaded
  next => exact leaves_pure _ _ t'

/-! What a call that fails comes to. -/

theorem leaves_handler (kind : actionType ∉ [.softReset, .fullRebuild, .rollbackAction]) (params : Json) :
    Leaves (Traced x ctx clock params actionType t) (handler x ctx clock actionType params) t := by
  cases actionType with
  | placeArtifact => exact leaves_placeArtifact params
  | moveArtifact => exact leaves_moveArtifact params
  | createDecoyDirectory => exact leaves_createDecoyDirectory traced_same params
  | changeVisibleMetadata => exact leaves_changeVisibleMetadata traced_same params
  | displayMessage => exact leaves_displayMessage params
  | enableDecoyService => exact leaves_enableDecoyService traced_same params
  | disableDecoyService => exact leaves_disableDecoyService traced_same params
  | requestSnapshot => exact leaves_requestSnapshot traced_same
  | concludeSession => exact leaves_concludeSession params
  | testFilePlacement => exact leaves_testFilePlacement params
  | testMetadataUpdate => exact leaves_testMetadataUpdate traced_same params
  | softReset => exact absurd (by decide) kind
  | fullRebuild => exact absurd (by decide) kind
  | cleanShutdown => exact leaves_cleanShutdown params
  | rollbackAction => exact absurd (by decide) kind

theorem perform_failed {c : Controller τ} {call : Call τ} {outcome : ActionOutcome}
    (given : (perform x ctx c call actionType).outcome = some outcome) (failed : outcome.status = .failed) :
    ∃ failure, (handler x ctx call.clock actionType call.params c.files).result = .error failure := by
  unfold perform at given
  dsimp only at given
  split at given
  next failure raised => exact ⟨failure, raised⟩
  next =>
    cases given
    cases failed

end

/-- An action that fails, if it is no reset and no rollback, adds at most the
directories on its way; nothing else is changed but the destination of an
artifact whose metadata are refused, and the temporary file of a download. -/
theorem failed_traced (x : Externals τ) (ctx : Context) (c : Controller τ) (call : Call τ)
    (actionType : ActionType) (named : actionTypeOf call.actionType = some actionType)
    (kind : actionType ∉ [.softReset, .fullRebuild, .rollbackAction]) (outcome : ActionOutcome)
    (given : (executeAction x ctx c call).outcome = some outcome) (failed : outcome.status = .failed) :
    Traced x ctx call.clock call.params actionType c.files (executeAction x ctx c call).after.files := by
  have other : actionType ≠ .rollbackAction := by
    rintro rfl
    exact absurd (by decide) kind
  rw [executeAction_perform named other] at given ⊢
  obtain ⟨failure, raised⟩ := perform_failed given failed
  rw [perform_files]
  exact leaves_handler kind call.params failure raised

def decodingExternals : Externals ℕ :=
  { sampleExternals with b64decode := fun text => if text.isTrue then none else some .empty }

def undated : Call ℕ :=
  ⟨"PLACE_ARTIFACT",
    .obj [("destination", .str "/decoys/new.txt"), ("content_b64", .str ""),
      ("visible_metadata", .obj [("modified_time", .str "soon")])],
    "a1", sampleClock⟩

theorem undated_failed : ∃ outcome, (executeAction decodingExternals sampleContext
    ControllerRollback.sampleStart undated).outcome = some outcome ∧ outcome.status = .failed := by
  have failed : (executeAction decodingExternals sampleContext
      ControllerRollback.sampleStart undated).outcome.any (fun outcome => outcome.status = .failed) = true := by
    decide +kernel
  cases given : (executeAction decodingExternals sampleContext
      ControllerRollback.sampleStart undated).outcome with
  | none =>
    rw [given] at failed
    cases failed
  | some outcome =>
    rw [given, Option.any_some] at failed
    exact ⟨outcome, rfl, of_decide_eq_true failed⟩

theorem failed_traced_undated : Traced decodingExternals sampleContext undated.clock undated.params
    .placeArtifact ControllerRollback.sampleStart.files
    (executeAction decodingExternals sampleContext ControllerRollback.sampleStart undated).after.files := by
  obtain ⟨outcome, given, failed⟩ := undated_failed
  exact failed_traced decodingExternals sampleContext ControllerRollback.sampleStart undated .placeArtifact
    (by decide) (by decide) outcome given failed

/-- The artifact of an action that failed stays. -/
theorem undated_left : ∃ outcome, (executeAction decodingExternals sampleContext
      ControllerRollback.sampleStart undated).outcome = some outcome ∧ outcome.status = .failed ∧
    (executeAction decodingExternals sampleContext ControllerRollback.sampleStart undated).after.files ≠
      ControllerRollback.sampleStart.files := by
  obtain ⟨outcome, given, failed⟩ := undated_failed
  refine ⟨outcome, given, failed, fun same => ?_⟩
  have there : ((executeAction decodingExternals sampleContext
      ControllerRollback.sampleStart undated).after.files.node ["new.txt", "decoys"]).isSome = true := by
    decide +kernel
  rw [same] at there
  cases there

end Mirage.FailedActions
