import Mirage.AsciiJson
import Mirage.OrderedJson
import Mirage.SignedPackage

/-! `assemble_snapshot` of ai.py. A snapshot is built from the last events, directives,
actions and hostile texts, each cut to its bound, and loses items one by one until its
canonical text fits. -/

namespace Mirage.SnapshotTrimming
open PythonText Raw RowLocks SignedPackage AsciiJson

abbrev Dict := List (Text × Raw)

def invalid (message : String) : Raised := ⟨.valueError, text "ValueError", text message⟩

def lastOf {α : Type} (n : ℕ) (xs : List α) : List α := xs.drop (xs.length - n)

def utf8Length (p : CodePoint) : ℕ :=
  if p.val < 0x80 then 1 else if p.val < 0x800 then 2 else if p.val < 0x10000 then 3 else 4

/-- The characters that are whole within the first `n` bytes. -/
def takeBytes : ℕ → Text → Text
  | _, [] => []
  | n, p :: t => if utf8Length p ≤ n then p :: takeBytes (n - utf8Length p) t else []

def truncateUtf8 (value : Text) (maxBytes : ℕ) : Except Raised Text := do
  require (scalar value) .unicodeEncodeError
  return takeBytes maxBytes value

def greatestKey (members : Dict) : Option Text :=
  ((members.map Prod.fst).insertionSort fun a b => a ≤ b).getLast?

/-- The loop of `_bounded_json_object`; a dictionary of `n` keys is empty after `n` of its steps. -/
def shrink (maxBytes : ℕ) : ℕ → Dict → Except Raised Dict
  | 0, members => .ok members
  | n + 1, members => do
    let bytes ← canonical (.obj members)
    if bytes.size > maxBytes ∧ members ≠ [] then
      shrink maxBytes n (members.filter fun m => some m.1 ≠ greatestKey members)
    else return members

structure Platform extends JsonLoads.Interpreter where
  printable : CodePoint → Bool
  /-- `max(0.0, min(float(value), 1.0))`. -/
  clamp : Raw → Except Raised Raw
  sha256 : ByteArray → String

def boundedJsonObject (lib : Platform) (value : Dict) (maxBytes : ℕ) : Except Raised Raw := do
  match ← JsonLoads.loadsText lib.toInterpreter (OrderedJson.dumpsSpaced asciiQuote (.obj value)) with
  | .obj members =>
    let bounded ← shrink maxBytes members.length members
    let bytes ← canonical (.obj bounded)
    require (bytes.size ≤ maxBytes) (invalid "curated object cannot fit configured bound")
    return .obj bounded
  | _ => .error .attributeError

structure Event where
  eventId : Raw
  eventTime : Raw
  summary : Text

structure Directive where
  directiveId : Raw
  objective : Text
  status : Raw
  createdAt : Raw

structure Snapshot where
  caseState : Text
  objective : Text
  recentEvents : List Event
  behaviourSummary : Text
  skillProfile : Raw
  sandboxState : Raw
  availableArtifacts : List Dict
  allowedActions : List Text
  analystDirectives : List Directive
  previousActions : List Dict
  untrustedIntruderContent : List Text

def Event.toRaw (event : Event) : Raw :=
  .obj [(text "event_id", event.eventId), (text "event_time", event.eventTime), (text "summary", .str event.summary)]

def Directive.toRaw (item : Directive) : Raw :=
  .obj [(text "directive_id", item.directiveId), (text "objective", .str item.objective),
    (text "status", item.status), (text "created_at", item.createdAt)]

def hostile (content : Text) : Raw :=
  .obj [(text "tag", .str (text "UNTRUSTED_INTRUDER_OUTPUT")), (text "content", .str content)]

def Snapshot.toRaw (s : Snapshot) : Raw :=
  .obj [(text "case_state", .str s.caseState), (text "objective", .str s.objective),
    (text "recent_events", .arr (s.recentEvents.map Event.toRaw)),
    (text "behaviour_summary", .str s.behaviourSummary), (text "skill_profile", s.skillProfile),
    (text "sandbox_state", s.sandboxState), (text "available_artifacts", .arr (s.availableArtifacts.map .obj)),
    (text "allowed_actions", .arr (s.allowedActions.map .str)),
    (text "analyst_directives", .arr (s.analystDirectives.map Directive.toRaw)),
    (text "previous_actions", .arr (s.previousActions.map .obj)),
    (text "untrusted_intruder_content", .arr (s.untrustedIntruderContent.map hostile))]

structure Input where
  caseState : Text
  objective : Text
  recentEvents : List Dict
  behaviourSummary : Text
  skillProfile : Dict
  sandboxState : Dict
  availableArtifacts : List Dict
  allowedActions : List Text
  analystDirectives : List Dict
  previousActions : List Dict
  untrustedIntruderContent : List Text
  sourceProfileVersion : ℤ

def caseStates : List String :=
  ["CREATED", "ARMED", "MONITORING", "STEERING_PENDING", "SANDBOX_ACTIVE", "ENGAGING", "CONCLUDING",
    "EVIDENCE_VERIFYING", "EXPORTED", "DESTROYED"]

def actionTypes : List String :=
  ["PLACE_ARTIFACT", "MOVE_ARTIFACT", "CREATE_DECOY_DIRECTORY", "CHANGE_VISIBLE_METADATA", "DISPLAY_MESSAGE",
    "ENABLE_DECOY_SERVICE", "DISABLE_DECOY_SERVICE", "REQUEST_SNAPSHOT", "ROLLBACK_ACTION", "CONCLUDE_SESSION"]

def getOr (value : Dict) (name : String) (default_ : Raw) : Raw := (member (text name) value).getD default_

def item (value : Dict) (name : String) : Except Raised Raw := present (member (text name) value) .keyError

def profileList (profile : Dict) (name : String) : Except Raised (List Raw) := do
  let items ← iterated (getOr profile name (.arr []))
  return items.take 8

structure Profile where
  band : Raw
  confidence : Raw
  supportingEventIds : List Raw
  contradictoryEventIds : List Raw
  uncertainties : List Raw
  profileVersion : ℤ

def Profile.toRaw (p : Profile) : Raw :=
  .obj [(text "band", p.band), (text "confidence", p.confidence),
    (text "supporting_event_ids", .arr p.supportingEventIds),
    (text "contradictory_event_ids", .arr p.contradictoryEventIds), (text "uncertainties", .arr p.uncertainties),
    (text "profile_version", .int p.profileVersion)]

section
variable (lib : Platform)

def readProfile (i : Input) : Except Raised Profile := do
  let confidence ← lib.clamp (getOr i.skillProfile "confidence" (.float "0.0" (some 0)))
  let supporting ← profileList i.skillProfile "supporting_event_ids"
  let contradictory ← profileList i.skillProfile "contradictory_event_ids"
  let uncertainties ← profileList i.skillProfile "uncertainties"
  return ⟨getOr i.skillProfile "band" (.str (text "UNKNOWN")), confidence, supporting, contradictory, uncertainties,
    i.sourceProfileVersion⟩

def readEvent (event : Dict) : Except Raised Event := do
  let eventId ← item event "event_id"
  let eventTime ← item event "event_time"
  let summary ← truncateUtf8 (strOf lib.printable (getOr event "summary" (.str []))) 256
  return ⟨eventId, eventTime, summary⟩

def readDirective (directive : Dict) : Except Raised Directive := do
  let directiveId ← item directive "directive_id"
  let objective ← truncateUtf8 (strOf lib.printable (getOr directive "objective" (.str []))) 512
  return ⟨directiveId, objective, getOr directive "status" (.str (text "SUBMITTED")), getOr directive "created_at" .null⟩

def sortedActions (actions : List Text) : List Text := actions.dedup.insertionSort fun a b => a ≤ b

/-- What `assemble_snapshot` does before it trims: the profile and the whole snapshot. -/
def build (i : Input) : Except Raised (Profile × Snapshot) := do
  require (i.caseState ∈ caseStates.map text) (invalid "invalid case state")
  require (!i.allowedActions.isEmpty && i.allowedActions.all fun action => action ∈ actionTypes.map text)
    (invalid "allowed_actions must be a non-empty policy-permitted enum list")
  let profile ← readProfile lib i
  let events ← (lastOf 50 i.recentEvents).mapM (readEvent lib)
  let directives ← (lastOf 5 i.analystDirectives).mapM (readDirective lib)
  let contents ← (lastOf 10 i.untrustedIntruderContent).mapM fun content => truncateUtf8 content 1024
  let objective ← truncateUtf8 i.objective 512
  let behaviourSummary ← truncateUtf8 i.behaviourSummary 2048
  let sandboxState ← boundedJsonObject lib i.sandboxState 4096
  return (profile, {
    caseState := i.caseState, objective, recentEvents := events, behaviourSummary, skillProfile := profile.toRaw,
    sandboxState, availableArtifacts := i.availableArtifacts.take 20, allowedActions := sortedActions i.allowedActions,
    analystDirectives := directives, previousActions := lastOf 10 i.previousActions,
    untrustedIntruderContent := contents })

end

section
variable {σ φ ε : Type} [DecidableEq φ]

def record (fields : List φ) (field : φ) : List φ := if field ∈ fields then fields else fields ++ [field]

def loopWhile (exceeds : σ → Except ε Bool) (pop : σ → Except ε (σ × φ)) (items : σ → ℕ)
    (fewer : ∀ {s t field}, pop s = .ok (t, field) → items t + 1 = items s) (s : σ) (fields : List φ) :
    Except ε (σ × List φ) :=
  match exceeds s with
  | .error e => .error e
  | .ok false => .ok (s, fields)
  | .ok true =>
    match _ : pop s with
    | .error e => .error e
    | .ok (t, field) => loopWhile exceeds pop items fewer t (record fields field)
  termination_by items s
  decreasing_by
    have one := fewer ‹_›
    omega

theorem mem_record {fields : List φ} {field other : φ} : other ∈ record fields field ↔ other ∈ fields ∨ field = other := by
  rw [record]
  split
  · rename_i known
    exact ⟨.inl, fun either => either.elim id fun same => same ▸ known⟩
  · rw [List.mem_append, List.mem_singleton, eq_comm]

section
variable {exceeds : σ → Except ε Bool} {pop : σ → Except ε (σ × φ)} {items : σ → ℕ}
  {fewer : ∀ {s t field}, pop s = .ok (t, field) → items t + 1 = items s}

theorem loopWhile_fits {s : σ} (fits : exceeds s = .ok false) (fields : List φ) :
    loopWhile exceeds pop items fewer s fields = .ok (s, fields) := by
  rw [loopWhile, fits]

theorem loopWhile_raised {s : σ} {e : ε} (raised : exceeds s = .error e) (fields : List φ) :
    loopWhile exceeds pop items fewer s fields = .error e := by
  rw [loopWhile, raised]

theorem loopWhile_stuck {s : σ} {e : ε} (beyond : exceeds s = .ok true) (raised : pop s = .error e) (fields : List φ) :
    loopWhile exceeds pop items fewer s fields = .error e := by
  rw [loopWhile, beyond]
  dsimp only
  split
  · rename_i other
    rw [other] at raised
    rw [Except.error.inj raised]
  · rename_i other
    rw [other] at raised
    cases raised

theorem loopWhile_pop {s t : σ} {field : φ} (beyond : exceeds s = .ok true) (popped : pop s = .ok (t, field))
    (fields : List φ) : loopWhile exceeds pop items fewer s fields =
      loopWhile exceeds pop items fewer t (record fields field) := by
  rw [loopWhile, beyond]
  dsimp only
  split
  · rename_i other
    rw [other] at popped
    cases popped
  · rename_i other
    rw [other] at popped
    cases popped
    rfl

theorem loopWhile_sequence {states : ℕ → σ} {classOf : ℕ → φ} {last : ℕ}
    (pops : ∀ k < last, ∀ r, pop (states k) = .ok r → r = (states (k + 1), classOf k))
    (ends : ∀ r, pop (states last) ≠ .ok r) (k : ℕ) (fields : List φ) (reached : k ≤ last) :
    match loopWhile exceeds pop items fewer (states k) fields with
    | .ok (t, found) => ∃ n, k ≤ n ∧ n ≤ last ∧ t = states n ∧ exceeds (states n) = .ok false ∧
        (∀ j, k ≤ j → j < n → exceeds (states j) = .ok true) ∧
        ∀ field, field ∈ found ↔ field ∈ fields ∨ ∃ j, k ≤ j ∧ j < n ∧ classOf j = field
    | .error e => ∃ n, k ≤ n ∧ n ≤ last ∧ (∀ j, k ≤ j → j < n → exceeds (states j) = .ok true) ∧
        (exceeds (states n) = .error e ∨ exceeds (states n) = .ok true ∧ pop (states n) = .error e) := by
  cases limit : exceeds (states k) with
  | error e =>
    rw [loopWhile_raised limit]
    exact ⟨k, le_rfl, reached, fun j lower upper => absurd upper (by omega), .inl limit⟩
  | ok beyond =>
    cases beyond with
    | false =>
      rw [loopWhile_fits limit]
      refine ⟨k, le_rfl, reached, rfl, limit, fun j lower upper => absurd upper (by omega), fun field => ?_⟩
      exact ⟨.inl, fun either => either.elim id fun ⟨j, lower, upper, _⟩ => absurd upper (by omega)⟩
    | true =>
      cases popped : pop (states k) with
      | error e =>
        rw [loopWhile_stuck limit popped]
        exact ⟨k, le_rfl, reached, fun j lower upper => absurd upper (by omega), .inr ⟨limit, popped⟩⟩
      | ok r =>
        have below : k < last := lt_of_le_of_ne reached fun same => ends r (same ▸ popped)
        obtain rfl := pops k below r popped
        rw [loopWhile_pop limit popped]
        have more := loopWhile_sequence pops ends (k + 1) (record fields (classOf k)) below
        have earlier {n : ℕ} (later : ∀ j, k + 1 ≤ j → j < n → exceeds (states j) = .ok true) :
            ∀ j, k ≤ j → j < n → exceeds (states j) = .ok true := by
          intro j lower upper
          rcases Nat.eq_or_lt_of_le lower with rfl | above
          · exact limit
          · exact later j above upper
        split at more
        · obtain ⟨n, lower, upper, form, fits, beyond, found⟩ := more
          refine ⟨n, by omega, upper, form, fits, earlier beyond, fun field => ?_⟩
          rw [found, mem_record, or_assoc]
          refine or_congr_right ⟨?_, ?_⟩
          · rintro (rfl | ⟨j, after, before, rfl⟩)
            · exact ⟨k, le_rfl, by omega, rfl⟩
            · exact ⟨j, by omega, before, rfl⟩
          · rintro ⟨j, after, before, rfl⟩
            rcases Nat.eq_or_lt_of_le after with rfl | above
            · exact .inl rfl
            · exact .inr ⟨j, above, before, rfl⟩
        · obtain ⟨n, lower, upper, beyond, stopped⟩ := more
          exact ⟨n, by omega, upper, earlier beyond, stopped⟩
  termination_by last - k

end

end

inductive Field where
  | untrustedIntruderContent
  | availableArtifacts
  | previousActions
  | analystDirectives
  | recentEvents
  deriving DecidableEq

def maxSnapshotBytes : ℕ := 16 * 1024

def maxEstimatedTokens : ℕ := 4000

/-- `estimate_tokens` of a canonical text of so many bytes. -/
def estimateTokens (size : ℕ) : ℕ := (size + 3) / 4

def overLimit (s : Snapshot) : Except Raised Bool := do
  let bytes ← canonical s.toRaw
  return bytes.size > maxSnapshotBytes || estimateTokens bytes.size > maxEstimatedTokens

def hashable : Raw → Bool
  | .arr _ | .obj _ => false
  | _ => true

def Directive.active (d : Directive) : Bool :=
  match d.status with
  | .str t => t ∈ ["SUBMITTED", "ACKNOWLEDGED", "QUEUED"].map text
  | _ => false

def inactiveIndex : List Directive → Except Raised (Option ℕ)
  | [] => .ok none
  | d :: ds => do
    require (hashable d.status) .typeError
    if d.active then
      let index ← inactiveIndex ds
      return index.map (· + 1)
    else return some 0

def exhausted : Raised := invalid "protected snapshot fields alone exceed the whole-snapshot bound"

def pop (s : Snapshot) : Except Raised (Snapshot × Field) :=
  match s.untrustedIntruderContent with
  | _ :: rest => .ok ({ s with untrustedIntruderContent := rest }, .untrustedIntruderContent)
  | [] =>
    if s.availableArtifacts ≠ [] then
      .ok ({ s with availableArtifacts := s.availableArtifacts.dropLast }, .availableArtifacts)
    else
      match s.previousActions with
      | _ :: rest => .ok ({ s with previousActions := rest }, .previousActions)
      | [] => do
        match ← inactiveIndex s.analystDirectives with
        | some index =>
          return ({ s with analystDirectives := s.analystDirectives.eraseIdx index }, .analystDirectives)
        | none =>
          match s.recentEvents with
          | _ :: rest => return ({ s with recentEvents := rest }, .recentEvents)
          | [] => .error exhausted

def Snapshot.items (s : Snapshot) : ℕ :=
  s.untrustedIntruderContent.length + s.availableArtifacts.length + s.previousActions.length +
    s.analystDirectives.length + s.recentEvents.length

theorem inactiveIndex_lt {ds : List Directive} {index : ℕ} (found : inactiveIndex ds = .ok (some index)) :
    index < ds.length := by
  induction ds generalizing index with
  | nil => cases found
  | cons d ds ih =>
    simp only [inactiveIndex, bind_eq_ok] at found
    obtain ⟨-, -, found⟩ := found
    split at found
    · obtain ⟨next, later, form⟩ := bind_eq_ok.mp found
      obtain ⟨i, rfl, rfl⟩ := Option.map_eq_some_iff.mp (Except.ok.inj form)
      exact Nat.succ_lt_succ (ih later)
    · cases found
      exact Nat.succ_pos _

theorem items_pop {s t : Snapshot} {field : Field} (popped : pop s = .ok (t, field)) : t.items + 1 = s.items := by
  unfold pop at popped
  split at popped
  · rename_i form
    cases popped
    simp only [Snapshot.items, form, List.length_cons]
    omega
  · split at popped
    · rename_i form some
      cases popped
      have positive := List.length_pos_iff.mpr some
      simp only [Snapshot.items, List.length_dropLast]
      omega
    · split at popped
      · rename_i form
        cases popped
        simp only [Snapshot.items, form, List.length_cons]
        omega
      · obtain ⟨found, searched, popped⟩ := bind_eq_ok.mp popped
        split at popped
        · cases popped
          have below := inactiveIndex_lt searched
          simp only [Snapshot.items, List.length_eraseIdx, if_pos below]
          omega
        · split at popped
          · rename_i form
            cases popped
            simp only [Snapshot.items, form, List.length_cons]
            omega
          · cases popped

def trim : Snapshot → List Field → Except Raised (Snapshot × List Field) :=
  loopWhile overLimit pop Snapshot.items items_pop

def distinct (values : List Raw) : List Raw :=
  values.foldl (fun seen value => if seen.any fun other => equals other value then seen else seen ++ [value]) []

def sortedSet (values : List Raw) : Except Raised (List Raw) := do
  require (values.all hashable) .typeError
  sortedBy less ((distinct values).map fun value => (value, value))

structure SnapshotResult where
  snapshot : Snapshot
  snapshotHash : String
  snapshotSizeBytes : ℕ
  estimatedTokens : ℕ
  trimmed : Bool
  trimmedFields : List Field
  sourceEventIds : List Raw
  sourceProfileVersion : ℤ

def sourceIds (profile : Profile) (s : Snapshot) : List Raw :=
  s.recentEvents.map Event.eventId ++ profile.supportingEventIds ++ profile.contradictoryEventIds

def assembleSnapshot (lib : Platform) (i : Input) : Except Raised SnapshotResult := do
  let (profile, whole) ← build lib i
  let (snapshot, trimmedFields) ← trim whole []
  let bytes ← canonical snapshot.toRaw
  let ids ← sortedSet (sourceIds profile snapshot)
  return ⟨snapshot, lib.sha256 bytes, bytes.size, estimateTokens bytes.size, !trimmedFields.isEmpty, trimmedFields,
    ids, i.sourceProfileVersion⟩

/-! What is left after so many removals. -/

/-- The directives without the first `n` that are not active. -/
def dropInactive : ℕ → List Directive → List Directive
  | 0, ds => ds
  | _ + 1, [] => []
  | n + 1, d :: ds => if d.active then d :: dropInactive (n + 1) ds else dropInactive n ds

def inactive (ds : List Directive) : ℕ := ds.countP fun d => !d.active

def Snapshot.plain (s : Snapshot) : ℕ :=
  s.untrustedIntruderContent.length + s.availableArtifacts.length + s.previousActions.length

def Snapshot.removable (s : Snapshot) : ℕ := s.plain + inactive s.analystDirectives + s.recentEvents.length

def without (k : ℕ) (s : Snapshot) : Snapshot :=
  { s with
    untrustedIntruderContent := s.untrustedIntruderContent.drop k
    availableArtifacts :=
      s.availableArtifacts.take (s.availableArtifacts.length - (k - s.untrustedIntruderContent.length))
    previousActions := s.previousActions.drop (k - s.untrustedIntruderContent.length - s.availableArtifacts.length)
    analystDirectives := dropInactive (k - s.plain) s.analystDirectives
    recentEvents := s.recentEvents.drop (k - s.plain - inactive s.analystDirectives) }

def classAt (s : Snapshot) (k : ℕ) : Field :=
  if k < s.untrustedIntruderContent.length then .untrustedIntruderContent
  else if k < s.untrustedIntruderContent.length + s.availableArtifacts.length then .availableArtifacts
  else if k < s.plain then .previousActions
  else if k < s.plain + inactive s.analystDirectives then .analystDirectives
  else .recentEvents

theorem classAt_eq_iff {s : Snapshot} {k : ℕ} {field : Field} : classAt s k = field ↔ match field with
    | .untrustedIntruderContent => k < s.untrustedIntruderContent.length
    | .availableArtifacts => s.untrustedIntruderContent.length ≤ k ∧
        k < s.untrustedIntruderContent.length + s.availableArtifacts.length
    | .previousActions => s.untrustedIntruderContent.length + s.availableArtifacts.length ≤ k ∧ k < s.plain
    | .analystDirectives => s.plain ≤ k ∧ k < s.plain + inactive s.analystDirectives
    | .recentEvents => s.plain + inactive s.analystDirectives ≤ k := by
  have plain : s.plain = s.untrustedIntruderContent.length + s.availableArtifacts.length +
    s.previousActions.length := rfl
  unfold classAt
  split_ifs <;> cases field <;> simp <;> omega

theorem without_zero (s : Snapshot) : without 0 s = s := by
  simp only [without, Nat.zero_sub, Nat.sub_zero, List.drop_zero, List.take_length, dropInactive]

theorem dropInactive_nil (n : ℕ) : dropInactive n [] = [] := by cases n <;> rfl

theorem dropInactive_succ (n : ℕ) (ds : List Directive) :
    dropInactive (n + 1) ds = dropInactive 1 (dropInactive n ds) := by
  induction ds generalizing n with
  | nil => rw [dropInactive_nil, dropInactive_nil, dropInactive_nil]
  | cons d ds ih =>
    cases n with
    | zero => rfl
    | succ n =>
      rw [dropInactive, dropInactive]
      split
      · rw [dropInactive, if_pos ‹_›, ih (n + 1)]
      · exact ih n

theorem filter_dropInactive (n : ℕ) (ds : List Directive) :
    (dropInactive n ds).filter Directive.active = ds.filter Directive.active := by
  induction ds generalizing n with
  | nil => rw [dropInactive_nil]
  | cons d ds ih =>
    cases n with
    | zero => rfl
    | succ n =>
      rw [dropInactive]
      by_cases active : d.active = true
      · rw [if_pos active, List.filter_cons_of_pos active, List.filter_cons_of_pos active, ih]
      · rw [if_neg active, List.filter_cons_of_neg active, ih]

theorem inactive_dropInactive (n : ℕ) (ds : List Directive) : inactive (dropInactive n ds) = inactive ds - n := by
  induction ds generalizing n with
  | nil =>
    rw [dropInactive_nil]
    simp [inactive]
  | cons d ds ih =>
    cases n with
    | zero => rfl
    | succ n =>
      rw [dropInactive]
      by_cases active : d.active = true
      · have kept (rest : List Directive) : inactive (d :: rest) = inactive rest :=
          List.countP_cons_of_neg (by simp [active])
        rw [if_pos active, kept, kept, ih]
      · have lost : inactive (d :: ds) = inactive ds + 1 := List.countP_cons_of_pos (by simp [active])
        rw [if_neg active, ih, lost]
        omega

theorem dropInactive_sublist (n : ℕ) (ds : List Directive) : (dropInactive n ds).Sublist ds := by
  induction ds generalizing n with
  | nil => rw [dropInactive_nil]
  | cons d ds ih =>
    cases n with
    | zero => exact List.Sublist.refl _
    | succ n =>
      rw [dropInactive]
      split
      · exact (ih (n + 1)).cons_cons d
      · exact (ih n).cons d

theorem active_of_inactive {ds : List Directive} (none : inactive ds = 0) : ∀ d ∈ ds, d.active = true := by
  intro d mem
  simpa using List.countP_eq_zero.mp none d mem

theorem dropInactive_all {n : ℕ} {ds : List Directive} (all : inactive ds ≤ n) :
    dropInactive n ds = ds.filter Directive.active := by
  have none : inactive (dropInactive n ds) = 0 := by
    rw [inactive_dropInactive]
    omega
  rw [← filter_dropInactive n, List.filter_eq_self.mpr (active_of_inactive none)]

theorem hashable_of_active {d : Directive} (active : d.active = true) : hashable d.status = true := by
  rw [Directive.active] at active
  split at active
  · rename_i form
    rw [form]
    rfl
  · cases active

theorem inactiveIndex_cases (ds : List Directive) :
    (inactive ds = 0 ∧ inactiveIndex ds = .ok none) ∨
    (0 < inactive ds ∧ ((∃ index, inactiveIndex ds = .ok (some index) ∧ ds.eraseIdx index = dropInactive 1 ds) ∨
      (inactiveIndex ds = .error .typeError ∧ ∃ d ∈ ds, hashable d.status = false))) := by
  induction ds with
  | nil => exact .inl ⟨rfl, rfl⟩
  | cons d ds ih =>
    by_cases active : d.active = true
    · have kept : inactive (d :: ds) = inactive ds := List.countP_cons_of_neg (by simp [active])
      have search : inactiveIndex (d :: ds) = (inactiveIndex ds).map fun index => index.map (· + 1) := by
        rw [inactiveIndex, hashable_of_active active, active]
        cases inactiveIndex ds <;> rfl
      rw [kept, search, dropInactive, if_pos active]
      rcases ih with ⟨none, found⟩ | ⟨some, ⟨index, found, erased⟩ | ⟨raised, e, mem, other⟩⟩
      · rw [found]
        exact .inl ⟨none, rfl⟩
      · rw [found]
        exact .inr ⟨some, .inl ⟨index + 1, rfl, congrArg (d :: ·) erased⟩⟩
      · rw [raised]
        exact .inr ⟨some, .inr ⟨rfl, e, List.mem_cons_of_mem d mem, other⟩⟩
    · have lost : inactive (d :: ds) = inactive ds + 1 := List.countP_cons_of_pos (by simp [active])
      refine .inr ⟨by omega, ?_⟩
      cases set : hashable d.status with
      | false =>
        refine .inr ⟨?_, d, List.mem_cons_self, set⟩
        rw [inactiveIndex, set]
        rfl
      | true =>
        refine .inl ⟨0, ?_, ?_⟩
        · rw [inactiveIndex, set, require_true]
          exact if_neg active
        · rw [dropInactive, if_neg active, dropInactive, List.eraseIdx_cons_zero]

/-! One removal leads from one of them to the next. -/

def removeFrom (s : Snapshot) : Field → Snapshot
  | .untrustedIntruderContent => { s with untrustedIntruderContent := s.untrustedIntruderContent.drop 1 }
  | .availableArtifacts => { s with availableArtifacts := s.availableArtifacts.dropLast }
  | .previousActions => { s with previousActions := s.previousActions.drop 1 }
  | .analystDirectives => { s with analystDirectives := dropInactive 1 s.analystDirectives }
  | .recentEvents => { s with recentEvents := s.recentEvents.drop 1 }

section
variable {s : Snapshot}

theorem pop_untrusted (some : s.untrustedIntruderContent ≠ []) :
    pop s = .ok (removeFrom s .untrustedIntruderContent, .untrustedIntruderContent) := by
  obtain ⟨x, rest, first⟩ := List.exists_cons_of_ne_nil some
  rw [pop, removeFrom, first]
  rfl

theorem pop_artifact (untrusted : s.untrustedIntruderContent = []) (some : s.availableArtifacts ≠ []) :
    pop s = .ok (removeFrom s .availableArtifacts, .availableArtifacts) := by
  rw [pop, removeFrom, untrusted]
  exact if_pos some

theorem pop_action (untrusted : s.untrustedIntruderContent = []) (artifacts : s.availableArtifacts = [])
    (some : s.previousActions ≠ []) : pop s = .ok (removeFrom s .previousActions, .previousActions) := by
  obtain ⟨x, rest, first⟩ := List.exists_cons_of_ne_nil some
  rw [pop, removeFrom, untrusted]
  simp only [artifacts, ne_eq, not_true_eq_false, if_false, first, List.drop_one, List.tail_cons]

theorem pop_later (untrusted : s.untrustedIntruderContent = []) (artifacts : s.availableArtifacts = [])
    (actions : s.previousActions = []) : pop s = (do
      match ← inactiveIndex s.analystDirectives with
      | some index =>
        return ({ s with analystDirectives := s.analystDirectives.eraseIdx index }, .analystDirectives)
      | none =>
        match s.recentEvents with
        | _ :: rest => return ({ s with recentEvents := rest }, .recentEvents)
        | [] => .error exhausted) := by
  rw [pop, untrusted]
  simp only [artifacts, ne_eq, not_true_eq_false, if_false, actions]

theorem untrusted_gone {k : ℕ} (past : s.untrustedIntruderContent.length ≤ k) :
    (without k s).untrustedIntruderContent = [] := List.drop_eq_nil_of_le past

theorem artifacts_gone {k : ℕ} (past : s.untrustedIntruderContent.length + s.availableArtifacts.length ≤ k) :
    (without k s).availableArtifacts = [] := by
  have none : s.availableArtifacts.length - (k - s.untrustedIntruderContent.length) = 0 := by omega
  rw [without, none, List.take_zero]

theorem actions_gone {k : ℕ} (past : s.plain ≤ k) : (without k s).previousActions = [] :=
  List.drop_eq_nil_of_le (by unfold Snapshot.plain at past; omega)

theorem without_succ (k : ℕ) : without (k + 1) s = removeFrom (without k s) (classAt s k) := by
  have plain : s.plain = s.untrustedIntruderContent.length + s.availableArtifacts.length +
    s.previousActions.length := rfl
  have untrusted (past : s.untrustedIntruderContent.length ≤ k) :
      s.untrustedIntruderContent.drop (k + 1) = s.untrustedIntruderContent.drop k := by
    rw [List.drop_eq_nil_of_le past, List.drop_eq_nil_of_le (by omega)]
  have artifacts (past : s.untrustedIntruderContent.length + s.availableArtifacts.length ≤ k) :
      s.availableArtifacts.length - (k + 1 - s.untrustedIntruderContent.length) =
        s.availableArtifacts.length - (k - s.untrustedIntruderContent.length) := by omega
  have actions (past : s.plain ≤ k) :
      s.previousActions.drop (k + 1 - s.untrustedIntruderContent.length - s.availableArtifacts.length) =
        s.previousActions.drop (k - s.untrustedIntruderContent.length - s.availableArtifacts.length) := by
    rw [List.drop_eq_nil_of_le (by omega), List.drop_eq_nil_of_le (by omega)]
  cases found : classAt s k with
  | untrustedIntruderContent =>
    have before := classAt_eq_iff.mp found
    have now : k - s.untrustedIntruderContent.length = 0 := by omega
    have next : k + 1 - s.untrustedIntruderContent.length = 0 := by omega
    have plainNow : k - s.plain = 0 := by omega
    have plainNext : k + 1 - s.plain = 0 := by omega
    simp only [removeFrom, without, now, next, plainNow, plainNext, List.drop_drop]
  | availableArtifacts =>
    obtain ⟨past, before⟩ := classAt_eq_iff.mp found
    have shorter : s.availableArtifacts.take
        (s.availableArtifacts.length - (k + 1 - s.untrustedIntruderContent.length)) =
          (s.availableArtifacts.take
            (s.availableArtifacts.length - (k - s.untrustedIntruderContent.length))).dropLast := by
      rw [List.dropLast_eq_take, List.length_take, List.take_take]
      congr 1
      omega
    have now : k - s.untrustedIntruderContent.length - s.availableArtifacts.length = 0 := by omega
    have next : k + 1 - s.untrustedIntruderContent.length - s.availableArtifacts.length = 0 := by omega
    have plainNow : k - s.plain = 0 := by omega
    have plainNext : k + 1 - s.plain = 0 := by omega
    simp only [removeFrom, without, untrusted past, shorter, now, next, plainNow, plainNext]
  | previousActions =>
    obtain ⟨past, before⟩ := classAt_eq_iff.mp found
    have step : k + 1 - s.untrustedIntruderContent.length - s.availableArtifacts.length =
        k - s.untrustedIntruderContent.length - s.availableArtifacts.length + 1 := by omega
    have plainNow : k - s.plain = 0 := by omega
    have plainNext : k + 1 - s.plain = 0 := by omega
    simp only [removeFrom, without, untrusted (by omega), artifacts past, step, plainNow, plainNext, List.drop_drop]
  | analystDirectives =>
    obtain ⟨past, before⟩ := classAt_eq_iff.mp found
    have step : k + 1 - s.plain = k - s.plain + 1 := by omega
    have now : k - s.plain - inactive s.analystDirectives = 0 := by omega
    have next : k - s.plain + 1 - inactive s.analystDirectives = 0 := by omega
    have directives := dropInactive_succ (k - s.plain) s.analystDirectives
    simp only [removeFrom, without, untrusted (by omega), artifacts (by omega), actions past, step, directives, now,
      next]
  | recentEvents =>
    have past := classAt_eq_iff.mp found
    have step : k + 1 - s.plain = k - s.plain + 1 := by omega
    have events : k - s.plain + 1 - inactive s.analystDirectives =
        k - s.plain - inactive s.analystDirectives + 1 := by omega
    have directives : dropInactive (k - s.plain + 1) s.analystDirectives =
        dropInactive (k - s.plain) s.analystDirectives := by
      rw [dropInactive_all (by omega), dropInactive_all (by omega)]
    simp only [removeFrom, without, untrusted (by omega), artifacts (by omega), actions (by omega), step, directives,
      events, List.drop_drop]

theorem pop_without {k : ℕ} (below : k < s.removable) :
    pop (without k s) = .ok (without (k + 1) s, classAt s k) ∨
      pop (without k s) = .error .typeError ∧ s.plain ≤ k ∧ ∃ d ∈ s.analystDirectives, hashable d.status = false := by
  have plain : s.plain = s.untrustedIntruderContent.length + s.availableArtifacts.length +
    s.previousActions.length := rfl
  unfold Snapshot.removable at below
  rw [without_succ]
  by_cases past : s.plain ≤ k
  · have later := pop_later (untrusted_gone (s := s) (k := k) (by omega)) (artifacts_gone (by omega)) (actions_gone past)
    have remaining : inactive (without k s).analystDirectives = inactive s.analystDirectives - (k - s.plain) :=
      inactive_dropInactive _ _
    rw [later]
    rcases inactiveIndex_cases (without k s).analystDirectives with
      ⟨none, found⟩ | ⟨some, ⟨index, found, erased⟩ | ⟨raised, d, mem, other⟩⟩
    · left
      have inEvents : k - s.plain - inactive s.analystDirectives < s.recentEvents.length := by omega
      have first : (without k s).recentEvents = s.recentEvents[k - s.plain - inactive s.analystDirectives] ::
          s.recentEvents.drop (k - s.plain - inactive s.analystDirectives + 1) := List.drop_eq_getElem_cons inEvents
      have events : classAt s k = .recentEvents := classAt_eq_iff.mpr (by dsimp only; omega)
      rw [found, events, removeFrom]
      simp only [bind, Except.bind, pure, Except.pure, first, List.drop_one, List.tail_cons]
    · left
      have directives : classAt s k = .analystDirectives := classAt_eq_iff.mpr ⟨past, by omega⟩
      rw [found, directives, removeFrom, ← erased]
      rfl
    · right
      rw [raised]
      exact ⟨rfl, past, d, (dropInactive_sublist _ _).mem mem, other⟩
  · left
    cases found : classAt s k with
    | untrustedIntruderContent =>
      have before := classAt_eq_iff.mp found
      exact pop_untrusted (List.drop_eq_nil_iff.not.mpr (by omega))
    | availableArtifacts =>
      obtain ⟨gone, before⟩ := classAt_eq_iff.mp found
      have some : (without k s).availableArtifacts ≠ [] := by
        refine List.ne_nil_of_length_pos ?_
        rw [without, List.length_take]
        omega
      exact pop_artifact (untrusted_gone gone) some
    | previousActions =>
      obtain ⟨gone, before⟩ := classAt_eq_iff.mp found
      exact pop_action (untrusted_gone (by omega)) (artifacts_gone gone) (List.drop_eq_nil_iff.not.mpr (by omega))
    | analystDirectives => exact absurd (classAt_eq_iff.mp found).1 past
    | recentEvents => exact absurd (Nat.le_of_add_right_le (classAt_eq_iff.mp found)) past

theorem without_removable : without s.removable s =
    { s with
      untrustedIntruderContent := [], availableArtifacts := [], previousActions := []
      analystDirectives := s.analystDirectives.filter Directive.active, recentEvents := [] } := by
  have untrusted : s.untrustedIntruderContent.drop s.removable = [] :=
    List.drop_eq_nil_of_le (by unfold Snapshot.removable Snapshot.plain; omega)
  have artifacts : s.availableArtifacts.length - (s.removable - s.untrustedIntruderContent.length) = 0 := by
    unfold Snapshot.removable Snapshot.plain
    omega
  have actions : s.previousActions.drop
      (s.removable - s.untrustedIntruderContent.length - s.availableArtifacts.length) = [] :=
    List.drop_eq_nil_of_le (by unfold Snapshot.removable Snapshot.plain; omega)
  have directives : dropInactive (s.removable - s.plain) s.analystDirectives =
      s.analystDirectives.filter Directive.active := dropInactive_all (by unfold Snapshot.removable; omega)
  have events : s.recentEvents.drop (s.removable - s.plain - inactive s.analystDirectives) = [] :=
    List.drop_eq_nil_of_le (by unfold Snapshot.removable; omega)
  rw [without, untrusted, artifacts, List.take_zero, actions, directives, events]

theorem pop_removable : pop (without s.removable s) = .error exhausted := by
  have none : inactive (s.analystDirectives.filter Directive.active) = 0 := by
    rw [← filter_dropInactive (inactive s.analystDirectives), filter_dropInactive,
      ← dropInactive_all (Nat.le_refl _), inactive_dropInactive, Nat.sub_self]
  rw [without_removable, pop_later rfl rfl rfl]
  rcases inactiveIndex_cases (s.analystDirectives.filter Directive.active) with ⟨-, found⟩ | ⟨some, -⟩
  · rw [found]
    rfl
  · omega

end

/-! What the closed form keeps. -/

/-- What trimming leaves: the protected fields as they are, a part of each class, and of a class something is
missing only where nothing is left of the classes before it. -/
structure Trimmed (whole t : Snapshot) : Prop where
  caseState : t.caseState = whole.caseState
  objective : t.objective = whole.objective
  behaviourSummary : t.behaviourSummary = whole.behaviourSummary
  skillProfile : t.skillProfile = whole.skillProfile
  sandboxState : t.sandboxState = whole.sandboxState
  allowedActions : t.allowedActions = whole.allowedActions
  active : t.analystDirectives.filter Directive.active = whole.analystDirectives.filter Directive.active
  directives : t.analystDirectives.Sublist whole.analystDirectives
  untrusted : t.untrustedIntruderContent <:+ whole.untrustedIntruderContent
  artifacts : t.availableArtifacts <+: whole.availableArtifacts
  actions : t.previousActions <:+ whole.previousActions
  events : t.recentEvents <:+ whole.recentEvents
  artifactsTouched : t.availableArtifacts ≠ whole.availableArtifacts → t.untrustedIntruderContent = []
  actionsTouched : t.previousActions ≠ whole.previousActions →
    t.untrustedIntruderContent = [] ∧ t.availableArtifacts = []
  directivesTouched : t.analystDirectives ≠ whole.analystDirectives →
    t.untrustedIntruderContent = [] ∧ t.availableArtifacts = [] ∧ t.previousActions = []
  eventsTouched : t.recentEvents ≠ whole.recentEvents →
    t.untrustedIntruderContent = [] ∧ t.availableArtifacts = [] ∧ t.previousActions = [] ∧
      ∀ d ∈ t.analystDirectives, d.active = true

def Lost (whole t : Snapshot) : Field → Prop
  | .untrustedIntruderContent => t.untrustedIntruderContent ≠ whole.untrustedIntruderContent
  | .availableArtifacts => t.availableArtifacts ≠ whole.availableArtifacts
  | .previousActions => t.previousActions ≠ whole.previousActions
  | .analystDirectives => t.analystDirectives ≠ whole.analystDirectives
  | .recentEvents => t.recentEvents ≠ whole.recentEvents

theorem drop_ne_iff {α : Type} {n : ℕ} {xs : List α} : xs.drop n ≠ xs ↔ 0 < n ∧ 0 < xs.length := by
  constructor
  · intro other
    by_contra none
    refine other ?_
    rcases Nat.eq_zero_or_pos n with rfl | positive
    · exact List.drop_zero
    · have empty : xs = [] := List.length_eq_zero_iff.mp (by omega)
      rw [empty, List.drop_nil]
  · rintro ⟨positive, some⟩ same
    have length := congrArg List.length same
    rw [List.length_drop] at length
    omega

theorem take_ne_iff {α : Type} {n : ℕ} {xs : List α} :
    xs.take (xs.length - n) ≠ xs ↔ 0 < n ∧ 0 < xs.length := by
  constructor
  · intro other
    by_contra none
    exact other (List.take_of_length_le (by omega))
  · rintro ⟨positive, some⟩ same
    have length := congrArg List.length same
    rw [List.length_take] at length
    omega

theorem dropInactive_ne_iff {n : ℕ} {ds : List Directive} : dropInactive n ds ≠ ds ↔ 0 < n ∧ 0 < inactive ds := by
  constructor
  · intro other
    by_contra none
    refine other ?_
    rcases Nat.eq_zero_or_pos n with rfl | positive
    · rw [dropInactive]
    · have all : inactive ds = 0 := by omega
      rw [dropInactive_all (by omega), List.filter_eq_self.mpr (active_of_inactive all)]
  · rintro ⟨positive, some⟩ same
    have count := congrArg inactive same
    rw [inactive_dropInactive] at count
    omega

section
variable {s : Snapshot} {k : ℕ}

theorem lost_iff (field : Field) : Lost s (without k s) field ↔ match field with
    | .untrustedIntruderContent => 0 < k ∧ 0 < s.untrustedIntruderContent.length
    | .availableArtifacts => 0 < k - s.untrustedIntruderContent.length ∧ 0 < s.availableArtifacts.length
    | .previousActions => 0 < k - s.untrustedIntruderContent.length - s.availableArtifacts.length ∧
        0 < s.previousActions.length
    | .analystDirectives => 0 < k - s.plain ∧ 0 < inactive s.analystDirectives
    | .recentEvents => 0 < k - s.plain - inactive s.analystDirectives ∧ 0 < s.recentEvents.length := by
  cases field with
  | untrustedIntruderContent => exact drop_ne_iff
  | availableArtifacts => exact take_ne_iff
  | previousActions => exact drop_ne_iff
  | analystDirectives => exact dropInactive_ne_iff
  | recentEvents => exact drop_ne_iff

theorem classAt_iff (reached : k ≤ s.removable) (field : Field) :
    (∃ j, j < k ∧ classAt s j = field) ↔ Lost s (without k s) field := by
  have plain : s.plain = s.untrustedIntruderContent.length + s.availableArtifacts.length +
    s.previousActions.length := rfl
  unfold Snapshot.removable at reached
  simp only [lost_iff, classAt_eq_iff]
  -- a class lost an item where its first item is before the k-th
  cases field with
  | untrustedIntruderContent => exact ⟨fun ⟨j, below, _⟩ => by omega, fun some => ⟨0, by omega⟩⟩
  | availableArtifacts =>
    exact ⟨fun ⟨j, below, _⟩ => by omega, fun some => ⟨s.untrustedIntruderContent.length, by omega⟩⟩
  | previousActions =>
    refine ⟨fun ⟨j, below, _⟩ => by omega, fun some => ?_⟩
    exact ⟨s.untrustedIntruderContent.length + s.availableArtifacts.length, by omega⟩
  | analystDirectives => exact ⟨fun ⟨j, below, _⟩ => by omega, fun some => ⟨s.plain, by omega⟩⟩
  | recentEvents =>
    exact ⟨fun ⟨j, below, _⟩ => by omega, fun some => ⟨s.plain + inactive s.analystDirectives, by omega⟩⟩

theorem without_trimmed (k : ℕ) : Trimmed s (without k s) where
  caseState := rfl
  objective := rfl
  behaviourSummary := rfl
  skillProfile := rfl
  sandboxState := rfl
  allowedActions := rfl
  active := filter_dropInactive _ _
  directives := dropInactive_sublist _ _
  untrusted := List.drop_suffix _ _
  artifacts := List.take_prefix _ _
  actions := List.drop_suffix _ _
  events := List.drop_suffix _ _
  artifactsTouched touched := by
    have beyond := take_ne_iff.mp touched
    exact List.drop_eq_nil_of_le (by omega)
  actionsTouched touched := by
    have beyond := drop_ne_iff.mp touched
    exact ⟨untrusted_gone (by omega), artifacts_gone (by omega)⟩
  directivesTouched touched := by
    have beyond := dropInactive_ne_iff.mp touched
    have past : s.plain ≤ k := by omega
    unfold Snapshot.plain at beyond
    exact ⟨untrusted_gone (by omega), artifacts_gone (by omega), actions_gone past⟩
  eventsTouched touched := by
    have beyond := drop_ne_iff.mp touched
    have past : s.plain ≤ k := by omega
    have directives : (without k s).analystDirectives = s.analystDirectives.filter Directive.active :=
      dropInactive_all (by omega)
    unfold Snapshot.plain at beyond
    refine ⟨untrusted_gone (by omega), artifacts_gone (by omega), actions_gone past, fun d mem => ?_⟩
    rw [directives] at mem
    exact (List.mem_filter.mp mem).2

/-! Whether the text can be encoded does not change for the worse. -/

theorem isScalar_toRaw : isScalar s.toRaw = true ↔
    scalar s.caseState = true ∧ scalar s.objective = true ∧ (∀ e ∈ s.recentEvents, isScalar e.toRaw = true) ∧
      scalar s.behaviourSummary = true ∧ isScalar s.skillProfile = true ∧ isScalar s.sandboxState = true ∧
      (∀ a ∈ s.availableArtifacts, isScalar (.obj a) = true) ∧ (∀ a ∈ s.allowedActions, scalar a = true) ∧
      (∀ d ∈ s.analystDirectives, isScalar d.toRaw = true) ∧ (∀ a ∈ s.previousActions, isScalar (.obj a) = true) ∧
      ∀ c ∈ s.untrustedIntruderContent, isScalar (hostile c) = true := by
  have listed {α : Type} (f : α → Raw) (xs : List α) :
      isScalar (.arr (xs.map f)) = true ↔ ∀ x ∈ xs, isScalar (f x) = true := by
    rw [isScalar, OrderedJson.scalarItems_iff, List.forall_mem_map]
  have named (name : String) : scalar (text name) = true := scalar_map_ofChar name.toList
  have strings (t : Text) : isScalar (.str t) = scalar t := rfl
  have dictionary (members : Dict) : isScalar (.obj members) = scalarMembers members := rfl
  simp only [Snapshot.toRaw, dictionary, scalarMembers, named, Bool.true_and, Bool.and_true, Bool.and_eq_true,
    listed, strings]

theorem isScalar_without (proper : isScalar s.toRaw = true) (k : ℕ) : isScalar (without k s).toRaw = true := by
  have parts := without_trimmed (s := s) k
  rw [isScalar_toRaw] at proper ⊢
  obtain ⟨state, objective, events, summary, profile, sandbox, artifacts, allowed, directives, actions, contents⟩ :=
    proper
  exact ⟨state, objective, fun e mem => events e (parts.events.subset mem), summary, profile, sandbox,
    fun a mem => artifacts a (parts.artifacts.subset mem), allowed,
    fun d mem => directives d (parts.directives.subset mem), fun a mem => actions a (parts.actions.subset mem),
    fun c mem => contents c (parts.untrusted.subset mem)⟩

theorem overLimit_error_iff {e : Raised} :
    overLimit s = .error e ↔ e = .unicodeEncodeError ∧ isScalar s.toRaw = false := by
  rw [overLimit, canonical]
  cases written : canonicalJsonBytes s.toRaw with
  | none =>
    have other := (canonicalJsonBytes_eq_none_iff s.toRaw).mp written
    simp only [Option.elim_none, bind, Except.bind, Except.error.injEq, other, and_true]
    exact eq_comm
  | some bytes =>
    have proper : isScalar s.toRaw ≠ false := fun other => by
      rw [(canonicalJsonBytes_eq_none_iff s.toRaw).mpr other] at written
      cases written
    simp [bind, Except.bind, pure, Except.pure, proper]

theorem overLimit_false_iff : overLimit s = .ok false ↔ ∃ bytes, canonical s.toRaw = .ok bytes ∧
    bytes.size ≤ maxSnapshotBytes ∧ estimateTokens bytes.size ≤ maxEstimatedTokens := by
  rw [overLimit, bind_eq_ok]
  simp only [pure, Except.pure, Except.ok.injEq, Bool.or_eq_false_iff, decide_eq_false_iff_not, gt_iff_lt, not_lt]

end

theorem trim_whole (whole : Snapshot) : match trim whole [] with
    | .ok (t, found) => ∃ n ≤ whole.removable, t = without n whole ∧ overLimit t = .ok false ∧
        (∀ j < n, overLimit (without j whole) = .ok true) ∧ ∀ field, field ∈ found ↔ Lost whole t field
    | .error e => e = .unicodeEncodeError ∧ isScalar whole.toRaw = false ∨
        e = exhausted ∧ overLimit (without whole.removable whole) = .ok true ∨
        e = .typeError ∧ (∃ d ∈ whole.analystDirectives, hashable d.status = false) ∧
          overLimit (without whole.plain whole) = .ok true := by
  have pops : ∀ k < whole.removable, ∀ r, pop (without k whole) = .ok r →
      r = (without (k + 1) whole, classAt whole k) := by
    intro k below r popped
    rcases pop_without below with next | ⟨raised, -⟩
    · exact Except.ok.inj (popped.symm.trans next)
    · rw [raised] at popped
      cases popped
  have ends : ∀ r, pop (without whole.removable whole) ≠ .ok r := by
    intro r popped
    rw [pop_removable] at popped
    cases popped
  have all := @loopWhile_sequence _ _ _ _ overLimit _ Snapshot.items items_pop _ _ _ pops ends 0 [] (Nat.zero_le _)
  have loop : loopWhile overLimit pop Snapshot.items items_pop whole [] = trim whole [] := rfl
  rw [without_zero, loop] at all
  generalize trim whole [] = result at all ⊢
  rcases result with e | ⟨t, found⟩
  rotate_left
  · obtain ⟨n, -, reached, rfl, fits, beyond, found⟩ := all
    refine ⟨n, reached, rfl, fits, fun j below => beyond j (Nat.zero_le j) below, fun field => ?_⟩
    rw [found, ← classAt_iff reached]
    simp only [List.not_mem_nil, false_or, Nat.zero_le, true_and]
  · obtain ⟨n, -, reached, beyond, raised | ⟨exceeds, stuck⟩⟩ := all
    · -- a text that cannot be encoded is found at once
      obtain ⟨rfl, other⟩ := overLimit_error_iff.mp raised
      refine .inl ⟨rfl, ?_⟩
      by_contra proper
      rw [isScalar_without (Bool.not_eq_false _ ▸ proper) n] at other
      cases other
    · rcases Nat.lt_or_eq_of_le reached with below | rfl
      · rcases pop_without below with next | ⟨raised, plain, listed⟩
        · rw [next] at stuck
          cases stuck
        · rw [raised] at stuck
          refine .inr (.inr ⟨(Except.error.inj stuck).symm, listed, ?_⟩)
          rcases Nat.eq_or_lt_of_le plain with rfl | above
          · exact exceeds
          · exact beyond _ (Nat.zero_le _) above
      · rw [pop_removable] at stuck
        exact .inr (.inl ⟨(Except.error.inj stuck).symm, exceeds⟩)

theorem assemble_eq (lib : Platform) (i : Input) : assembleSnapshot lib i = match build lib i with
    | .error e => .error e
    | .ok (profile, whole) =>
      match trim whole [] with
      | .error e => .error e
      | .ok (t, found) => do
        let bytes ← canonical t.toRaw
        let ids ← sortedSet (sourceIds profile t)
        return ⟨t, lib.sha256 bytes, bytes.size, estimateTokens bytes.size, !found.isEmpty, found, ids,
          i.sourceProfileVersion⟩ := by
  rw [assembleSnapshot]
  cases build lib i with
  | error e => rfl
  | ok built =>
    obtain ⟨profile, whole⟩ := built
    dsimp only [bind, Except.bind]
    generalize trim whole [] = result
    rcases result with e | ⟨t, found⟩
    · rfl
    · with_reducible rfl

/-- A snapshot that was built whole loses the fewest items, in the order of their classes, until it fits; the call
raises where a text cannot be encoded, where the protected fields alone do not fit, where trimming meets a status
that is in no set, or where the identifiers cannot be sorted. -/
theorem snapshot_trimmed (lib : Platform) (i : Input) :
    match build lib i with
    | .error e => assembleSnapshot lib i = .error e
    | .ok (profile, whole) =>
      match assembleSnapshot lib i with
      | .ok r =>
        (∃ bytes, canonical r.snapshot.toRaw = .ok bytes ∧ bytes.size ≤ maxSnapshotBytes ∧
          estimateTokens bytes.size ≤ maxEstimatedTokens ∧ r.snapshotSizeBytes = bytes.size ∧
          r.estimatedTokens = estimateTokens bytes.size) ∧
        Trimmed whole r.snapshot ∧
        (∃ n ≤ whole.removable, r.snapshot = without n whole ∧ ∀ j < n, overLimit (without j whole) = .ok true) ∧
        (∀ field, field ∈ r.trimmedFields ↔ Lost whole r.snapshot field) ∧
        r.trimmed = !r.trimmedFields.isEmpty
      | .error e =>
        e = .unicodeEncodeError ∧ isScalar whole.toRaw = false ∨
        e = exhausted ∧ overLimit { whole with
          untrustedIntruderContent := [], availableArtifacts := [], previousActions := []
          analystDirectives := whole.analystDirectives.filter Directive.active, recentEvents := [] } = .ok true ∨
        e = .typeError ∧ (∃ d ∈ whole.analystDirectives, hashable d.status = false) ∧
          overLimit (without whole.plain whole) = .ok true ∨
        ∃ n ≤ whole.removable, overLimit (without n whole) = .ok false ∧
          sortedSet (sourceIds profile (without n whole)) = .error e := by
  rw [assemble_eq]
  cases build lib i with
  | error e => rfl
  | ok built =>
    obtain ⟨profile, whole⟩ := built
    have trimmed := trim_whole whole
    dsimp only
    cases ran : trim whole [] with
    | error e =>
      rw [ran] at trimmed
      rw [without_removable] at trimmed
      rcases trimmed with first | second | third
      · exact .inl first
      · exact .inr (.inl second)
      · exact .inr (.inr (.inl third))
    | ok result =>
      obtain ⟨t, found⟩ := result
      rw [ran] at trimmed
      have ⟨n, reached, form, fits, beyond, lost⟩ := trimmed
      rw [form] at fits lost ⊢
      have ⟨bytes, written, size, tokens⟩ := overLimit_false_iff.mp fits
      simp only [written, bind, Except.bind]
      cases ids : sortedSet (sourceIds profile (without n whole)) with
      | error e => exact .inr (.inr (.inr ⟨n, reached, fits, ids⟩))
      | ok ids =>
        exact ⟨⟨bytes, written, size, tokens, rfl, rfl⟩, without_trimmed n, ⟨n, reached, rfl, beyond⟩, lost, rfl⟩

def samplePlatform : Platform where
  float _ := ("0.0", some 0)
  decodeOther _ := .error .unicodeDecodeError
  printable p := 0x20 ≤ p.val && p.val < 0x7F
  clamp value := .ok value
  sha256 _ := ""

def bareEvent : Input where
  caseState := text "ENGAGING"
  objective := text "observe tool use"
  recentEvents := [[]]
  behaviourSummary := text "bounded"
  skillProfile := []
  sandboxState := []
  availableArtifacts := []
  allowedActions := [text "REQUEST_SNAPSHOT"]
  analystDirectives := []
  previousActions := []
  untrustedIntruderContent := []
  sourceProfileVersion := 1

theorem bareEvent_raises : assembleSnapshot samplePlatform bareEvent = .error .keyError ∧
    Raised.keyError.kind ≠ .valueError := by
  have states : decide (bareEvent.caseState ∈ caseStates.map text) = true := by decide +kernel
  have actions : (!bareEvent.allowedActions.isEmpty &&
      bareEvent.allowedActions.all fun action => decide (action ∈ actionTypes.map text)) = true := by decide +kernel
  have built : build samplePlatform bareEvent = .error .keyError := by
    rw [build, states, actions]
    rfl
  refine ⟨?_, by decide⟩
  rw [assemble_eq, built]

end Mirage.SnapshotTrimming
