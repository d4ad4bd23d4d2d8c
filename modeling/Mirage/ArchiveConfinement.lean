import Mirage.ArtifactScanner
import Mirage.Effects

/-! Where the walk of artifacts.py writes, and what the archives that it accepts
are free of. A name is checked with its slashes turned, compared as the text of a
path, and joined to a temporary directory as a text again. -/

namespace Mirage.ArchiveConfinement
open PythonText RowLocks ArtifactScanner Effects

def forward (name : Text) : Text := name.map fun p => if p = ofChar '\\' then ofChar '/' else p

def Escaping (name : Text) : Prop :=
  (forward name).head? = some (ofChar '/') ∨ text ".." ∈ (forward name).splitOn (ofChar '/') ∨
    hasDrive (forward name) = true

def normalised (name : Text) : Path := parts (forward name)

/-- `root / name`, where an absolute name takes the place of the root. -/
def joined (root : Path) (name : Text) : Path :=
  if name.head? = some (ofChar '/') then parts name else root ++ parts name

structure Inside (root path : Path) : Prop where
  below : root <+: path
  proper : path ≠ root
  downwards : text ".." ∉ path.drop root.length

def Proper (path : Path) : Prop := ∀ part ∈ path, part ≠ [] ∧ part ≠ text "." ∧ ofChar '/' ∉ part

theorem mem_splitOn {α : Type} [DecidableEq α] {sep : α} {xs part : List α} (mem : part ∈ xs.splitOn sep) :
    sep ∉ part := by
  induction xs generalizing part with
  | nil =>
    rw [List.splitOn_nil, List.mem_singleton] at mem
    rw [mem]
    exact List.not_mem_nil
  | cons x xs ih =>
    rw [List.splitOn_cons_eq_if_modifyHead] at mem
    split at mem
    · rcases List.mem_cons.mp mem with rfl | mem
      · exact List.not_mem_nil
      · exact ih mem
    · next other =>
      cases split : xs.splitOn sep with
      | nil =>
        rw [split] at mem
        cases mem
      | cons first rest =>
        rw [split, List.modifyHead_cons, List.mem_cons] at mem
        rcases mem with rfl | mem
        · rw [List.mem_cons, not_or]
          refine ⟨fun same => other (by simp [same]), ih (split ▸ List.mem_cons_self)⟩
        · exact ih (split ▸ List.mem_cons_of_mem _ mem)

theorem parts_proper (t : Text) : Proper (parts t) := by
  intro part mem
  obtain ⟨split, kept⟩ := List.mem_filter.mp mem
  rw [Bool.and_eq_true, decide_eq_true_eq, decide_eq_true_eq] at kept
  exact ⟨kept.1, kept.2, mem_splitOn split⟩

theorem parts_pathText {path : Path} (proper : Proper path) : parts (pathText path) = path := by
  by_cases root : path = []
  · rw [root]
    decide
  · have separator : text "/" = [ofChar '/'] := by decide
    rw [pathText, if_neg root, parts, separator, List.splitOn_intercalate _ (fun part mem => (proper part mem).2.2) root,
      List.filter_eq_self]
    intro part mem
    simp only [(proper part mem).1, (proper part mem).2.1, ne_eq, not_false_eq_true, decide_true, Bool.and_self]

theorem pathText_relative {path : Path} (proper : Proper path) : (pathText path).head? ≠ some (ofChar '/') := by
  cases path with
  | nil => decide
  | cons part rest =>
    obtain ⟨filled, -, undivided⟩ := proper part List.mem_cons_self
    cases part with
    | nil => exact absurd rfl filled
    | cons p part =>
      intro slash
      have head : (pathText ((p :: part) :: rest)).head? = some p := by
        cases rest with
        | nil => rw [pathText, if_neg (List.cons_ne_nil _ _), List.intercalate_singleton]; rfl
        | cons next rest => rw [pathText, if_neg (List.cons_ne_nil _ _), List.intercalate_cons_cons]; rfl
      rw [head] at slash
      exact undivided (Option.some.inj slash ▸ List.mem_cons_self)

theorem joined_pathText (root : Path) {path : Path} (proper : Proper path) :
    joined root (pathText path) = root ++ path := by
  rw [joined, if_neg (pathText_relative proper), parts_pathText proper]

theorem safeMemberName_eq_ok {printable : CodePoint → Bool} {name : Text} {path : Path} :
    safeMemberName printable name = .ok path ↔ ¬ Escaping name ∧ normalised name = path := by
  have upwards : text ".." ∈ parts (forward name) ↔ text ".." ∈ (forward name).splitOn (ofChar '/') := by
    have kept : (text ".." ≠ [] && text ".." ≠ text ".") = true := by decide
    rw [parts, List.mem_filter]
    exact and_iff_left kept
  have escaping : Escaping name ↔ (forward name).head? = some (ofChar '/') ∨ text ".." ∈ parts (forward name) ∨
      hasDrive (forward name) = true := by rw [upwards, Escaping]
  rw [escaping]
  unfold safeMemberName
  dsimp only
  split
  next escapes => exact ⟨fun same => (nomatch same), fun both => absurd escapes both.1⟩
  next stays => exact ⟨fun same => ⟨stays, Except.ok.inj same⟩, fun both => congrArg Except.ok both.2⟩

theorem normalised_proper (name : Text) : Proper (normalised name) := parts_proper (forward name)

theorem normalised_downwards {name : Text} (stays : ¬ Escaping name) : text ".." ∉ normalised name :=
  fun mem => stays (.inr (.inl (List.mem_filter.mp mem).1))

/-! What an action leaves in its log. -/

section
variable {ε ι α β σ : Type}

/-- A result and the log before it are as the first says, the log before an error
as the second. -/
def Leaves (P : α → List ι → Prop) (E : List ι → Prop) (done : Done ε Unit ι α) : Prop :=
  match done.result with
  | .ok a => P a done.log
  | .error _ => E done.log

theorem Leaves.bind {P : α → List ι → Prop} {Q : β → List ι → Prop} {E : List ι → Prop} {m : Act ε Unit ι α}
    {f : α → Act ε Unit ι β} (first : Leaves P E (m ()))
    (next : ∀ a log, P a log → Leaves (fun b more => Q b (log ++ more)) (fun more => E (log ++ more)) (f a ())) :
    Leaves Q E ((m >>= f) ()) := by
  unfold Leaves at first
  cases ran : (m ()).result with
  | error e =>
    rw [ran] at first
    rw [bind_error ran]
    exact first
  | ok a =>
    rw [ran] at first
    have later := next a _ first
    rw [bind_ok ran]
    unfold Leaves at later ⊢
    cases result : (f a (m ()).state).result with
    | error e =>
      rw [result] at later
      exact later
    | ok b =>
      rw [result] at later
      exact later

theorem Leaves.mono {P Q : α → List ι → Prop} {E F : List ι → Prop} {done : Done ε Unit ι α} (leaves : Leaves P E done)
    (results : ∀ a log, P a log → Q a log) (errors : ∀ log, E log → F log) : Leaves Q F done := by
  unfold Leaves at leaves ⊢
  split at leaves
  · exact results _ _ leaves
  · exact errors _ leaves

theorem Leaves.foldlM {I : σ → List ι → Prop} {E : List ι → Prop} {f : σ → α → Act ε Unit ι σ}
    (body : ∀ s a log, I s log → Leaves (fun s' more => I s' (log ++ more)) (fun more => E (log ++ more)) (f s a ()))
    (items : List α) {s : σ} {log : List ι} (start : I s log) :
    Leaves (fun s' more => I s' (log ++ more)) (fun more => E (log ++ more)) (items.foldlM f s ()) := by
  induction items generalizing s log with
  | nil =>
    show I s (log ++ [])
    rwa [List.append_nil]
  | cons a rest ih =>
    rw [List.foldlM_cons]
    refine Leaves.bind (body s a log start) fun s' more kept => ?_
    simpa only [List.append_assoc] using ih kept

theorem result_bind {m : Act ε Unit ι α} {f : α → Act ε Unit ι β} :
    ((m >>= f) ()).result = (m ()).result >>= fun a => (f a ()).result := by
  cases ran : (m ()).result with
  | error e => rw [bind_error ran]; rfl
  | ok a => rw [bind_ok ran]; rfl

theorem result_foldlM (f : σ → α → Act ε Unit ι σ) (items : List α) (s : σ) :
    (items.foldlM f s ()).result = items.foldlM (fun s a => (f s a ()).result) s := by
  induction items generalizing s with
  | nil => rfl
  | cons a rest ih =>
    rw [List.foldlM_cons, List.foldlM_cons, result_bind]
    exact congrArg _ (funext ih)

end

/-! The walk, with the archives that it enters and the files that it writes. -/

inductive Event where
  | entered (depth : ℕ)
  /-- The file is `root / name`, with the temporary directory of its level as root. -/
  | wrote (depth : ℕ) (name : Text)

abbrev Walk (α : Type) : Type := Act Exc Unit Event α

def note (event : Event) : Walk Unit := fun _ => ⟨.ok (), (), [event]⟩

section
variable (lib : Library) (config : Config)

def tracedRead (nested : Totals → lib.File → Walk Totals) (s : State) : Except LibraryError lib.File → Walk State
  | .error e => raise (.library e)
  | .ok content =>
    match isArchive lib content with
    | .ok true => do
      let totals ← nested s.totals content
      pure { s with totals }
    | .ok false => pure s
    | .error e => raise (.library e)

def tracedExtract (nested : Totals → lib.File → Walk Totals) (depth : ℕ) (s : State) (path : Path)
    (data : Except LibraryError lib.File) : Walk State :=
  match place lib.nameable s.tree path with
  | none => raise (.library (.other (text "OSError")))
  | some tree => do
    note (.wrote depth (pathText path))
    tracedRead lib nested { s with tree } data

def tracedVisit (nested : Totals → lib.File → Walk Totals) (depth : ℕ) (s : State) (e : Entry lib.File) :
    Walk State :=
  match admitEntry lib config s e with
  | .error message => raise (.archivePolicy message)
  | .ok (.skipped s) => pure s
  | .ok (.extracts path data s) => tracedExtract lib nested depth s path data

def tracedInspect : ℕ → ℕ → Totals → lib.File → Walk Totals
  | 0, _, _, _ => raise (.archivePolicy (text "maximum archive nesting depth exceeded"))
  | left + 1, depth, totals, file => do
    note (.entered depth)
    match ← look fun _ => openArchive lib file with
    | none => pure (totals.deepened depth)
    | some entries => do
      let s ← entries.foldlM (tracedVisit lib config (tracedInspect left (depth + 1)) depth)
        ⟨totals.deepened depth, [], .empty⟩
      if config.maxExpandedMb * 1024 * 1024 < s.totals.expandedBytes then
        raise (.archivePolicy (text "archive expanded-size limit exceeded"))
      else pure s.totals

def walk (file : lib.File) : Done Exc Unit Event Totals :=
  tracedInspect lib config config.maxArchiveDepth 1 ⟨0, 0, 0, 0⟩ file ()

end

/-! What the walk may do and what it accepts. -/

def isWrite : Event → Bool
  | .wrote _ _ => true
  | .entered _ => false

/-- An archive is entered within the depth, and a file is written inside the
directory of its level. -/
def Allowed (maxDepth : ℕ) : Event → Prop
  | .entered depth => depth ≤ maxDepth
  | .wrote depth name => depth ≤ maxDepth ∧ ∀ root, Inside root (joined root name)

section
variable (lib : Library)

structure Harmless (e : Entry lib.File) : Prop where
  named : ¬ Escaping e.filename
  unlinked : e.link = false
  unencrypted : e.encrypted = false

/-- The archive and those within it, no deeper than so many levels, have harmless
members that stand for paths of their own. -/
def Clean : ℕ → lib.File → Prop
  | 0, _ => False
  | left + 1, file => ∀ entries, openArchive lib file = .ok (some entries) →
    (entries.map fun e => normalised e.filename).Nodup ∧ ∀ e ∈ entries, Harmless lib e ∧
      ∀ content, e.skipped = false → e.data = some (.ok content) → isArchive lib content = .ok true →
        Clean left content

end

/-! The walk comes to what `inspectRecursive` comes to. -/

section
variable {lib : Library} {config : Config}

theorem result_extract {traced : Totals → lib.File → Walk Totals} {nested : Totals → lib.File → Except Exc Totals}
    (same : ∀ totals file, (traced totals file ()).result = nested totals file) (depth : ℕ) (s : State) (path : Path)
    (data : Except LibraryError lib.File) :
    (tracedExtract lib traced depth s path data ()).result = extractEntry lib nested s path data := by
  unfold tracedExtract extractEntry
  cases place lib.nameable s.tree path with
  | none => rfl
  | some tree =>
    rw [result_bind]
    cases data with
    | error e => rfl
    | ok content =>
      change (tracedRead lib traced { s with tree } (.ok content) ()).result = _
      unfold tracedRead
      dsimp only
      cases isArchive lib content with
      | error e => rfl
      | ok nests =>
        cases nests with
        | false => rfl
        | true =>
          dsimp only
          rw [result_bind, same]
          rfl

theorem result_visit {traced : Totals → lib.File → Walk Totals} {nested : Totals → lib.File → Except Exc Totals}
    (same : ∀ totals file, (traced totals file ()).result = nested totals file) (depth : ℕ) (s : State)
    (e : Entry lib.File) :
    (tracedVisit lib config traced depth s e ()).result = visit lib config nested s e := by
  unfold tracedVisit visit
  cases admitEntry lib config s e with
  | error message => rfl
  | ok admission =>
    cases admission with
    | skipped s' => rfl
    | extracts path data s' => exact result_extract same depth s' path data

theorem result_inspect (left depth : ℕ) (totals : Totals) (file : lib.File) :
    (tracedInspect lib config left depth totals file ()).result =
      inspectRecursive lib config left depth totals file := by
  induction left generalizing depth totals file with
  | zero => rfl
  | succ left ih =>
    rw [tracedInspect, inspectRecursive, result_bind]
    change ((look (fun _ => openArchive lib file) >>= _) ()).result = _
    rw [result_bind]
    refine congrArg _ (funext fun members => ?_)
    cases members with
    | none => rfl
    | some entries =>
      have visits : (fun s e => (tracedVisit lib config (tracedInspect lib config left (depth + 1)) depth s e ()).result) =
          visit lib config (inspectRecursive lib config left (depth + 1)) := by
        funext s e
        exact result_visit (ih (depth + 1)) depth s e
      dsimp only
      rw [result_bind, result_foldlM, visits]
      refine congrArg _ (funext fun s => ?_)
      split <;> rfl

structure Kept (config : Config) (before after : Totals) (log : List Event) : Prop where
  allowed : ∀ event ∈ log, Allowed config.maxArchiveDepth event
  counted : before.members + log.countP isWrite ≤ after.members
  limited : after.members ≤ config.maxArchiveMembers
  depth : after.maxDepthSeen ≤ config.maxArchiveDepth

structure Stopped (config : Config) (before : Totals) (log : List Event) : Prop where
  allowed : ∀ event ∈ log, Allowed config.maxArchiveDepth event
  limited : before.members + log.countP isWrite ≤ config.maxArchiveMembers

theorem Kept.append {a b c : Totals} {log more : List Event} (first : Kept config a b log)
    (second : Kept config b c more) : Kept config a c (log ++ more) where
  allowed event mem := (List.mem_append.mp mem).elim (first.allowed event) (second.allowed event)
  counted := by
    have := first.counted
    have := second.counted
    rw [List.countP_append]
    omega
  limited := second.limited
  depth := second.depth

theorem Kept.stop {a b : Totals} {log more : List Event} (first : Kept config a b log)
    (second : Stopped config b more) : Stopped config a (log ++ more) where
  allowed event mem := (List.mem_append.mp mem).elim (first.allowed event) (second.allowed event)
  limited := by
    have := first.counted
    have := second.limited
    rw [List.countP_append]
    omega

theorem admitEntry_ok {s : State} {e : Entry lib.File} {admission : Admission lib.File}
    (admitted : admitEntry lib config s e = .ok admission) :
    Harmless lib e ∧ pathText (normalised e.filename) ∉ s.names ∧
      match admission with
      | .skipped s' => e.skipped = true ∧ s' = { s with names := pathText (normalised e.filename) :: s.names }
      | .extracts path data s' => path = normalised e.filename ∧ e.data = some data ∧ s'.tree = s.tree ∧
        s'.names = pathText (normalised e.filename) :: s.names ∧
        addMember config s.totals e.expanded e.compressed = .ok s'.totals := by
  obtain ⟨path, safe, rest⟩ := bind_eq_ok.mp admitted
  obtain ⟨stays, rfl⟩ := safeMemberName_eq_ok.mp safe
  dsimp only at rest
  split at rest
  · cases rest
  next new =>
  split at rest
  · cases rest
  next unlinked =>
  split at rest
  · cases rest
  next unencrypted =>
  have harmless : Harmless lib e := ⟨stays, Bool.eq_false_iff.mpr unlinked, Bool.eq_false_iff.mpr unencrypted⟩
  split at rest
  · next skipped =>
    cases rest
    exact ⟨harmless, new, skipped, rfl⟩
  · obtain ⟨totals, counted, rest⟩ := bind_eq_ok.mp rest
    split at rest
    · cases rest
    · split at rest
      · cases rest
      · next data given =>
        cases rest
        exact ⟨harmless, new, rfl, given, rfl, rfl, counted⟩

theorem addMember_ok {before after : Totals} {expanded compressed : ℕ}
    (counted : addMember config before expanded compressed = .ok after) :
    after.members = before.members + 1 ∧ after.members ≤ config.maxArchiveMembers ∧
      after.maxDepthSeen = before.maxDepthSeen := by
  unfold addMember at counted
  dsimp only at counted
  split at counted
  · cases counted
  · next room =>
    split at counted
    · cases counted
    · cases counted
      exact ⟨rfl, not_lt.mp room, rfl⟩

theorem place_nonempty {nameable : Path → Bool} {tree tree' : Tree} {path : Path}
    (placed : place nameable tree path = some tree') : path ≠ [] := by
  rintro rfl
  simp [place] at placed

theorem joined_inside {name : Text} (stays : ¬ Escaping name) (proper : normalised name ≠ []) (root : Path) :
    Inside root (joined root (pathText (normalised name))) := by
  rw [joined_pathText root (normalised_proper name)]
  refine ⟨List.prefix_append _ _, ?_, ?_⟩
  · simpa using proper
  · rw [List.drop_left]
    exact normalised_downwards stays

theorem Kept.stopped {a b : Totals} {log : List Event} (kept : Kept config a b log) : Stopped config a (log ++ []) :=
  kept.stop ⟨fun _ mem => (nomatch mem), kept.limited⟩

theorem Kept.still {a b : Totals} {log : List Event} (kept : Kept config a b log) : Kept config a b (log ++ []) := by
  rwa [List.append_nil]

def Bounded (config : Config) (nested : Totals → lib.File → Walk Totals) : Prop :=
  ∀ totals file, totals.members ≤ config.maxArchiveMembers → totals.maxDepthSeen ≤ config.maxArchiveDepth →
    Leaves (Kept config totals) (Stopped config totals) (nested totals file ())

theorem note_bind {α : Type} {P : α → List Event → Prop} {E : List Event → Prop} {event : Event} {f : Unit → Walk α}
    (next : Leaves (fun a more => P a ([event] ++ more)) (fun more => E ([event] ++ more)) (f () ())) :
    Leaves P E ((note event >>= f) ()) := by
  have noted : Leaves (fun _ log => log = [event]) (fun _ => False) (note event ()) := rfl
  refine Leaves.bind (noted.mono (fun _ _ same => same) fun _ no => no.elim) ?_
  rintro ⟨⟩ log rfl
  exact next

theorem look_leaves {α β : Type} {P : β → List Event → Prop} {E : List Event → Prop} {x : Except Exc α} {f : α → Walk β}
    (errors : Exc → E []) (results : ∀ a, Leaves P E (f a ())) : Leaves P E ((look (fun _ => x) >>= f) ()) := by
  cases x with
  | error e => exact errors e
  | ok a =>
    have ran : (look (fun _ => .ok a) >>= f) () = f a () := look_bind_ok rfl
    rw [ran]
    exact results a

theorem read_leaves {nested : Totals → lib.File → Walk Totals} (inner : Bounded config nested) {before : Totals}
    {s : State} {log : List Event} (kept : Kept config before s.totals log) (data : Except LibraryError lib.File) :
    Leaves (fun s' more => Kept config before s'.totals (log ++ more)) (fun more => Stopped config before (log ++ more))
      (tracedRead lib nested s data ()) := by
  cases data with
  | error e => exact kept.stopped
  | ok content =>
    unfold tracedRead
    dsimp only
    cases isArchive lib content with
    | error e => exact kept.stopped
    | ok nests =>
      cases nests with
      | false => exact kept.still
      | true =>
        refine Leaves.bind ((inner s.totals content kept.limited kept.depth).mono
          (fun _ _ later => kept.append later) fun _ stopped => kept.stop stopped) fun totals more later => ?_
        simp only [← List.append_assoc]
        exact later.still

theorem visit_leaves {nested : Totals → lib.File → Walk Totals} (inner : Bounded config nested) {depth : ℕ}
    (within : depth ≤ config.maxArchiveDepth) (e : Entry lib.File) {before : Totals} {s : State}
    {log : List Event} (kept : Kept config before s.totals log) :
    Leaves (fun s' more => Kept config before s'.totals (log ++ more)) (fun more => Stopped config before (log ++ more))
      (tracedVisit lib config nested depth s e ()) := by
  unfold tracedVisit
  cases admitted : admitEntry lib config s e with
  | error message => exact kept.stopped
  | ok admission =>
    obtain ⟨harmless, -, rest⟩ := admitEntry_ok admitted
    cases admission with
    | skipped s' =>
      obtain ⟨-, rfl⟩ := rest
      exact kept.still
    | extracts path data s' =>
      obtain ⟨rfl, -, -, -, counted⟩ := rest
      obtain ⟨members, room, same⟩ := addMember_ok counted
      dsimp only
      unfold tracedExtract
      cases placed : place lib.nameable s'.tree (normalised e.filename) with
      | none => exact kept.stopped
      | some tree =>
        have wrote : Kept config s.totals s'.totals [.wrote depth (pathText (normalised e.filename))] := by
          refine ⟨fun event mem => ?_, members.symm.le, room, same ▸ kept.depth⟩
          rw [List.mem_singleton.mp mem]
          exact ⟨within, joined_inside harmless.named (place_nonempty placed)⟩
        refine note_bind ?_
        simp only [← List.append_assoc]
        exact @read_leaves _ _ _ inner _ { s' with tree } _ (kept.append wrote) data

theorem inspect_leaves (left depth : ℕ) (levels : depth + left = config.maxArchiveDepth + 1) :
    Bounded config (tracedInspect lib config left depth) := by
  induction left generalizing depth with
  | zero => exact fun totals file limited _ => ⟨fun _ mem => (nomatch mem), limited⟩
  | succ left ih =>
    intro totals file limited deep
    have within : depth ≤ config.maxArchiveDepth := by omega
    have entered : Kept config totals (totals.deepened depth) [.entered depth] := by
      refine ⟨fun event mem => ?_, le_rfl, limited, max_le deep within⟩
      rw [List.mem_singleton.mp mem]
      exact within
    rw [tracedInspect]
    refine note_bind ?_
    refine look_leaves (fun _ => entered.stopped) fun members => ?_
    cases members with
    | none => exact entered.still
    | some entries =>
      refine Leaves.bind (Leaves.foldlM (fun s e log kept => visit_leaves (ih (depth + 1) (by omega)) within e kept)
        entries entered) fun s more kept => ?_
      simp only [← List.append_assoc]
      split
      · exact kept.stopped
      · exact kept.still

theorem entryPasses_spec {Completes : Totals → lib.File → Totals → Prop} {CleanIn : lib.File → Prop}
    (inner : ∀ totals file result, Completes totals file result → CleanIn file) {s s' : State} {e : Entry lib.File}
    (passes : EntryPasses lib config Completes s e s') :
    Harmless lib e ∧ pathText (normalised e.filename) ∉ s.names ∧
      s'.names = pathText (normalised e.filename) :: s.names ∧
      ∀ content, e.skipped = false → e.data = some (.ok content) → isArchive lib content = .ok true →
        CleanIn content := by
  cases passes with
  | skipped admitted =>
    obtain ⟨harmless, new, skipped, rfl⟩ := admitEntry_ok admitted
    refine ⟨harmless, new, rfl, fun _ extracted => ?_⟩
    rw [skipped] at extracted
    cases extracted
  | stored admitted placed plain =>
    obtain ⟨harmless, new, -, given, -, names, -⟩ := admitEntry_ok admitted
    refine ⟨harmless, new, names, fun content _ given' archive => ?_⟩
    rw [given] at given'
    cases given'
    rw [plain] at archive
    cases archive
  | nested admitted placed archive completes =>
    obtain ⟨harmless, new, -, given, -, names, -⟩ := admitEntry_ok admitted
    refine ⟨harmless, new, names, fun content _ given' _ => ?_⟩
    rw [given] at given'
    cases given'
    exact inner _ _ _ completes

theorem membersPass_spec {Completes : Totals → lib.File → Totals → Prop} {CleanIn : lib.File → Prop}
    (inner : ∀ totals file result, Completes totals file result → CleanIn file) {s t : State}
    {entries : List (Entry lib.File)} (passes : MembersPass lib config Completes s entries t) :
    (entries.map fun e => normalised e.filename).Nodup ∧
      ∀ e ∈ entries, Harmless lib e ∧ pathText (normalised e.filename) ∉ s.names ∧
        ∀ content, e.skipped = false → e.data = some (.ok content) → isArchive lib content = .ok true →
          CleanIn content := by
  induction entries generalizing s with
  | nil => exact ⟨List.nodup_nil, fun _ mem => (nomatch mem)⟩
  | cons e rest ih =>
    obtain ⟨s', passed, passes⟩ := passes
    obtain ⟨harmless, new, names, nested⟩ := entryPasses_spec inner passed
    obtain ⟨distinct, later⟩ := ih passes
    rw [names] at later
    constructor
    · rw [List.map_cons, List.nodup_cons]
      refine ⟨fun mem => ?_, distinct⟩
      obtain ⟨e', mem, same⟩ := List.mem_map.mp mem
      exact (later e' mem).2.1 (same ▸ List.mem_cons_self)
    · intro e' mem
      rcases List.mem_cons.mp mem with rfl | mem
      · exact ⟨harmless, new, nested⟩
      · obtain ⟨harmless', new', nested'⟩ := later e' mem
        exact ⟨harmless', fun earlier => new' (List.mem_cons_of_mem _ earlier), nested'⟩

theorem completes_clean (left depth : ℕ) (totals : Totals) (file : lib.File) (result : Totals)
    (completes : Completes lib config left depth totals file result) : Clean lib left file := by
  induction left generalizing depth totals file result with
  | zero => cases completes
  | succ left ih =>
    intro entries opened
    rcases completes with ⟨plain, -⟩ | ⟨entries', s, opened', passes, -, -⟩
    · rw [opened] at plain
      cases plain
    · rw [opened] at opened'
      cases opened'
      obtain ⟨distinct, members⟩ := membersPass_spec (fun totals file result => ih (depth + 1) totals file result) passes
      exact ⟨distinct, fun e mem => ⟨(members e mem).1, (members e mem).2.2⟩⟩

end

structure Confined (lib : Library) (config : Config) (file : lib.File) : Prop where
  /-- The walk with its log comes to what the walk comes to, and so ends. -/
  result : (walk lib config file).result = inspectRecursive lib config config.maxArchiveDepth 1 ⟨0, 0, 0, 0⟩ file
  allowed : ∀ event ∈ (walk lib config file).log, Allowed config.maxArchiveDepth event
  extracted : (walk lib config file).log.countP isWrite ≤ config.maxArchiveMembers
  clean : ∀ totals, inspectArchive lib config file = .ok totals →
    Clean lib config.maxArchiveDepth file ∧ totals.members ≤ config.maxArchiveMembers ∧
      totals.maxDepthSeen ≤ config.maxArchiveDepth

/-- Whatever the archive, accepted or not, the walk enters no level beyond the
depth, writes no more files than the limit and none outside the directory of its
level, and what it accepts has harmless members only. -/
theorem archive_confined (lib : Library) (config : Config) (file : lib.File) : Confined lib config file := by
  have leaves := inspect_leaves config.maxArchiveDepth 1 (Nat.add_comm _ _) ⟨0, 0, 0, 0⟩ file
    (Nat.zero_le _) (Nat.zero_le _)
  change Leaves _ _ (walk lib config file) at leaves
  have same : (walk lib config file).result =
      inspectRecursive lib config config.maxArchiveDepth 1 ⟨0, 0, 0, 0⟩ file := result_inspect _ _ _ _
  have bounded : (∀ event ∈ (walk lib config file).log, Allowed config.maxArchiveDepth event) ∧
      (walk lib config file).log.countP isWrite ≤ config.maxArchiveMembers := by
    unfold Leaves at leaves
    split at leaves
    · have counted := leaves.counted
      have limited := leaves.limited
      exact ⟨leaves.allowed, by omega⟩
    · have limited := leaves.limited
      exact ⟨leaves.allowed, by omega⟩
  refine ⟨same, bounded.1, bounded.2, fun totals accepted => ?_⟩
  have completes := (inspectArchive_ok_iff.mp accepted).1
  refine ⟨completes_clean _ _ _ _ _ completes, ?_⟩
  unfold Leaves at leaves
  rw [same, (inspectRecursive_ok_iff _ _ _ _ _).mpr completes] at leaves
  exact ⟨leaves.limited, leaves.depth⟩

end Mirage.ArchiveConfinement
