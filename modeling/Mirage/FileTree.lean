import Mathlib.Data.List.Infix
import Mathlib.Logic.Function.Basic

/-! File trees with symbolic links. -/

namespace Mirage.FileTree

abbrev Loc := List String

inductive Node (κ μ : Type) where
  | dir (info : μ)
  | file (content : κ) (info : μ)
  | link (target : String)

structure Tree (κ μ : Type) where
  node : Loc → Option (Node κ μ)
  root : ∃ info, node [] = some (.dir info)
  parent : ∀ n p x, node (n :: p) = some x → ∃ info, node p = some (.dir info)

def names (path : String) : List String :=
  ((path.toList.splitOn '/').map String.ofList).filter fun n => n ≠ "" && n ≠ "."

def absolute (path : String) : Bool := path.toList.head? = some '/'

namespace Tree

variable {κ μ : Type}

theorem ext_node {t t' : Tree κ μ} (same : ∀ p, t.node p = t'.node p) : t = t' := by
  obtain ⟨node, root, parent⟩ := t
  obtain ⟨node', root', parent'⟩ := t'
  have : node = node' := funext same
  subst this
  rfl

def isDir (t : Tree κ μ) (p : Loc) : Bool :=
  match t.node p with
  | some (.dir _) => true
  | _ => false

def isFile (t : Tree κ μ) (p : Loc) : Bool :=
  match t.node p with
  | some (.file _ _) => true
  | _ => false

def link? (t : Tree κ μ) (p : Loc) : Option String :=
  match t.node p with
  | some (.link target) => some target
  | _ => none

theorem isDir_iff {t : Tree κ μ} {p : Loc} : t.isDir p = true ↔ ∃ info, t.node p = some (.dir info) := by
  unfold isDir
  split
  next info found => simp [found]
  next other =>
    constructor
    · intro h
      cases h
    · rintro ⟨info, found⟩
      exact absurd found (other info)

@[simp] theorem isDir_root (t : Tree κ μ) : t.isDir [] = true := isDir_iff.mpr t.root

theorem isDir_parent {t : Tree κ μ} {n : String} {p : Loc} (found : t.node (n :: p) ≠ none) :
    t.isDir p = true := by
  obtain ⟨x, hx⟩ := Option.ne_none_iff_exists'.mp found
  exact isDir_iff.mpr (t.parent n p x hx)

theorem node_of_isDir {t : Tree κ μ} {p : Loc} (dir : t.isDir p = true) : t.node p ≠ none := by
  obtain ⟨info, found⟩ := isDir_iff.mp dir
  rw [found]
  simp

theorem isDir_of_suffix {t : Tree κ μ} {p q : Loc} (under : q <:+ p) (proper : q ≠ p)
    (found : t.node p ≠ none) : t.isDir q = true := by
  induction p with
  | nil => exact absurd (List.suffix_nil.mp under) proper
  | cons n p ih =>
    rcases List.suffix_cons_iff.mp under with same | under
    · exact absurd same proper
    · have dir := isDir_parent found
      by_cases same : q = p
      · rw [same]
        exact dir
      · exact ih under same (node_of_isDir dir)

theorem node_of_not_isDir {t : Tree κ μ} {p q : Loc} (under : q <:+ p) (proper : q ≠ p)
    (leaf : t.isDir q = false) : t.node p = none := by
  by_contra found
  have := isDir_of_suffix under proper found
  rw [leaf] at this
  cases this

theorem node_of_missing {t : Tree κ μ} {p q : Loc} (under : q <:+ p) (missing : t.node q = none) :
    t.node p = none := by
  by_cases same : q = p
  · rw [← same]
    exact missing
  · refine node_of_not_isDir under same ?_
    simp [isDir, missing]

/-- From `here` along the names; what follows a link is left to `onLink`. -/
def walkNames (t : Tree κ μ) (onLink : Loc → List String → Option Loc) :
    Loc → List String → Option Loc
  | here, [] => some here
  | here, n :: rest =>
    if n = ".." then t.walkNames onLink here.tail rest
    else
      match t.link? (n :: here) with
      | some target => onLink (if absolute target then [] else here) (names target ++ rest)
      | none => t.walkNames onLink (n :: here) rest

/-- From `here` along the names, through at most so many links. -/
def walk (t : Tree κ μ) : ℕ → Loc → List String → Option Loc
  | 0 => t.walkNames fun _ _ => none
  | limit + 1 => t.walkNames (t.walk limit)

def follow (t : Tree κ μ) (limit : ℕ) (p : Loc) : Option Loc := t.walk limit [] p.reverse

def LinkFree (t : Tree κ μ) (p : Loc) : Prop := ∀ q, q <:+ p → t.link? q = none

structure Settled (t : Tree κ μ) (p : Loc) : Prop where
  linkFree : t.LinkFree p
  plain : ".." ∉ p

theorem linkFree_nil (t : Tree κ μ) : t.LinkFree [] := by
  intro q under
  rw [List.suffix_nil.mp under]
  obtain ⟨info, found⟩ := t.root
  simp [link?, found]

theorem settled_nil (t : Tree κ μ) : t.Settled [] := ⟨t.linkFree_nil, List.not_mem_nil⟩

theorem Settled.suffix {t : Tree κ μ} {p q : Loc} (settled : t.Settled p) (under : q <:+ p) :
    t.Settled q :=
  ⟨fun r below => settled.linkFree r (below.trans under),
    fun mem => settled.plain (under.subset mem)⟩

theorem Settled.tail {t : Tree κ μ} {p : Loc} (settled : t.Settled p) : t.Settled p.tail :=
  settled.suffix (List.tail_suffix p)

theorem Settled.cons {t : Tree κ μ} {n : String} {p : Loc} (settled : t.Settled p) (name : n ≠ "..")
    (leaf : t.link? (n :: p) = none) : t.Settled (n :: p) := by
  refine ⟨fun q under => ?_, ?_⟩
  · rcases List.suffix_cons_iff.mp under with same | under
    · rw [same]
      exact leaf
    · exact settled.linkFree q under
  · rw [List.mem_cons]
    rintro (same | mem)
    · exact name same.symm
    · exact settled.plain mem

theorem walkNames_settled {t : Tree κ μ} {onLink : Loc → List String → Option Loc}
    (rec : ∀ here rest p, t.Settled here → onLink here rest = some p → t.Settled p) {here : Loc}
    {rest : List String} {p : Loc} (settled : t.Settled here)
    (walked : t.walkNames onLink here rest = some p) : t.Settled p := by
  induction rest generalizing here with
  | nil =>
    cases walked
    exact settled
  | cons n rest ih =>
    simp only [walkNames] at walked
    split at walked
    next => exact ih settled.tail walked
    next name =>
      split at walked
      next target found =>
        refine rec _ _ _ ?_ walked
        split
        · exact t.settled_nil
        · exact settled
      next leaf => exact ih (settled.cons name leaf) walked

theorem walk_settled {t : Tree κ μ} {limit : ℕ} {here : Loc} {rest : List String} {p : Loc}
    (settled : t.Settled here) (walked : t.walk limit here rest = some p) : t.Settled p := by
  induction limit generalizing here rest p with
  | zero => exact walkNames_settled (fun _ _ _ _ refused => by cases refused) settled walked
  | succ limit ih => exact walkNames_settled (fun _ _ _ => ih) settled walked

theorem follow_settled {t : Tree κ μ} {limit : ℕ} {p q : Loc} (found : t.follow limit p = some q) :
    t.Settled q :=
  walk_settled t.settled_nil found

theorem walkNames_linkFree {t : Tree κ μ} (onLink : Loc → List String → Option Loc) {here : Loc}
    {rest : List String} (free : t.LinkFree (rest.reverse ++ here)) (plain : ".." ∉ rest) :
    t.walkNames onLink here rest = some (rest.reverse ++ here) := by
  induction rest generalizing here with
  | nil => rfl
  | cons n rest ih =>
    rw [List.mem_cons, not_or] at plain
    rw [List.reverse_cons, List.append_assoc, List.singleton_append] at free ⊢
    have leaf : t.link? (n :: here) = none := free _ (List.suffix_append _ _)
    rw [walkNames, if_neg (fun same => plain.1 same.symm), leaf]
    exact ih free plain.2

theorem Settled.follow {t : Tree κ μ} {p : Loc} (settled : t.Settled p) (limit : ℕ) :
    t.follow limit p = some p := by
  have free : t.LinkFree (p.reverse.reverse ++ []) := by
    rw [List.reverse_reverse, List.append_nil]
    exact settled.linkFree
  have plain : ".." ∉ p.reverse := fun mem => settled.plain (List.mem_reverse.mp mem)
  have walked : ∀ onLink, t.walkNames onLink [] p.reverse = some p := by
    intro onLink
    have walked := walkNames_linkFree onLink free plain
    rwa [List.reverse_reverse, List.append_nil] at walked
  cases limit with
  | zero => exact walked _
  | succ limit => exact walked _

theorem walkNames_congr {t t' : Tree κ μ} (same : ∀ p, t'.link? p = t.link? p)
    {onLink onLink' : Loc → List String → Option Loc}
    (rec : ∀ here rest, onLink' here rest = onLink here rest) (here : Loc) (rest : List String) :
    t'.walkNames onLink' here rest = t.walkNames onLink here rest := by
  induction rest generalizing here with
  | nil => rfl
  | cons n rest ih => simp only [walkNames, same, rec, ih]

theorem walk_congr {t t' : Tree κ μ} (same : ∀ p, t'.link? p = t.link? p) (limit : ℕ) (here : Loc)
    (rest : List String) : t'.walk limit here rest = t.walk limit here rest := by
  induction limit generalizing here rest with
  | zero => exact walkNames_congr same (fun _ _ => rfl) here rest
  | succ limit ih => exact walkNames_congr same ih here rest

theorem follow_congr {t t' : Tree κ μ} (same : ∀ p, t'.link? p = t.link? p) (limit : ℕ) (p : Loc) :
    t'.follow limit p = t.follow limit p :=
  walk_congr same limit [] p.reverse

theorem Settled.congr {t t' : Tree κ μ} {p : Loc} (settled : t.Settled p)
    (same : ∀ q, q <:+ p → t'.link? q = t.link? q) : t'.Settled p :=
  ⟨fun q under => (same q under).trans (settled.linkFree q under), settled.plain⟩

def put (t : Tree κ μ) (n : String) (p : Loc) (x : Node κ μ) (dir : t.isDir p = true)
    (leaf : t.isDir (n :: p) = false) : Tree κ μ where
  node := Function.update t.node (n :: p) (some x)
  root := by
    rw [Function.update_of_ne (List.cons_ne_nil n p).symm]
    exact t.root
  parent := by
    intro m q y found
    by_cases here : m :: q = n :: p
    · cases here
      rw [Function.update_of_ne (List.cons_ne_self n p).symm]
      exact isDir_iff.mp dir
    · rw [Function.update_of_ne here] at found
      by_cases below : q = n :: p
      · subst below
        rw [node_of_not_isDir (List.suffix_cons m _) (List.cons_ne_self m _).symm leaf] at found
        cases found
      · rw [Function.update_of_ne below]
        exact t.parent m q y found

def remove (t : Tree κ μ) (p : Loc) (leaf : t.isDir p = false) : Tree κ μ where
  node := Function.update t.node p none
  root := by
    have proper : [] ≠ p := by
      rintro rfl
      rw [isDir_root] at leaf
      cases leaf
    rw [Function.update_of_ne proper]
    exact t.root
  parent := by
    intro m q y found
    by_cases here : m :: q = p
    · rw [here, Function.update_self] at found
      cases found
    · rw [Function.update_of_ne here] at found
      have dir := t.parent m q y found
      by_cases below : q = p
      · rw [below, ← isDir_iff, leaf] at dir
        cases dir
      · rw [Function.update_of_ne below]
        exact dir

def prune (t : Tree κ μ) (p : Loc) (proper : p ≠ []) : Tree κ μ where
  node r := if p <:+ r then none else t.node r
  root := by
    rw [if_neg (fun under => proper (List.suffix_nil.mp under))]
    exact t.root
  parent := by
    intro m q y found
    split at found
    · cases found
    next outside =>
      rw [if_neg (fun under => outside (under.trans (List.suffix_cons m q)))]
      exact t.parent m q y found

def clear (t : Tree κ μ) : Tree κ μ where
  node r := if r = [] then t.node [] else none
  root := by
    rw [if_pos rfl]
    exact t.root
  parent := by
    intro m q y found
    rw [if_neg (List.cons_ne_nil m q)] at found
    cases found

def relocate (src dst r : Loc) : Loc := r.take (r.length - dst.length) ++ src

@[simp] theorem relocate_append (src dst front : Loc) :
    relocate src dst (front ++ dst) = front ++ src := by
  simp [relocate]

def graft (t : Tree κ μ) (src dst : Loc) (dir : t.isDir dst.tail = true)
    (leaf : t.isDir dst = false) (apart : ¬ src <:+ dst) : Tree κ μ where
  node r :=
    if dst <:+ r then t.node (relocate src dst r) else if src <:+ r then none else t.node r
  root := by
    have proper : ¬ dst <:+ [] := by
      intro under
      rw [List.suffix_nil.mp under, isDir_root] at leaf
      cases leaf
    have proper' : ¬ src <:+ [] := by
      intro under
      exact apart (List.suffix_nil.mp under ▸ List.nil_suffix)
    rw [if_neg proper, if_neg proper']
    exact t.root
  parent := by
    intro m q y found
    by_cases under : dst <:+ m :: q
    · rw [if_pos under] at found
      rcases List.suffix_cons_iff.mp under with same | ⟨front, rfl⟩
      · -- the new place itself
        subst same
        rw [List.tail_cons] at dir
        rw [if_neg (fun below => List.cons_ne_self m q (List.IsSuffix.eq_of_length_le below (by simp))),
          if_neg (fun below => apart (below.trans (List.suffix_cons m q)))]
        exact isDir_iff.mp dir
      · rw [if_pos (List.suffix_append front dst), relocate_append]
        rw [← List.cons_append, relocate_append] at found
        exact t.parent m _ y found
    · rw [if_neg under] at found
      split at found
      · cases found
      next outside =>
        rw [if_neg (fun below => under (below.trans (List.suffix_cons m q))),
          if_neg (fun below => outside (below.trans (List.suffix_cons m q)))]
        exact t.parent m q y found

def Node.withInfo (info : μ) : Node κ μ → Node κ μ
  | .dir _ => .dir info
  | .file content _ => .file content info
  | .link target => .link target

def info? (t : Tree κ μ) (p : Loc) : Option μ :=
  match t.node p with
  | some (.dir info) | some (.file _ info) => some info
  | _ => none

def setInfo (t : Tree κ μ) (p : Loc) (info : μ) : Tree κ μ where
  node := Function.update t.node p ((t.node p).map (Node.withInfo info))
  root := by
    obtain ⟨old, found⟩ := t.root
    by_cases here : [] = p
    · subst here
      exact ⟨info, by rw [Function.update_self, found]; rfl⟩
    · exact ⟨old, by rw [Function.update_of_ne here, found]⟩
  parent := by
    intro m q y found
    have present : t.node (m :: q) ≠ none := by
      intro absent
      by_cases here : m :: q = p
      · rw [← here, Function.update_self, absent] at found
        cases found
      · rw [Function.update_of_ne here, absent] at found
        cases found
    obtain ⟨old, dir⟩ := isDir_iff.mp (isDir_parent present)
    by_cases here : q = p
    · subst here
      exact ⟨info, by rw [Function.update_self, dir]; rfl⟩
    · exact ⟨old, by rw [Function.update_of_ne here, dir]⟩

/-! The calls of the kernel. Each gives the tree after it and the locations it
has touched, with all that lies under them, or nothing where it fails and leaves
the tree alone. -/

def entry (t : Tree κ μ) (limit : ℕ) : Loc → Option Loc
  | [] => some []
  | n :: p => (t.follow limit p).map (n :: ·)

def existsAt (t : Tree κ μ) (limit : ℕ) (p : Loc) : Bool :=
  (t.follow limit p).any fun q => (t.node q).isSome

def isDirAt (t : Tree κ μ) (limit : ℕ) (p : Loc) : Bool :=
  (t.follow limit p).any fun q => t.isDir q

def contentAt (t : Tree κ μ) (limit : ℕ) (p : Loc) : Option κ :=
  match (t.follow limit p).bind t.node with
  | some (.file content _) => some content
  | _ => none

def mkdir (t : Tree κ μ) (limit : ℕ) (now : μ) (n : String) (p : Loc) :
    Option (Tree κ μ × List Loc) :=
  match t.follow limit p with
  | none => none
  | some q =>
    if h : t.isDir q = true ∧ t.node (n :: q) = none then
      some (t.put n q (.dir now) h.1 (by simp [isDir, h.2]), [n :: q])
    else none

def mkdirs (t : Tree κ μ) (limit : ℕ) (now : μ) : Loc → Option (Tree κ μ × List Loc)
  | [] => some (t, [])
  | n :: p =>
    if t.isDirAt limit (n :: p) then some (t, [])
    else if t.isDirAt limit p then t.mkdir limit now n p
    else
      match t.mkdirs limit now p with
      | none => none
      | some (t', made) => (t'.mkdir limit now n p).map fun (t'', last) => (t'', made ++ last)

/-- Open a file for writing and write it, with what it held before to hand. -/
def write (t : Tree κ μ) (limit : ℕ) (now : μ) (p : Loc) (content : Option κ → κ) :
    Option (Tree κ μ × List Loc) :=
  match t.follow limit p with
  | some (n :: q) =>
    if h : t.isDir q = true ∧ t.isDir (n :: q) = false then
      some (t.put n q (.file (content (t.contentAt limit p)) ((t.info? (n :: q)).getD now)) h.1 h.2,
        [n :: q])
    else none
  | _ => none

def unlink (t : Tree κ μ) (limit : ℕ) (p : Loc) : Option (Tree κ μ × List Loc) :=
  match t.entry limit p with
  | none => none
  | some q =>
    if h : t.isDir q = false ∧ (t.node q).isSome = true then some (t.remove q h.1, [q]) else none

def rmtree (t : Tree κ μ) (limit : ℕ) (p : Loc) : Option (Tree κ μ × List Loc) :=
  match t.entry limit p with
  | none => none
  | some q =>
    if h : t.isDir q = true ∧ q ≠ [] then some (t.prune q h.2, [q]) else none

/-- `os.rename`, between two entries. -/
def rename (t : Tree κ μ) (src dst : Loc) : Option (Tree κ μ × List Loc) :=
  if t.node src = none ∨ src = [] then none
  else if src = dst then some (t, [])
  else if t.isDir src = true ∧ t.node dst ≠ none then none
  else if h : t.isDir dst.tail = true ∧ t.isDir dst = false ∧ ¬ src <:+ dst then
    some (t.graft src dst h.1 h.2.1 h.2.2, [src, dst])
  else none

/-- `shutil.move` within one file system, of anything but a link. -/
def move (t : Tree κ μ) (limit : ℕ) (src dst : Loc) : Option (Tree κ μ × List Loc) :=
  match t.entry limit src with
  | none => none
  | some source =>
    if t.isDirAt limit dst && t.follow limit src ≠ t.follow limit dst then
      let inside := src.headD "" :: dst
      if t.existsAt limit inside then none
      else (t.entry limit inside).bind fun target => t.rename source target
    else (t.entry limit dst).bind fun target => t.rename source target

def utime (t : Tree κ μ) (limit : ℕ) (p : Loc) (info : μ) : Option (Tree κ μ × List Loc) :=
  match t.follow limit p with
  | none => none
  | some q => if (t.info? q).isSome then some (t.setInfo q info, [q]) else none

def symlink (t : Tree κ μ) (limit : ℕ) (target : String) (p : Loc) : Option (Tree κ μ × List Loc) :=
  match t.entry limit p with
  | some (n :: q) =>
    if h : t.isDir q = true ∧ t.node (n :: q) = none then
      some (t.put n q (.link target) h.1 (by simp [isDir, h.2]), [n :: q])
    else none
  | _ => none

def Logged (f : Tree κ μ → Option (Tree κ μ × List Loc)) : Prop :=
  ∀ t t' touched, f t = some (t', touched) →
    ∀ r, (∀ q ∈ touched, ¬ q <:+ r) → t'.node r = t.node r

theorem put_outside {t : Tree κ μ} {n : String} {p : Loc} {x : Node κ μ}
    (dir : t.isDir p = true) (leaf : t.isDir (n :: p) = false) {r : Loc}
    (outside : ¬ (n :: p) <:+ r) : (t.put n p x dir leaf).node r = t.node r := by
  apply Function.update_of_ne
  rintro rfl
  exact outside (List.suffix_refl _)

theorem mkdir_logged (limit : ℕ) (now : μ) (n : String) (p : Loc) :
    Logged fun t : Tree κ μ => t.mkdir limit now n p := by
  intro t t' touched done r outside
  simp only [mkdir] at done
  split at done
  · cases done
  · split at done
    · cases done
      exact put_outside _ _ (outside _ (List.mem_singleton_self _))
    · cases done

theorem mkdirs_logged (limit : ℕ) (now : μ) (p : Loc) :
    Logged fun t : Tree κ μ => t.mkdirs limit now p := by
  induction p with
  | nil =>
    intro t t' touched done r outside
    cases done
    rfl
  | cons n p ih =>
    intro t t' touched done r outside
    simp only [mkdirs] at done
    split at done
    · cases done
      rfl
    · split at done
      · exact mkdir_logged limit now n p t t' touched done r outside
      · split at done
        · cases done
        next t₁ made first =>
          obtain ⟨⟨t₂, last⟩, second, same⟩ := Option.map_eq_some_iff.mp done
          cases same
          have before := ih t t₁ made first r fun q mem => outside q (List.mem_append_left _ mem)
          have after := mkdir_logged limit now n p t₁ t₂ last second r
            fun q mem => outside q (List.mem_append_right _ mem)
          rw [after, before]

theorem write_logged (limit : ℕ) (now : μ) (p : Loc) (content : Option κ → κ) :
    Logged fun t : Tree κ μ => t.write limit now p content := by
  intro t t' touched done r outside
  simp only [write] at done
  split at done
  · split at done
    · cases done
      exact put_outside _ _ (outside _ (List.mem_singleton_self _))
    · cases done
  · cases done

theorem unlink_logged (limit : ℕ) (p : Loc) : Logged fun t : Tree κ μ => t.unlink limit p := by
  intro t t' touched done r outside
  simp only [unlink] at done
  split at done
  · cases done
  next q found =>
    split at done
    · cases done
      apply Function.update_of_ne
      rintro rfl
      exact outside r (List.mem_singleton_self r) (List.suffix_refl r)
    · cases done

theorem rmtree_logged (limit : ℕ) (p : Loc) : Logged fun t : Tree κ μ => t.rmtree limit p := by
  intro t t' touched done r outside
  simp only [rmtree] at done
  split at done
  · cases done
  · split at done
    · cases done
      exact if_neg (outside _ (List.mem_singleton_self _))
    · cases done

theorem rename_logged (src dst : Loc) : Logged fun t : Tree κ μ => t.rename src dst := by
  intro t t' touched done r outside
  simp only [rename] at done
  split at done
  · cases done
  · split at done
    · cases done
      rfl
    · split at done
      · cases done
      · split at done
        · cases done
          have notDst := outside dst (List.mem_cons_of_mem _ (List.mem_singleton_self _))
          have notSrc := outside src List.mem_cons_self
          exact (if_neg notDst).trans (if_neg notSrc)
        · cases done

theorem move_logged (limit : ℕ) (src dst : Loc) :
    Logged fun t : Tree κ μ => t.move limit src dst := by
  intro t t' touched done r outside
  simp only [move] at done
  split at done
  · cases done
  next source found =>
    split at done
    · split at done
      · cases done
      · obtain ⟨target, -, renamed⟩ := Option.bind_eq_some_iff.mp done
        exact rename_logged source target t t' touched renamed r outside
    · obtain ⟨target, -, renamed⟩ := Option.bind_eq_some_iff.mp done
      exact rename_logged source target t t' touched renamed r outside

theorem utime_logged (limit : ℕ) (p : Loc) (info : μ) :
    Logged fun t : Tree κ μ => t.utime limit p info := by
  intro t t' touched done r outside
  simp only [utime] at done
  split at done
  · cases done
  · split at done
    · cases done
      apply Function.update_of_ne
      rintro rfl
      exact outside r (List.mem_singleton_self r) (List.suffix_refl r)
    · cases done

theorem symlink_logged (limit : ℕ) (target : String) (p : Loc) :
    Logged fun t : Tree κ μ => t.symlink limit target p := by
  intro t t' touched done r outside
  simp only [symlink] at done
  split at done
  · split at done
    · cases done
      exact put_outside _ _ (outside _ (List.mem_singleton_self _))
    · cases done
  · cases done

/-! At a settled location, the calls act on the node itself. -/

theorem Settled.entry {t : Tree κ μ} {p : Loc} (settled : t.Settled p) (limit : ℕ) :
    t.entry limit p = some p := by
  cases p with
  | nil => rfl
  | cons n p =>
    have tail := settled.tail.follow limit
    rw [List.tail_cons] at tail
    rw [Tree.entry, tail]
    rfl

theorem Settled.existsAt {t : Tree κ μ} {p : Loc} (settled : t.Settled p) (limit : ℕ) :
    t.existsAt limit p = (t.node p).isSome := by
  rw [Tree.existsAt, settled.follow]
  rfl

theorem Settled.isDirAt {t : Tree κ μ} {p : Loc} (settled : t.Settled p) (limit : ℕ) :
    t.isDirAt limit p = t.isDir p := by
  rw [Tree.isDirAt, settled.follow]
  rfl

theorem mkdirs_of_isDirAt {t : Tree κ μ} {limit : ℕ} {p : Loc} (dir : t.isDirAt limit p = true)
    (now : μ) : t.mkdirs limit now p = some (t, []) := by
  cases p with
  | nil => rfl
  | cons n p => rw [mkdirs, if_pos dir]

theorem isDir_of_none {t : Tree κ μ} {p : Loc} (missing : t.node p = none) : t.isDir p = false := by
  simp [isDir, missing]

theorem put_link? {t : Tree κ μ} {n : String} {p : Loc} {x : Node κ μ} (dir : t.isDir p = true)
    (free : t.isDir (n :: p) = false) (still : t.link? (n :: p) = none)
    (leaf : ∀ target, x ≠ .link target) (q : Loc) : (t.put n p x dir free).link? q = t.link? q := by
  by_cases here : q = n :: p
  · subst here
    rw [still]
    simp only [link?, put, Function.update_self]
    cases x with
    | dir info => rfl
    | file content info => rfl
    | link target => exact absurd rfl (leaf target)
  · simp only [link?, put, Function.update_of_ne here]

theorem link?_of_none {t : Tree κ μ} {p : Loc} (missing : t.node p = none) : t.link? p = none := by
  simp [link?, missing]

structure Extends (t t' : Tree κ μ) (p : Loc) : Prop where
  missing : t.node p = none
  outside : ∀ r, ¬ p <:+ r → t'.node r = t.node r
  links : ∀ q, t'.link? q = t.link? q

theorem extends_put {t : Tree κ μ} {n : String} {p : Loc} {x : Node κ μ} (dir : t.isDir p = true)
    (missing : t.node (n :: p) = none) (leaf : ∀ target, x ≠ .link target) :
    Extends t (t.put n p x dir (isDir_of_none missing)) (n :: p) :=
  ⟨missing, fun _ outside => put_outside dir _ outside, put_link? dir _ (link?_of_none missing) leaf⟩

theorem Extends.prune {t t' : Tree κ μ} {p : Loc} (made : Extends t t' p) (proper : p ≠ []) :
    t'.prune p proper = t := by
  apply ext_node
  intro r
  by_cases under : p <:+ r
  · simp only [Tree.prune, if_pos under, node_of_missing under made.missing]
  · simp only [Tree.prune, if_neg under, made.outside r under]

theorem Extends.remove {t t' : Tree κ μ} {p : Loc} (made : Extends t t' p)
    (leaf : t'.isDir p = false) : t'.remove p leaf = t := by
  apply ext_node
  intro r
  by_cases here : r = p
  · subst here
    simp only [Tree.remove, Function.update_self, made.missing]
  · simp only [Tree.remove, Function.update_of_ne here]
    by_cases under : p <:+ r
    · rw [node_of_missing under made.missing]
      exact node_of_not_isDir under (fun same => here same.symm) leaf
    · exact made.outside r under

theorem Extends.put {t t' : Tree κ μ} {p : Loc} (made : Extends t t' p) {n : String} {x : Node κ μ}
    (dir : t'.isDir p = true) (missing : t'.node (n :: p) = none) (leaf : ∀ target, x ≠ .link target) :
    Extends t (t'.put n p x dir (isDir_of_none missing)) p := by
  refine ⟨made.missing, fun r outside => ?_, fun q => ?_⟩
  · rw [put_outside dir _ fun under => outside ((List.suffix_cons n p).trans under)]
    exact made.outside r outside
  · rw [put_link? dir _ (link?_of_none missing) leaf]
    exact made.links q

theorem info?_setInfo {t : Tree κ μ} {p : Loc} {old : μ} (had : t.info? p = some old) (info : μ) :
    (t.setInfo p info).info? p = some info := by
  unfold info? at had ⊢
  simp only [setInfo, Function.update_self]
  split at had
  next found =>
    rw [found]
    rfl
  next found =>
    rw [found]
    rfl
  next => cases had

theorem setInfo_link? (t : Tree κ μ) (p : Loc) (info : μ) (q : Loc) :
    (t.setInfo p info).link? q = t.link? q := by
  by_cases here : q = p
  · subst here
    simp only [link?, setInfo, Function.update_self]
    rcases t.node q with _ | (_ | _ | _) <;> rfl
  · simp only [link?, setInfo, Function.update_of_ne here]

theorem Extends.setInfo {t t' : Tree κ μ} {p : Loc} (made : Extends t t' p) (info : μ) :
    Extends t (t'.setInfo p info) p := by
  refine ⟨made.missing, fun r outside => ?_, fun q => ?_⟩
  · have other : r ≠ p := by
      rintro rfl
      exact outside (List.suffix_refl r)
    simp only [Tree.setInfo, Function.update_of_ne other]
    exact made.outside r outside
  · rw [setInfo_link?]
    exact made.links q

theorem setInfo_setInfo {t : Tree κ μ} {p : Loc} {old : μ} (had : t.info? p = some old) (info : μ) :
    (t.setInfo p info).setInfo p old = t := by
  apply ext_node
  intro r
  by_cases here : r = p
  · subst here
    simp only [setInfo, Function.update_self]
    unfold info? at had
    split at had
    next found =>
      cases had
      rw [found]
      rfl
    next found =>
      cases had
      rw [found]
      rfl
    next => cases had
  · simp only [setInfo, Function.update_of_ne here]

def writable (t : Tree κ μ) (limit : ℕ) (p : Loc) : Bool :=
  match t.follow limit p with
  | some (n :: q) => t.isDir q && !t.isDir (n :: q)
  | _ => false

theorem write_unwritable {t : Tree κ μ} {limit : ℕ} {p : Loc} (unwritable : t.writable limit p = false)
    (now : μ) (content : Option κ → κ) : t.write limit now p content = none := by
  unfold writable at unwritable
  unfold write
  split
  next n q found =>
    rw [found] at unwritable
    rw [dif_neg]
    rintro ⟨dir, leaf⟩
    simp [dir, leaf] at unwritable
  next => rfl

theorem unwritable_of_write {t : Tree κ μ} {limit : ℕ} {now : μ} {p : Loc} {content : Option κ → κ}
    (refused : t.write limit now p content = none) : t.writable limit p = false := by
  unfold write at refused
  unfold writable
  split at refused
  next n q found =>
    split at refused
    next => cases refused
    next shut =>
      rw [Bool.eq_false_iff]
      simpa [found] using shut
  next => rfl

theorem write_new {t : Tree κ μ} {limit : ℕ} {p : Loc} {n : String} {q : Loc}
    (found : t.follow limit p = some (n :: q)) (dir : t.isDir q = true)
    (missing : t.node (n :: q) = none) (now : μ) (content : κ) :
    t.write limit now p (fun _ => content) =
      some (t.put n q (.file content now) dir (isDir_of_none missing), [n :: q]) := by
  have times : t.info? (n :: q) = none := by
    simp [info?, missing]
  unfold write
  rw [found]
  simp only [dir, isDir_of_none missing, times, Option.getD_none, and_self, dite_true]

theorem mkdirs_new {t : Tree κ μ} {n : String} {p : Loc} (settled : t.Settled (n :: p))
    (dir : t.isDir p = true) (missing : t.node (n :: p) = none) (limit : ℕ) (now : μ) :
    t.mkdirs limit now (n :: p) =
      some (t.put n p (.dir now) dir (isDir_of_none missing), [n :: p]) := by
  have tail : t.Settled p := settled.tail
  rw [mkdirs, settled.isDirAt, isDir_of_none missing, if_neg Bool.false_ne_true, tail.isDirAt,
    if_pos dir, mkdir, tail.follow]
  simp only [dir, missing, and_self, dite_true]

theorem walkNames_snoc {t : Tree κ μ} {onLink : Loc → List String → Option Loc} {n : String} {q : Loc}
    (name : n ≠ "..") (leaf : t.link? (n :: q) = none)
    (rec : ∀ here rest, onLink here rest = some q → onLink here (rest ++ [n]) = some (n :: q))
    {here : Loc} {rest : List String} (walked : t.walkNames onLink here rest = some q) :
    t.walkNames onLink here (rest ++ [n]) = some (n :: q) := by
  induction rest generalizing here with
  | nil =>
    cases walked
    simp only [List.nil_append, walkNames, if_neg name, leaf]
  | cons m rest ih =>
    simp only [walkNames] at walked
    simp only [List.cons_append, walkNames]
    split
    next up =>
      rw [if_pos up] at walked
      exact ih walked
    next down =>
      rw [if_neg down] at walked
      split
      next target found =>
        simp only [found] at walked
        rw [← List.append_assoc]
        exact rec _ _ walked
      next found =>
        simp only [found] at walked
        exact ih walked

theorem walk_snoc {t : Tree κ μ} {limit : ℕ} {n : String} {q : Loc} (name : n ≠ "..")
    (leaf : t.link? (n :: q) = none) {here : Loc} {rest : List String}
    (walked : t.walk limit here rest = some q) :
    t.walk limit here (rest ++ [n]) = some (n :: q) := by
  induction limit generalizing here rest with
  | zero => exact walkNames_snoc name leaf (fun _ _ refused => by cases refused) walked
  | succ limit ih => exact walkNames_snoc name leaf (fun _ _ => ih) walked

theorem follow_cons {t : Tree κ μ} {limit : ℕ} {n : String} {p q : Loc} (name : n ≠ "..")
    (leaf : t.link? (n :: q) = none) (found : t.follow limit p = some q) :
    t.follow limit (n :: p) = some (n :: q) := by
  rw [follow, List.reverse_cons]
  exact walk_snoc name leaf found

theorem mkdir_links {t t' : Tree κ μ} {limit : ℕ} {now : μ} {n : String} {p : Loc} {made : List Loc}
    (done : t.mkdir limit now n p = some (t', made)) (q : Loc) : t'.link? q = t.link? q := by
  unfold mkdir at done
  split at done
  · cases done
  · split at done
    next h =>
      cases done
      exact put_link? h.1 _ (link?_of_none h.2) (fun target same => by cases same) q
    next => cases done

theorem mkdirs_links {t t' : Tree κ μ} {limit : ℕ} {now : μ} {p : Loc} {made : List Loc}
    (done : t.mkdirs limit now p = some (t', made)) (q : Loc) : t'.link? q = t.link? q := by
  induction p generalizing t' made with
  | nil =>
    cases done
    rfl
  | cons n p ih =>
    simp only [mkdirs] at done
    split at done
    · cases done
      rfl
    · split at done
      · exact mkdir_links done q
      · split at done
        · cases done
        next t₁ made₁ first =>
          obtain ⟨⟨t₂, last⟩, second, same⟩ := Option.map_eq_some_iff.mp done
          cases same
          rw [mkdir_links second, ih first]

/-- On the way to a location that leads to itself, what is made are the
directories that are missing. -/
theorem mkdirs_made {t t' : Tree κ μ} {limit : ℕ} {now : μ} {p : Loc} {made : List Loc}
    (settled : t.Settled p) (done : t.mkdirs limit now p = some (t', made)) :
    ∀ q ∈ made, q <:+ p ∧ t.isDir q = false := by
  induction p generalizing t' made with
  | nil =>
    cases done
    exact fun q mem => nomatch mem
  | cons n p ih =>
    have last : ∀ {t₁ t₂ : Tree κ μ} {made₂ : List Loc}, t₁.Settled p →
        t₁.mkdir limit now n p = some (t₂, made₂) → made₂ = [n :: p] := by
      intro t₁ t₂ made₂ settled' second
      rw [mkdir, settled'.follow] at second
      dsimp only at second
      split at second
      · cases second
        rfl
      · cases second
    have tail : t.Settled p := settled.tail
    simp only [mkdirs, settled.isDirAt, tail.isDirAt] at done
    split at done
    · cases done
      exact fun q mem => nomatch mem
    next missing =>
      rw [Bool.not_eq_true] at missing
      split at done
      · rw [last tail done]
        intro q mem
        rw [List.mem_singleton.mp mem]
        exact ⟨List.suffix_refl _, missing⟩
      · split at done
        · cases done
        next t₁ made₁ first =>
          obtain ⟨⟨t₂, made₂⟩, second, same⟩ := Option.map_eq_some_iff.mp done
          cases same
          rw [last (tail.congr fun q _ => mkdirs_links first q) second]
          intro q mem
          rcases List.mem_append.mp mem with mem | mem
          · exact ⟨(ih tail first q mem).1.trans (List.suffix_cons n p), (ih tail first q mem).2⟩
          · rw [List.mem_singleton.mp mem]
            exact ⟨List.suffix_refl _, missing⟩

theorem mkdir_grown {t t' : Tree κ μ} {limit : ℕ} {now : μ} {n : String} {p : Loc} {made : List Loc}
    (done : t.mkdir limit now n p = some (t', made)) (r : Loc) :
    t'.node r = t.node r ∨ (t.node r = none ∧ t'.isDir r = true) := by
  unfold mkdir at done
  split at done
  · cases done
  · split at done
    next q _ h =>
      cases done
      by_cases here : r = n :: q
      · refine .inr ⟨here ▸ h.2, isDir_iff.mpr ⟨now, ?_⟩⟩
        rw [here]
        exact Function.update_self _ _ _
      · exact .inl (Function.update_of_ne here _ _)
    next => cases done

theorem mkdirs_grown {t t' : Tree κ μ} {limit : ℕ} {now : μ} {p : Loc} {made : List Loc}
    (done : t.mkdirs limit now p = some (t', made)) (r : Loc) :
    t'.node r = t.node r ∨ (t.node r = none ∧ t'.isDir r = true) := by
  induction p generalizing t' made with
  | nil =>
    cases done
    exact .inl rfl
  | cons n p ih =>
    simp only [mkdirs] at done
    split at done
    · cases done
      exact .inl rfl
    · split at done
      · exact mkdir_grown done r
      · split at done
        · cases done
        next t₁ made₁ first =>
          obtain ⟨⟨t₂, last⟩, second, same⟩ := Option.map_eq_some_iff.mp done
          cases same
          rcases mkdir_grown second r with same' | ⟨missing, dir⟩
          · rcases ih first with same | ⟨missing, dir⟩
            · exact .inl (same'.trans same)
            · refine .inr ⟨missing, ?_⟩
              rwa [isDir, same', ← isDir]
          · rcases ih first with same | ⟨-, dir'⟩
            · exact .inr ⟨same ▸ missing, dir⟩
            · rw [isDir_of_none missing] at dir'
              cases dir'

theorem mkdir_writable {t t' : Tree κ μ} {limit : ℕ} {now : μ} {n m : String} {p : Loc} {made : List Loc}
    (done : t.mkdir limit now n p = some (t', made)) (name : n ≠ "..") (name' : m ≠ "..") :
    t'.writable limit (m :: n :: p) = true := by
  have links := mkdir_links done
  unfold mkdir at done
  split at done
  · cases done
  next q found =>
    split at done
    next h =>
      cases done
      have missing : t.node (m :: n :: q) = none := node_of_missing (List.suffix_cons m _) h.2
      have missing' : (t.put n q (.dir now) h.1 (isDir_of_none h.2)).node (m :: n :: q) = none :=
        (Function.update_of_ne (List.cons_ne_self m _) _ _).trans missing
      have dir : (t.put n q (.dir now) h.1 (isDir_of_none h.2)).isDir (n :: q) = true :=
        isDir_iff.mpr ⟨now, Function.update_self _ _ _⟩
      rw [← follow_congr links limit] at found
      have found' := follow_cons name ((links _).trans (link?_of_none h.2)) found
      have found'' := follow_cons name' (link?_of_none missing') found'
      rw [writable, found'']
      simp only [dir, isDir_of_none missing', Bool.not_false, Bool.and_self]
    next => cases done

theorem mkdirs_writable {t t' : Tree κ μ} {limit : ℕ} {now : μ} {n m : String} {p : Loc} {made : List Loc}
    (done : t.mkdirs limit now (n :: p) = some (t', made)) (name : n ≠ "..") (name' : m ≠ "..") :
    t' = t ∨ t'.writable limit (m :: n :: p) = true := by
  simp only [mkdirs] at done
  split at done
  · cases done
    exact .inl rfl
  · split at done
    · exact .inr (mkdir_writable done name name')
    · split at done
      · cases done
      next t₁ made₁ first =>
        obtain ⟨⟨t₂, last⟩, second, same⟩ := Option.map_eq_some_iff.mp done
        cases same
        exact .inr (mkdir_writable second name name')

theorem write_links {t t' : Tree κ μ} {limit : ℕ} {now : μ} {p : Loc} {content : Option κ → κ}
    {touched : List Loc} (done : t.write limit now p content = some (t', touched)) (q : Loc) :
    t'.link? q = t.link? q := by
  unfold write at done
  split at done
  next n r found =>
    split at done
    next h =>
      cases done
      have still := (follow_settled found).linkFree (n :: r) (List.suffix_refl _)
      exact put_link? h.1 h.2 still (fun target same => by cases same) q
    next => cases done
  next => cases done

theorem suffix_antisymm {p q : Loc} (under : p <:+ q) (above : q <:+ p) : p = q :=
  under.eq_of_length (le_antisymm under.length_le above.length_le)

section
variable {t : Tree κ μ} {src dst : Loc} (dir : t.isDir dst.tail = true) (leaf : t.isDir dst = false)
  (apart : ¬ src <:+ dst)

theorem graft_target : (t.graft src dst dir leaf apart).node dst = t.node src := by
  have here : relocate src dst dst = src := relocate_append src dst []
  simp only [graft, if_pos (List.suffix_refl dst), here]

theorem graft_source (apart' : ¬ dst <:+ src) : (t.graft src dst dir leaf apart).node src = none := by
  simp only [graft, if_neg apart', if_pos (List.suffix_refl src)]

theorem graft_outside {r : Loc} (notDst : ¬ dst <:+ r) (notSrc : ¬ src <:+ r) :
    (t.graft src dst dir leaf apart).node r = t.node r := by
  simp only [graft, if_neg notDst, if_neg notSrc]

theorem graft_link?_target (still : t.link? src = none) (free : t.LinkFree dst) {q : Loc}
    (under : q <:+ dst) : (t.graft src dst dir leaf apart).link? q = t.link? q := by
  by_cases same : q = dst
  · subst same
    rw [free q under, link?, graft_target]
    exact still
  · have notDst : ¬ dst <:+ q := fun above => same (suffix_antisymm under above)
    rw [link?, graft_outside dir leaf apart notDst fun above => apart (above.trans under)]
    rfl

theorem graft_link?_source (apart' : ¬ dst <:+ src) (free : t.LinkFree src) {q : Loc}
    (under : q <:+ src) : (t.graft src dst dir leaf apart).link? q = t.link? q := by
  by_cases same : q = src
  · subst same
    rw [free q under, link?, graft_source dir leaf apart apart']
  · have notSrc : ¬ src <:+ q := fun above => same (suffix_antisymm under above)
    rw [link?, graft_outside dir leaf apart (fun above => apart' (above.trans under)) notSrc]
    rfl

end

theorem rename_cases (t : Tree κ μ) (src dst : Loc) :
    t.rename src dst = none ∨ (src = dst ∧ t.rename src dst = some (t, [])) ∨
      ∃ dir leaf apart, src ≠ dst ∧ t.node src ≠ none ∧ src ≠ [] ∧
        ¬ (t.isDir src = true ∧ t.node dst ≠ none) ∧
        t.rename src dst = some (t.graft src dst dir leaf apart, [src, dst]) := by
  unfold rename
  split
  next => exact .inl rfl
  next there =>
    rw [not_or] at there
    split
    next same => exact .inr (.inl ⟨same, rfl⟩)
    next other =>
      split
      next => exact .inl rfl
      next free =>
        split
        next h => exact .inr (.inr ⟨h.1, h.2.1, h.2.2, other, there.1, there.2, free, rfl⟩)
        next => exact .inl rfl

theorem graft_graft {t : Tree κ μ} {src dst : Loc} (dir : t.isDir dst.tail = true)
    (leaf : t.isDir dst = false) (apart : ¬ src <:+ dst) (missing : t.node dst = none)
    (dir' : (t.graft src dst dir leaf apart).isDir src.tail = true)
    (leaf' : (t.graft src dst dir leaf apart).isDir src = false) (apart' : ¬ dst <:+ src) :
    (t.graft src dst dir leaf apart).graft dst src dir' leaf' apart' = t := by
  apply ext_node
  intro r
  simp only [graft]
  by_cases under : src <:+ r
  · obtain ⟨front, rfl⟩ := under
    rw [if_pos (List.suffix_append front src), relocate_append,
      if_pos (List.suffix_append front dst), relocate_append]
  · rw [if_neg under]
    by_cases under' : dst <:+ r
    · rw [if_pos under', node_of_missing under' missing]
    · rw [if_neg under', if_neg under', if_neg under]

end Tree
end Mirage.FileTree
