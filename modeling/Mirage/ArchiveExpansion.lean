import Mirage.ArtifactScanner
import Mathlib.Algebra.Order.Field.Rat
import Mathlib.Tactic.Ring

/-! The bytes that the walk of artifacts.py writes under its temporary directories, held against the limits
and against the size of the upload. -/

namespace Mirage.ArchiveExpansion
open PythonText RowLocks ArtifactScanner

/-! Computations that may raise, with what they are charged. -/

structure Charged (ε α : Type) where
  outcome : Except ε α
  cost : ℕ

namespace Charged
variable {ε α β σ : Type}

def free (outcome : Except ε α) : Charged ε α := ⟨outcome, 0⟩

def charge (n : ℕ) (x : Charged ε α) : Charged ε α := ⟨x.outcome, n + x.cost⟩

instance : Monad (Charged ε) where
  pure a := free (.ok a)
  bind x f :=
    match x.outcome with
    | .ok a => (f a).charge x.cost
    | .error e => ⟨.error e, x.cost⟩

def Ends (P : α → ℕ → Prop) (E : ℕ → Prop) (x : Charged ε α) : Prop :=
  match x.outcome with
  | .ok a => P a x.cost
  | .error _ => E x.cost

theorem Ends.charge {P : α → ℕ → Prop} {E : ℕ → Prop} {x : Charged ε α} {n : ℕ}
    (ends : Ends (fun a m => P a (n + m)) (fun m => E (n + m)) x) : Ends P E (x.charge n) := by
  obtain ⟨outcome, cost⟩ := x
  cases outcome <;> exact ends

theorem Ends.bind {P : α → ℕ → Prop} {Q : β → ℕ → Prop} {E : ℕ → Prop} {x : Charged ε α} {f : α → Charged ε β}
    (first : Ends P E x) (next : ∀ a n, P a n → Ends (fun b m => Q b (n + m)) (fun m => E (n + m)) (f a)) :
    Ends Q E (x >>= f) := by
  obtain ⟨outcome, cost⟩ := x
  cases outcome with
  | error e => exact first
  | ok a => exact Ends.charge (next a cost first)

theorem Ends.mono {P Q : α → ℕ → Prop} {E F : ℕ → Prop} {x : Charged ε α} (ends : Ends P E x)
    (results : ∀ a n, P a n → Q a n) (errors : ∀ n, E n → F n) : Ends Q F x := by
  obtain ⟨outcome, cost⟩ := x
  cases outcome with
  | error e => exact errors cost ends
  | ok a => exact results a cost ends

theorem Ends.foldlM {I : σ → ℕ → Prop} {E : ℕ → Prop} {f : σ → α → Charged ε σ}
    (body : ∀ s a n, I s n → Ends (fun s' m => I s' (n + m)) (fun m => E (n + m)) (f s a)) (items : List α) {s : σ}
    {n : ℕ} (start : I s n) : Ends (fun s' m => I s' (n + m)) (fun m => E (n + m)) (items.foldlM f s) := by
  induction items generalizing s n with
  | nil => exact start
  | cons a rest ih =>
    rw [List.foldlM_cons]
    refine Ends.bind (body s a n start) fun s' m kept => ?_
    simpa only [Nat.add_assoc] using ih kept

end Charged

open Charged

/-! The walk, charged with the bytes that it copies. -/

/-- What `copyfileobj` writes of a member of an archive, also when reading it raises: the readers of `zipfile` and
`tarfile` stop at the size in the header. -/
structure Copying (lib : Library) where
  bytes : lib.File → Entry lib.File → ℕ
  declared : ∀ archive e, bytes archive e ≤ e.expanded

section
variable (lib : Library) (config : Config)

def chargedRead (nested : Totals → lib.File → Charged Exc Totals) (s : State) :
    Except LibraryError lib.File → Charged Exc State
  | .error e => free (.error (.library e))
  | .ok content =>
    match isArchive lib content with
    | .ok true => do
      let totals ← nested s.totals content
      return { s with totals }
    | .ok false => free (.ok s)
    | .error e => free (.error (.library e))

def chargedExtract (copied : ℕ) (nested : Totals → lib.File → Charged Exc Totals) (s : State) (path : Path)
    (data : Except LibraryError lib.File) : Charged Exc State :=
  match place lib.nameable s.tree path with
  | none => free (.error (.library (.other (text "OSError"))))
  | some tree => (chargedRead lib nested { s with tree } data).charge copied

def chargedVisit (copied : Entry lib.File → ℕ) (nested : Totals → lib.File → Charged Exc Totals) (s : State)
    (e : Entry lib.File) : Charged Exc State :=
  match admitEntry lib config s e with
  | .error message => free (.error (.archivePolicy message))
  | .ok (.skipped s) => free (.ok s)
  | .ok (.extracts path data s) => chargedExtract lib (copied e) nested s path data

def chargedInspect (copying : Copying lib) : ℕ → ℕ → Totals → lib.File → Charged Exc Totals
  | 0, _, _, _ => free (.error (.archivePolicy (text "maximum archive nesting depth exceeded")))
  | left + 1, depth, totals, file => do
    let totals : Totals := { totals with maxDepthSeen := max totals.maxDepthSeen depth }
    match ← free (openArchive lib file) with
    | none => return totals
    | some entries =>
      let s ← entries.foldlM (chargedVisit lib config (copying.bytes file) (chargedInspect copying left (depth + 1)))
        ⟨totals, [], .empty⟩
      if config.maxExpandedMb * 1024 * 1024 < s.totals.expandedBytes then
        free (.error (.archivePolicy (text "archive expanded-size limit exceeded")))
      else return s.totals

/-- The bytes that `inspect_archive` writes of a file, whether it returns or raises. -/
def written (copying : Copying lib) (file : lib.File) : ℕ :=
  (chargedInspect lib config copying config.maxArchiveDepth 1 ⟨0, 0, 0, 0⟩ file).cost

end

section
variable {lib : Library} {config : Config}

variable (config) in
def memberLimit : ℕ := config.perMemberMaxMb * 1024 * 1024

variable (config) in
/-- From the first totals to the second: the bytes written are counted as expanded, and each member counted
stands for a member's limit of them. -/
structure Paid (before after : Totals) (bytes : ℕ) : Prop where
  expanded : before.expandedBytes + bytes ≤ after.expandedBytes
  members : bytes + before.members * memberLimit config ≤ after.members * memberLimit config
  limit : after.members ≤ config.maxArchiveMembers

variable (config) in
def Capped (totals : Totals) (bytes : ℕ) : Prop :=
  bytes + totals.members * memberLimit config ≤ config.maxArchiveMembers * memberLimit config

theorem Paid.refl {totals totals' : Totals} (expanded : totals.expandedBytes = totals'.expandedBytes)
    (members : totals.members = totals'.members) (limit : totals.members ≤ config.maxArchiveMembers) :
    Paid config totals totals' 0 :=
  ⟨by omega, by rw [members, Nat.zero_add], by omega⟩

theorem Paid.trans {a b c : Totals} {n m : ℕ} (first : Paid config a b n) (second : Paid config b c m) :
    Paid config a c (n + m) where
  expanded := by have := first.expanded; have := second.expanded; omega
  members := by have := first.members; have := second.members; omega
  limit := second.limit

theorem Paid.stops {a b : Totals} {n : ℕ} (paid : Paid config a b n) : Capped config a n := by
  have counted := paid.members
  have room : b.members * memberLimit config ≤ config.maxArchiveMembers * memberLimit config :=
    Nat.mul_le_mul_right _ paid.limit
  unfold Capped
  omega

/-- How `ratio > config.max_compression_ratio` compares: the quotient of the integers, rounded to a float. -/
structure FloatRatio (config : Config) where
  limit : ℚ
  round : ℚ → ℚ
  round_mono : Monotone round
  exceedsRatio_iff : ∀ expanded compressed : ℕ, 0 < compressed →
    (config.exceedsRatio expanded compressed = true ↔ limit < round (expanded / compressed))

theorem FloatRatio.kept (float : FloatRatio config) {expanded compressed bytes size : ℕ} (positive : 0 < compressed)
    (low : config.exceedsRatio expanded compressed = false) (fewer : bytes ≤ expanded) (larger : compressed ≤ size) :
    float.round (bytes / size) ≤ float.limit := by
  have smaller : (bytes : ℚ) / size ≤ expanded / compressed :=
    div_le_div₀ (Nat.cast_nonneg _) (Nat.cast_le.mpr fewer) (Nat.cast_pos.mpr positive) (Nat.cast_le.mpr larger)
  calc float.round (bytes / size)
      ≤ float.round (expanded / compressed) := float.round_mono smaller
    _ ≤ float.limit := by
      rw [← not_lt, ← float.exceedsRatio_iff expanded compressed positive, low]
      exact Bool.false_ne_true

end

/-! A million zeros in a `tar.gz` of 1056 bytes, and four members of the size limit in one of a megabyte. -/

inductive Bomb where
  | zeros (size : ℕ)
  | tall
  | wide

def Bomb.size : Bomb → ℕ
  | .zeros size => size
  | .tall => 1056
  | .wide => 1019402

end Mirage.ArchiveExpansion
