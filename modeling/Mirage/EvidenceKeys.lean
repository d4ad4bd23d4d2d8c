import Mirage.EvidenceAcquisition
import Mathlib.Data.List.Chain
import Mathlib.Data.List.TakeWhile

/-! The keys of evidence objects: each stays below its case and category, and names its
evidence whatever the filename. -/

namespace Mirage.EvidenceKeys
open RowLocks EvidenceAcquisition

/-- The characters that `strip("._")` takes away. -/
def edge (c : Char) : Bool := c = '.' || c = '_'

/-- No two underscores stand side by side. -/
def Apart (chars : List Char) : Prop := chars.IsChain fun a b => ¬ (a = '_' ∧ b = '_')

/-- What the passes before the cut make of a filename. -/
structure Clean (chars : List Char) : Prop where
  allowed : ∀ c ∈ chars, filenameChar c = true
  head : ∃ c rest, chars = c :: rest ∧ edge c = false
  last : ∀ c ∈ chars.getLast?, edge c = false
  apart : Apart chars

theorem mem_underscoreRuns {bad : Char → Bool} {inRun : Bool} {chars : List Char} {c : Char}
    (h : c ∈ underscoreRuns bad inRun chars) : c = '_' ∨ c ∈ chars ∧ bad c = false := by
  induction chars generalizing inRun with
  | nil => simp [underscoreRuns] at h
  | cons d rest ih =>
    have later {b : Bool} (h : c ∈ underscoreRuns bad b rest) : c = '_' ∨ c ∈ d :: rest ∧ bad c = false :=
      (ih h).imp_right fun found => ⟨List.mem_cons_of_mem _ found.1, found.2⟩
    by_cases run : bad d = true
    · cases inRun with
      | true => exact later (by simpa [underscoreRuns, run] using h)
      | false =>
        simp only [underscoreRuns, run, if_true, Bool.false_eq_true, if_false, List.mem_cons] at h
        exact h.elim Or.inl later
    · simp only [underscoreRuns, run, Bool.false_eq_true, if_false, List.mem_cons] at h
      rcases h with rfl | h
      · exact Or.inr ⟨List.mem_cons_self .., by simpa using run⟩
      · exact later h

theorem underscoreRuns_id {bad : Char → Bool} {inRun : Bool} {chars : List Char}
    (fine : ∀ c ∈ chars, bad c = false) : underscoreRuns bad inRun chars = chars := by
  induction chars generalizing inRun with
  | nil => rfl
  | cons c rest ih =>
    have tail := @ih false fun d h => fine d (List.mem_cons_of_mem _ h)
    simp [underscoreRuns, fine c (List.mem_cons_self ..), tail]

theorem length_underscoreRuns (bad : Char → Bool) (inRun : Bool) (chars : List Char) :
    (underscoreRuns bad inRun chars).length ≤ chars.length := by
  induction chars generalizing inRun with
  | nil => exact Nat.le_refl 0
  | cons c rest ih =>
    have bound := ih true
    have bound' := ih false
    simp only [underscoreRuns]
    split
    · split
      · simpa using Nat.le_succ_of_le bound
      · simpa using bound
    · simpa using bound'

/-! The squeezing of underscores. -/

def squeeze (inRun : Bool) (chars : List Char) : List Char := underscoreRuns (· = '_') inRun chars

theorem squeeze_cons {inRun : Bool} {c : Char} {rest : List Char} (plain : c ≠ '_') :
    squeeze inRun (c :: rest) = c :: squeeze false rest := by
  simp [squeeze, underscoreRuns, plain]

theorem squeeze_apart (inRun : Bool) (chars : List Char) :
    Apart (squeeze inRun chars) ∧ (inRun = true → ∀ c ∈ (squeeze inRun chars).head?, c ≠ '_') := by
  induction chars generalizing inRun with
  | nil => exact ⟨.nil, by simp [squeeze, underscoreRuns]⟩
  | cons c rest ih =>
    by_cases under : c = '_'
    · subst under
      cases inRun with
      | true => simpa [squeeze, underscoreRuns] using ih true
      | false =>
        obtain ⟨chain, head⟩ := ih true
        have shape : squeeze false ('_' :: rest) = '_' :: squeeze true rest := by
          simp [squeeze, underscoreRuns]
        rw [shape]
        exact ⟨List.isChain_cons.mpr ⟨fun d first both => head rfl d first both.2, chain⟩, by simp⟩
    · rw [squeeze_cons under]
      exact ⟨List.isChain_cons.mpr ⟨fun d _ both => under both.1, (ih false).1⟩,
        fun _ d first => by simpa [← Option.mem_some_iff.mp first] using under⟩

theorem squeeze_id {inRun : Bool} {chars : List Char} (apart : Apart chars)
    (head : inRun = true → ∀ c ∈ chars.head?, c ≠ '_') : squeeze inRun chars = chars := by
  induction chars generalizing inRun with
  | nil => rfl
  | cons c rest ih =>
    obtain ⟨next, chain⟩ := List.isChain_cons.mp apart
    by_cases under : c = '_'
    · subst under
      cases inRun with
      | true => exact absurd rfl (head rfl '_' rfl)
      | false =>
        have shape : squeeze false ('_' :: rest) = '_' :: squeeze true rest := by
          simp [squeeze, underscoreRuns]
        rw [shape, ih chain fun _ d first under => next d first ⟨rfl, under⟩]
    · rw [squeeze_cons under, ih chain (by simp)]

theorem getLast?_squeeze {chars : List Char} {inRun : Bool} (last : ∀ c ∈ chars.getLast?, c ≠ '_') :
    (squeeze inRun chars).getLast? = chars.getLast? := by
  induction chars generalizing inRun with
  | nil => rfl
  | cons c rest ih =>
    cases rest with
    | nil =>
      have plain : c ≠ '_' := last c rfl
      rw [squeeze_cons plain]
      rfl
    | cons d rest =>
      have tail : ∀ c ∈ (d :: rest).getLast?, c ≠ '_' := by simpa using last
      have more {b : Bool} : squeeze b (d :: rest) ≠ [] := by
        intro none
        have same := @ih b tail
        rw [none] at same
        exact absurd (List.getLast?_eq_none_iff.mp same.symm) (by simp)
      have kept (c : Char) {b : Bool} : (c :: squeeze b (d :: rest)).getLast? = (c :: d :: rest).getLast? := by
        obtain ⟨e, more, shape⟩ := List.exists_cons_of_ne_nil (more (b := b))
        have same := @ih b tail
        rw [shape] at same ⊢
        simpa using same
      by_cases under : c = '_'
      · subst under
        cases inRun with
        | true =>
          have same := @ih true tail
          simpa [squeeze, underscoreRuns] using same
        | false =>
          have shape : squeeze false ('_' :: d :: rest) = '_' :: squeeze true (d :: rest) := by
            simp [squeeze, underscoreRuns]
          rw [shape, kept]
      · rw [squeeze_cons under, kept]

theorem stripDots_eq (chars : List Char) :
    stripDots chars = ((chars.dropWhile edge).reverse.dropWhile edge).reverse := rfl

theorem head_dropWhile {chars rest : List Char} {c : Char} (shape : chars.dropWhile edge = c :: rest) :
    edge c = false := by
  have first := List.head?_dropWhile_not edge chars
  rw [shape] at first
  simpa using first

theorem stripDots_edges (chars : List Char) :
    stripDots chars = [] ∨
      (∃ c rest, stripDots chars = c :: rest ∧ edge c = false) ∧
      ∀ c ∈ (stripDots chars).getLast?, edge c = false := by
  rw [stripDots_eq]
  cases front : chars.dropWhile edge with
  | nil => exact Or.inl rfl
  | cons c rest =>
    have first := head_dropWhile front
    right
    constructor
    · have split := List.takeWhile_append_dropWhile (p := edge) (l := (c :: rest).reverse)
      have joined := congrArg List.reverse split
      rw [List.reverse_append, List.reverse_reverse] at joined
      cases shape : (((c :: rest).reverse).dropWhile edge).reverse with
      | nil =>
        have all : ∀ d ∈ (c :: rest).reverse, edge d = true :=
          List.dropWhile_eq_nil_iff.mp (by simpa using shape)
        rw [all c (by simp)] at first
        exact absurd first (by simp)
      | cons d more =>
        rw [shape] at joined
        have same : d = c := by simpa using congrArg List.head? joined
        exact ⟨d, more, rfl, same ▸ first⟩
    · intro d last
      rw [List.getLast?_reverse] at last
      cases shape : ((c :: rest).reverse).dropWhile edge with
      | nil =>
        rw [shape] at last
        exact absurd last (by simp)
      | cons e more =>
        rw [shape] at last
        rw [← Option.mem_some_iff.mp last]
        exact head_dropWhile shape

theorem mem_stripDots {chars : List Char} {c : Char} (h : c ∈ stripDots chars) : c ∈ chars := by
  rw [stripDots_eq, List.mem_reverse] at h
  have inner := (List.dropWhile_sublist edge).subset h
  rw [List.mem_reverse] at inner
  exact (List.dropWhile_sublist edge).subset inner

theorem stripDots_id {c : Char} {rest : List Char} (head : edge c = false)
    (last : ∀ d ∈ (c :: rest).getLast?, edge d = false) : stripDots (c :: rest) = c :: rest := by
  have back : ((c :: rest).reverse).dropWhile edge = (c :: rest).reverse := by
    cases shape : (c :: rest).reverse with
    | nil => rfl
    | cons d more =>
      have ends : d ∈ (c :: rest).getLast? := by simp [← List.head?_reverse, shape]
      simp [last d ends]
  simp only [stripDots_eq, List.dropWhile_cons, head, Bool.false_eq_true, if_false]
  rw [back, List.reverse_reverse]

theorem stripDots_shorter {chars : List Char} {d : Char} (last : d ∈ chars.getLast?) (bad : edge d = true) :
    (stripDots chars).length < chars.length := by
  obtain ⟨front, rfl⟩ := List.getLast?_eq_some_iff.mp last
  have inner : (stripDots (front ++ [d])).length ≤ front.length := by
    rw [stripDots_eq, List.length_reverse]
    by_cases all : ∀ c ∈ front, edge c = true
    · have none : (front ++ [d]).dropWhile edge = [] := by
        rw [List.dropWhile_eq_nil_iff]
        simp only [List.mem_append, List.mem_singleton]
        rintro c (h | rfl)
        · exact all c h
        · exact bad
      simp [none]
    · have shape : (front ++ [d]).dropWhile edge = front.dropWhile edge ++ [d] := by
        rw [List.dropWhile_append, if_neg]
        rw [List.isEmpty_iff, List.dropWhile_eq_nil_iff]
        exact all
      rw [shape, List.reverse_append]
      simp only [List.reverse_cons, List.reverse_nil, List.nil_append, List.singleton_append,
        List.dropWhile_cons, bad, if_true]
      calc ((front.dropWhile edge).reverse.dropWhile edge).length
          ≤ (front.dropWhile edge).reverse.length := (List.dropWhile_sublist edge).length_le
        _ ≤ front.length := by simpa using (List.dropWhile_sublist edge).length_le
  simpa using Nat.lt_succ_of_le inner

/-- The name before the cut. -/
def uncut (name : List Char) : List Char :=
  let safe := squeeze false (stripDots (underscoreRuns (fun c => !filenameChar c) false name))
  if safe = [] then "unnamed".toList else safe

theorem toList_sanitiseFilename (filename : String) :
    (sanitiseFilename filename).toList =
      (uncut (pathName (filename.toList.map fun c => if c = '\\' then '/' else c))).take 128 :=
  String.toList_ofList

theorem uncut_clean (name : List Char) : Clean (uncut name) := by
  simp only [uncut]
  split
  · have allowed : "unnamed".toList.all filenameChar = true := by decide +kernel
    have ends : "unnamed".toList.getLast? = some 'd' := by decide +kernel
    refine ⟨List.all_eq_true.mp allowed, ⟨'u', "nnamed".toList, by decide +kernel, by decide⟩, ?_,
      by unfold Apart; decide +kernel⟩
    intro c last
    rw [ends] at last
    cases last
    decide
  · next some =>
    rcases stripDots_edges (underscoreRuns (fun c => !filenameChar c) false name) with none | ⟨head, last⟩
    · exact absurd (by rw [none]; rfl) some
    · obtain ⟨c, rest, shape, fine⟩ := head
      have plain {d : Char} (fine : edge d = false) : d ≠ '_' := fun under => by simp [under, edge] at fine
      refine ⟨?_, ?_, ?_, (squeeze_apart _ _).1⟩
      · intro d found
        rcases mem_underscoreRuns found with rfl | ⟨found, -⟩
        · decide
        · rcases mem_underscoreRuns (mem_stripDots found) with rfl | ⟨-, fine⟩
          · decide
          · simpa using fine
      · rw [shape, squeeze_cons (plain fine)]
        exact ⟨c, _, rfl, fine⟩
      · rw [getLast?_squeeze fun d ends => plain (last d ends)]
        exact last

theorem Clean.take {chars : List Char} (clean : Clean chars) :
    (∀ c ∈ chars.take 128, filenameChar c = true) ∧ Apart (chars.take 128) ∧
      ∃ c rest, chars.take 128 = c :: rest ∧ edge c = false := by
  obtain ⟨c, rest, shape, fine⟩ := clean.head
  refine ⟨fun d h => clean.allowed d ((List.take_sublist _ _).subset h), ?_, c, rest.take 127, ?_, fine⟩
  · exact clean.apart.take 128
  · rw [shape]
    rfl

theorem filenameChar_plain {c : Char} (allowed : filenameChar c = true) : c ≠ '/' ∧ c ≠ '\\' := by
  constructor
  · rintro rfl
    exact absurd allowed (by decide)
  · rintro rfl
    exact absurd allowed (by decide)

theorem pathName_id {chars : List Char} (allowed : ∀ c ∈ chars, filenameChar c = true)
    (head : ∃ c rest, chars = c :: rest ∧ edge c = false) :
    pathName (chars.map fun c => if c = '\\' then '/' else c) = chars := by
  have same : (chars.map fun c => if c = '\\' then '/' else c) = chars := by
    rw [List.map_congr_left fun c h => if_neg (filenameChar_plain (allowed c h)).2]
    exact List.map_id' chars
  have whole : chars.splitOn '/' = [chars] :=
    List.splitOn_eq_singleton fun h => (filenameChar_plain (allowed '/' h)).1 rfl
  obtain ⟨c, rest, rfl, fine⟩ := head
  have dot : c ≠ '.' := fun dot => by simp [dot, edge] at fine
  rw [same, pathName, whole]
  simp [dot]

theorem uncut_id {chars : List Char} (allowed : ∀ c ∈ chars, filenameChar c = true) (apart : Apart chars)
    (head : ∃ c rest, chars = c :: rest ∧ edge c = false) (last : ∀ d ∈ chars.getLast?, edge d = false) :
    uncut chars = chars := by
  have first : underscoreRuns (fun c => !filenameChar c) false chars = chars :=
    underscoreRuns_id fun c h => by simp [allowed c h]
  obtain ⟨c, rest, rfl, fine⟩ := head
  simp only [uncut]
  rw [first, stripDots_id fine last, squeeze_id apart (by simp), if_neg (by simp)]

theorem uncut_take_iff {chars : List Char} (allowed : ∀ c ∈ chars, filenameChar c = true)
    (apart : Apart chars) (head : ∃ c rest, chars = c :: rest ∧ edge c = false)
    (short : chars.length ≤ 128) :
    (uncut chars).take 128 = chars ↔ ∀ d ∈ chars.getLast?, edge d = false := by
  have first : underscoreRuns (fun c => !filenameChar c) false chars = chars :=
    underscoreRuns_id fun c h => by simp [allowed c h]
  constructor
  · intro same d ends
    obtain ⟨c, rest, rfl, fine⟩ := head
    by_contra bad
    have shorter := stripDots_shorter ends (by simpa using bad)
    have squeezed : (squeeze false (stripDots (c :: rest))).length < (c :: rest).length :=
      lt_of_le_of_lt (length_underscoreRuns _ _ _) shorter
    simp only [uncut, first] at same
    split at same
    · -- the whole name would be stripped away, though its first character stays
      next none =>
      rcases stripDots_edges (c :: rest) with gone | ⟨⟨e, more, shape, fine'⟩, -⟩
      · have all : ∀ d ∈ ((c :: rest).dropWhile edge).reverse, edge d = true :=
          List.dropWhile_eq_nil_iff.mp (by simpa [stripDots_eq] using gone)
        have edged := all c (by simp [fine])
        rw [fine] at edged
        exact absurd edged (by simp)
      · rw [shape, squeeze_cons (fun under => by simp [under, edge] at fine')] at none
        exact absurd none (by simp)
    · have lengths := congrArg List.length same
      rw [List.length_take] at lengths
      omega
  · intro last
    rw [uncut_id allowed apart head last]
    exact List.take_of_length_le short

/-- The name ends in a character that stripping would take away. -/
def EndsInEdge (name : String) : Prop := ∃ c ∈ name.toList.getLast?, edge c = true

theorem sanitise_twice_iff (filename : String) :
    sanitiseFilename (sanitiseFilename filename) = sanitiseFilename filename ↔
      ¬ EndsInEdge (sanitiseFilename filename) := by
  have clean := uncut_clean (pathName (filename.toList.map fun c => if c = '\\' then '/' else c))
  obtain ⟨allowed, apart, head⟩ := clean.take
  rw [← toList_sanitiseFilename] at allowed apart head
  have short : (sanitiseFilename filename).toList.length ≤ 128 := by
    rw [toList_sanitiseFilename]
    exact List.length_take_le ..
  rw [← String.toList_inj, toList_sanitiseFilename (sanitiseFilename filename), pathName_id allowed head,
    uncut_take_iff allowed apart head short]
  simp [EndsInEdge]

theorem EndsInEdge.length_eq {filename : String} (ends : EndsInEdge (sanitiseFilename filename)) :
    (sanitiseFilename filename).length = 128 := by
  obtain ⟨c, last, bad⟩ := ends
  have clean := uncut_clean (pathName (filename.toList.map fun c => if c = '\\' then '/' else c))
  rw [toList_sanitiseFilename] at last
  rw [← String.length_toList, toList_sanitiseFilename, List.length_take, Nat.min_eq_left]
  by_contra long
  rw [List.take_of_length_le (by omega)] at last
  rw [clean.last c last] at bad
  exact absurd bad (by simp)

/-- A name that is neither empty nor a directory, and has no separator. -/
structure Proper (name : String) : Prop where
  filled : name ≠ ""
  named : name ≠ "." ∧ name ≠ ".."
  plain : '/' ∉ name.toList ∧ '\\' ∉ name.toList

theorem sanitiseFilename_chars (filename : String) :
    ((sanitiseFilename filename).toList.all filenameChar) = true ∧
      (sanitiseFilename filename).toList.length ≤ 128 := by
  rw [toList_sanitiseFilename]
  exact ⟨List.all_eq_true.mpr (uncut_clean _).take.1, List.length_take_le ..⟩

theorem sanitiseFilename_proper (filename : String) : Proper (sanitiseFilename filename) := by
  have allowed := List.all_eq_true.mp (sanitiseFilename_chars filename).1
  obtain ⟨-, -, c, rest, shape, fine⟩ :=
    (uncut_clean (pathName (filename.toList.map fun c => if c = '\\' then '/' else c))).take
  rw [← toList_sanitiseFilename] at shape
  have other {name : String} (edged : name.toList.head?.all edge = true) :
      sanitiseFilename filename ≠ name := by
    intro same
    rw [same] at shape
    rw [shape, List.head?_cons, Option.all_some, fine] at edged
    exact absurd edged (by simp)
  refine ⟨?_, ⟨other (by decide +kernel), other (by decide +kernel)⟩, ?_, ?_⟩
  · intro empty
    rw [empty] at shape
    exact absurd shape (by simp)
  · exact fun h => (filenameChar_plain (allowed _ h)).1 rfl
  · exact fun h => (filenameChar_plain (allowed _ h)).2 rfl

theorem isUlid_chars {id : String} (ulid : isUlid id = true) :
    id.toList.length = 26 ∧ id.toList.all filenameChar = true := by
  have digit {c : Char} (h : '0' ≤ c ∧ c ≤ '9') : filenameChar c = true := by
    simp [filenameChar, h.1, h.2]
  have inner {c : Char} (h : EventEnvelope.isCrockford c = true) : filenameChar c = true := by
    simp only [EventEnvelope.isCrockford, EventEnvelope.isDigit, Bool.or_eq_true, Bool.and_eq_true,
      decide_eq_true_eq] at h
    rcases h with h | h
    · exact digit h
    · simp [filenameChar, h.1.1, h.1.2]
  cases shape : id.toList with
  | nil => simp [isUlid, shape] at ulid
  | cons first rest =>
    simp only [isUlid, shape, Bool.and_eq_true, decide_eq_true_eq, List.all_eq_true] at ulid
    obtain ⟨⟨⟨low, high⟩, size⟩, all⟩ := ulid
    refine ⟨by simp [size], ?_⟩
    rw [List.all_cons, Bool.and_eq_true, List.all_eq_true]
    exact ⟨digit ⟨low, Char.le_trans high (by decide)⟩, fun c h => inner (all c h)⟩

/-- The key's last segment. -/
def leafOf (evidenceId : String) (filename : Option String) : String :=
  evidenceId ++ match filename with
    | none => ""
    | some filename => "-" ++ sanitiseFilename filename

theorem evidenceS3Key_eq_ok {caseId category evidenceId : String} {filename : Option String} {key : String} :
    evidenceS3Key caseId category evidenceId filename = .ok key ↔
      (category ∈ evidenceCategories ∧ isUlid caseId = true ∧ isUlid evidenceId = true) ∧
      key = "cases/" ++ caseId ++ "/" ++ category ++ "/" ++ leafOf evidenceId filename := by
  simp only [evidenceS3Key, leafOf, bind_eq_ok, require_eq_ok, decide_eq_true_eq, pure, Except.pure, Except.ok.injEq]
  constructor
  · rintro ⟨-, known, -, case, -, evidence, rfl⟩
    exact ⟨⟨known, case, evidence⟩, by cases filename <;> simp [String.append_assoc]⟩
  · rintro ⟨⟨known, case, evidence⟩, rfl⟩
    exact ⟨(), known, (), case, (), evidence, by cases filename <;> simp [String.append_assoc]⟩

theorem leafOf_confined {evidenceId : String} (ulid : isUlid evidenceId = true) (filename : Option String) :
    evidenceId.toList <+: (leafOf evidenceId filename).toList ∧
    (leafOf evidenceId filename).toList.all filenameChar = true ∧
    (leafOf evidenceId filename).length ≤ 155 := by
  obtain ⟨size, allowed⟩ := isUlid_chars ulid
  cases filename with
  | none =>
    have same : (leafOf evidenceId none).toList = evidenceId.toList := by simp [leafOf]
    rw [← String.length_toList, same]
    exact ⟨List.prefix_refl _, allowed, by omega⟩
  | some filename =>
    obtain ⟨fine, short⟩ := sanitiseFilename_chars filename
    have shape : (leafOf evidenceId (some filename)).toList =
        evidenceId.toList ++ '-' :: (sanitiseFilename filename).toList := by
      simp [leafOf]
    rw [← String.length_toList, shape]
    refine ⟨List.prefix_append _ _, ?_, ?_⟩
    · rw [List.all_append, allowed, List.all_cons, fine]
      rfl
    · simp only [List.length_append, List.length_cons, size]
      omega

theorem key_segments {caseId category evidenceId : String} {filename : Option String} {key : String}
    (accepted : evidenceS3Key caseId category evidenceId filename = .ok key) :
    key.toList.splitOn '/' =
      ["cases".toList, caseId.toList, category.toList, (leafOf evidenceId filename).toList] := by
  obtain ⟨⟨known, case, evidence⟩, rfl⟩ := evidenceS3Key_eq_ok.mp accepted
  have free {chars : List Char} (allowed : chars.all filenameChar = true) : '/' ∉ chars := by
    intro h
    exact (filenameChar_plain (List.all_eq_true.mp allowed _ h)).1 rfl
  have categories : ∀ category ∈ evidenceCategories, '/' ∉ category.toList := by decide +kernel
  have joined : ("cases/" ++ caseId ++ "/" ++ category ++ "/" ++ leafOf evidenceId filename).toList =
      ['/'].intercalate
        ["cases".toList, caseId.toList, category.toList, (leafOf evidenceId filename).toList] := by
    simp [List.intercalate]
  rw [joined]
  apply List.splitOn_intercalate
  · simp only [List.mem_cons, List.not_mem_nil, or_false, forall_eq_or_imp, forall_eq]
    exact ⟨by decide +kernel, free (isUlid_chars case).2, categories category known,
      free (leafOf_confined evidence filename).2.1⟩
  · simp

theorem key_injective {caseId category evidenceId caseId' category' evidenceId' key : String}
    {filename filename' : Option String}
    (accepted : evidenceS3Key caseId category evidenceId filename = .ok key)
    (second : evidenceS3Key caseId' category' evidenceId' filename' = .ok key) :
    caseId' = caseId ∧ category' = category ∧ evidenceId' = evidenceId := by
  have same := (key_segments second).symm.trans (key_segments accepted)
  simp only [List.cons.injEq, String.toList_inj, and_true, true_and] at same
  obtain ⟨case, kind, leaf⟩ := same
  have ulid := (evidenceS3Key_eq_ok.mp accepted).1.2.2
  have ulid' := (evidenceS3Key_eq_ok.mp second).1.2.2
  have starts := (leafOf_confined ulid filename).1
  have starts' := (leafOf_confined ulid' filename').1
  rw [leaf] at starts'
  have lengths : evidenceId'.toList.length = evidenceId.toList.length := by
    rw [(isUlid_chars ulid).1, (isUlid_chars ulid').1]
  exact ⟨case, kind, String.toList_injective
    ((List.prefix_of_prefix_length_le starts' starts lengths.le).eq_of_length lengths)⟩

/-- Every accepted key has the four segments and the bounded leaf, and belongs to one
evidence item; a sanitised name is proper, and stable unless it ends in a dot or an
underscore, which only a name cut at 128 characters does. -/
theorem evidence_keys_confined {caseId category evidenceId : String} {filename : Option String}
    {key : String} (accepted : evidenceS3Key caseId category evidenceId filename = .ok key) :
    (∃ leaf : String, key = "cases/" ++ caseId ++ "/" ++ category ++ "/" ++ leaf ∧
      key.toList.splitOn '/' = ["cases".toList, caseId.toList, category.toList, leaf.toList] ∧
      evidenceId.toList <+: leaf.toList ∧ leaf.toList.all filenameChar = true ∧ leaf.length ≤ 155) ∧
    (∀ caseId' category' evidenceId' filename',
      evidenceS3Key caseId' category' evidenceId' filename' = .ok key →
      caseId' = caseId ∧ category' = category ∧ evidenceId' = evidenceId) ∧
    ∀ name : String, Proper (sanitiseFilename name) ∧
      (sanitiseFilename (sanitiseFilename name) = sanitiseFilename name ↔
        ¬ EndsInEdge (sanitiseFilename name)) ∧
      (EndsInEdge (sanitiseFilename name) → (sanitiseFilename name).length = 128) := by
  obtain ⟨⟨-, -, ulid⟩, shape⟩ := evidenceS3Key_eq_ok.mp accepted
  refine ⟨⟨leafOf evidenceId filename, shape, key_segments accepted, leafOf_confined ulid filename⟩, ?_, ?_⟩
  · intro caseId' category' evidenceId' filename' second
    exact key_injective accepted second
  · intro name
    exact ⟨sanitiseFilename_proper name, sanitise_twice_iff name, EndsInEdge.length_eq⟩

theorem passwd_confined :
    evidenceS3Key "01ARZ3NDEKTSV4RRFFQ69G5FAV" "logs" "01ARZ3NDEKTSV4RRFFQ69G5FAW" (some "../../etc/passwd") =
      .ok "cases/01ARZ3NDEKTSV4RRFFQ69G5FAV/logs/01ARZ3NDEKTSV4RRFFQ69G5FAW-passwd" ∧
    Proper (sanitiseFilename "../..") := by
  have accepted : evidenceS3Key "01ARZ3NDEKTSV4RRFFQ69G5FAV" "logs" "01ARZ3NDEKTSV4RRFFQ69G5FAW"
      (some "../../etc/passwd") =
      .ok "cases/01ARZ3NDEKTSV4RRFFQ69G5FAV/logs/01ARZ3NDEKTSV4RRFFQ69G5FAW-passwd" := by
    rw [evidenceS3Key_eq_ok]
    decide +kernel
  exact ⟨accepted, ((evidence_keys_confined accepted).2.2 "../..").1⟩

/-- A name whose 128th character is an underscore loses it on the second pass. -/
theorem cut_name_unstable : ∃ name : String,
    sanitiseFilename (sanitiseFilename name) ≠ sanitiseFilename name := by
  let chars := List.replicate 127 'a' ++ ['_', 'b']
  have all : chars.all filenameChar = true := by decide +kernel
  have allowed := List.all_eq_true.mp all
  have apart : Apart chars := by
    unfold Apart
    decide +kernel
  have head : ∃ c rest, chars = c :: rest ∧ edge c = false := ⟨'a', _, rfl, by decide⟩
  have last : ∀ d ∈ chars.getLast?, edge d = false := by
    intro d ends
    cases ends
    decide
  refine ⟨String.ofList chars, ?_⟩
  rw [ne_eq, sanitise_twice_iff, not_not]
  refine ⟨'_', ?_, by decide⟩
  rw [toList_sanitiseFilename, String.toList_ofList, pathName_id allowed head, uncut_id allowed apart head last]
  rfl

end Mirage.EvidenceKeys
