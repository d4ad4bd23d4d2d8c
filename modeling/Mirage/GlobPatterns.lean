import Mirage.Fingerprint

/-! The forbidden-process comparator as a glob matcher. A pattern becomes a regular
expression by one replacement, so it is matched as a glob where no other character of
it means something to `re` and no name it has to span holds a line break. -/

namespace Mirage.GlobPatterns
open Json Fingerprint

/-! The expressions that the replacement makes of literal patterns. -/

inductive Piece where
  | literal (c : Char)
  | dot
  | any

/-- The characters with a meaning of their own outside a set. -/
def special : List Char := ".^$*+?{}[]\\|()".toList

/-- An expression of literal characters, dots and `.*`; nothing for any other. -/
def pieces : List Char → Option (List Piece)
  | '.' :: '*' :: rest => (pieces rest).map (.any :: ·)
  | '.' :: rest => (pieces rest).map (.dot :: ·)
  | c :: rest => if c ∈ special then none else (pieces rest).map (.literal c :: ·)
  | [] => some []

/-- `fullmatch`; a dot stands for no line break. -/
def fullmatch : List Piece → List Char → Bool
  | [], name => name.isEmpty
  | .literal c :: rest, name =>
    match name with
    | d :: name => c = d && fullmatch rest name
    | [] => false
  | .dot :: rest, name =>
    match name with
    | d :: name => d ≠ '\n' && fullmatch rest name
    | [] => false
  | .any :: rest, name => (List.range (name.length + 1)).any fun k =>
      (name.take k).all (· ≠ '\n') && fullmatch rest (name.drop k)

/-- `re.compile(pattern).fullmatch`, with `other` for the expressions beyond these. -/
def reCompile (other : Compile) : Compile := fun pattern =>
  match pieces pattern.toList with
  | some parts => some fun name => fullmatch parts name.toList
  | none => other pattern

/-- The whole name is made by the pattern; a star stands for any run of characters. -/
def GlobMatches : List Char → List Char → Prop
  | [], name => name = []
  | c :: pattern, name =>
    if c = '*' then ∃ run rest, name = run ++ rest ∧ GlobMatches pattern rest
    else ∃ rest, name = c :: rest ∧ GlobMatches pattern rest

/-- A running process that is not allowed and that some pattern names. -/
def Forbidden (patterns allowed : List String) (name : String) : Prop :=
  name ∉ allowed ∧ ∃ pattern ∈ patterns, GlobMatches pattern.toList name.toList

/-- A pattern of literal characters, stars and dots. -/
def Modelled (pattern : List Char) : Prop := ∀ c ∈ pattern, c ∈ special → c = '*' ∨ c = '.'

/-- No pattern uses more of `re` than its star, and stars span no line break. -/
structure Plain (patterns allowed running : List String) : Prop where
  literal : ∀ pattern ∈ patterns, ∀ c ∈ pattern.toList, c ∈ special → c = '*'
  lines : ∀ pattern ∈ patterns, '*' ∈ pattern.toList →
    ∀ name ∈ running, name ∉ allowed → '\n' ∉ name.toList

def pieceOf (c : Char) : Piece := if c = '*' then .any else if c = '.' then .dot else .literal c

def unstarred (c : Char) : List Char := if c = '*' then ['.', '*'] else [c]

theorem unstarred_head (pattern rest : List Char) : pattern.flatMap unstarred ≠ '*' :: rest := by
  cases pattern with
  | nil => simp
  | cons c pattern =>
    rw [List.flatMap_cons, unstarred]
    split
    · simp
    next other => exact fun same => other (List.cons.inj same).1

theorem pieces_wildcard {pattern : List Char} (modelled : Modelled pattern) :
    pieces (pattern.flatMap unstarred) = some (pattern.map pieceOf) := by
  induction pattern with
  | nil => rfl
  | cons c rest ih =>
    have tail := ih fun d mem => modelled d (List.mem_cons_of_mem _ mem)
    rw [List.flatMap_cons, unstarred, List.map_cons, pieceOf]
    by_cases star : c = '*'
    · rw [if_pos star, if_pos star, List.cons_append, List.cons_append, List.nil_append, pieces, tail]
      rfl
    · rw [if_neg star, if_neg star, List.singleton_append, pieces.eq_def]
      split
      next same => exact absurd (List.cons.inj same).2 (unstarred_head _ _)
      next same =>
        obtain ⟨rfl, rfl⟩ := List.cons.inj same
        rw [tail, if_pos rfl]
        rfl
      next dot same =>
        obtain ⟨rfl, rfl⟩ := List.cons.inj same
        have plain : c ∉ special := fun mem => (modelled c (List.mem_cons_self ..) mem).elim star dot
        rw [if_neg plain, if_neg dot, tail]
        rfl
      next same => cases same

theorem fullmatch_iff {pattern name : List Char} (undotted : '.' ∉ pattern) (lines : '*' ∈ pattern → '\n' ∉ name) :
    fullmatch (pattern.map pieceOf) name = true ↔ GlobMatches pattern name := by
  induction pattern generalizing name with
  | nil => rw [List.map_nil, fullmatch, List.isEmpty_iff, GlobMatches]
  | cons c rest ih =>
    have undotted' : '.' ∉ rest := fun mem => undotted (List.mem_cons_of_mem _ mem)
    have other : c ≠ '.' := fun dot => undotted (dot ▸ List.mem_cons_self ..)
    rw [List.map_cons, GlobMatches]
    by_cases star : c = '*'
    · have free := lines (by simp [star])
      rw [if_pos star, pieceOf, if_pos star, fullmatch]
      simp only [List.any_eq_true, List.mem_range, Bool.and_eq_true]
      constructor
      · rintro ⟨k, -, -, found⟩
        rw [ih undotted' fun _ mem => free ((List.drop_sublist _ _).subset mem)] at found
        exact ⟨name.take k, name.drop k, (List.take_append_drop k name).symm, found⟩
      · rintro ⟨run, tail, rfl, found⟩
        refine ⟨run.length, by rw [List.length_append]; omega, ?_, ?_⟩
        · rw [List.take_left, List.all_eq_true]
          intro d mem
          exact decide_eq_true fun line => free (line ▸ List.mem_append_left _ mem)
        · rw [List.drop_left, ih undotted' fun _ mem => free (List.mem_append_right _ mem)]
          exact found
    · rw [if_neg star, pieceOf, if_neg star, if_neg other]
      cases name with
      | nil => simp [fullmatch]
      | cons d name =>
        simp only [fullmatch, Bool.and_eq_true, decide_eq_true_eq, List.cons.injEq]
        rw [ih undotted' fun later mem => lines (List.mem_cons_of_mem _ later) (List.mem_cons_of_mem _ mem)]
        constructor
        · rintro ⟨same, tail⟩
          exact ⟨name, ⟨same.symm, rfl⟩, tail⟩
        · rintro ⟨tail, ⟨same, rfl⟩, found⟩
          exact ⟨same.symm, found⟩

theorem mem_of_glob {pattern name : List Char} (found : GlobMatches pattern name) {c : Char} (mem : c ∈ pattern)
    (other : c ≠ '*') : c ∈ name := by
  induction pattern generalizing name with
  | nil => cases mem
  | cons d rest ih =>
    rw [GlobMatches] at found
    split at found
    next star =>
      obtain ⟨run, tail, rfl, found⟩ := found
      rcases List.mem_cons.mp mem with rfl | mem
      · exact absurd star other
      · exact List.mem_append_right _ (ih found mem)
    next =>
      obtain ⟨tail, rfl, found⟩ := found
      rcases List.mem_cons.mp mem with rfl | mem
      · exact List.mem_cons_self ..
      · exact List.mem_cons_of_mem _ (ih found mem)

/-- A name for an expression: its stars empty, its dots some letter. -/
def sample : List Char → List Char
  | [] => []
  | c :: rest => if c = '*' then sample rest else (if c = '.' then 'x' else c) :: sample rest

theorem fullmatch_sample (pattern : List Char) : fullmatch (pattern.map pieceOf) (sample pattern) = true := by
  induction pattern with
  | nil => rfl
  | cons c rest ih =>
    rw [List.map_cons, pieceOf, sample]
    by_cases star : c = '*'
    · rw [if_pos star, if_pos star, fullmatch, List.any_eq_true]
      exact ⟨0, by simp, by simpa using ih⟩
    · by_cases dot : c = '.' <;> simp [star, dot, fullmatch, ih]

theorem not_mem_sample {pattern : List Char} {d : Char} (other : d ≠ 'x') (absent : d = '.' ∨ d ∉ pattern) :
    d ∉ sample pattern := by
  induction pattern with
  | nil => exact List.not_mem_nil
  | cons c rest ih =>
    have rest' := ih (absent.imp_right fun absent mem => absent (List.mem_cons_of_mem _ mem))
    rw [sample]
    split
    · exact rest'
    · rw [List.mem_cons, not_or]
      refine ⟨fun same => ?_, rest'⟩
      split at same
      next => exact other same
      next literal =>
        exact absent.elim (fun dot => literal (same ▸ dot)) fun absent => absent (same ▸ List.mem_cons_self ..)

/-- What a baseline's check expects, and what an observation of it lists. -/
structure Expects (expected : Json) (patterns allowed : List String) : Prop where
  patterns : getOr expected "forbidden_patterns" (.arr []) = some (.arr (patterns.map .str))
  allowed : getOr expected "allowed" (.arr []) = some (.arr (allowed.map .str))

def Observes (observed : Json) (running : List String) : Prop :=
  getOr observed "running" (.arr []) = some (.arr (running.map .str))

theorem inSet_str (name : String) (items : List String) :
    inSet (.str name) (items.map .str) = decide (name ∈ items) := by
  rw [Bool.eq_iff_iff, inSet, List.any_eq_true, decide_eq_true_eq]
  constructor
  · rintro ⟨value, mem, same⟩
    obtain ⟨item, here, rfl⟩ := List.mem_map.mp mem
    rw [pyEq, decide_eq_true_eq] at same
    exact same ▸ here
  · intro mem
    exact ⟨.str name, List.mem_map_of_mem mem, by rw [pyEq]; simp⟩

theorem asSet_strs (items : List String) : asSet (.arr (items.map .str)) = some (items.map .str) := by
  have hashed : (items.map Json.str).all hashable = true := by
    simp [List.all_map, Function.comp_def, hashable]
  rw [asSet, iterated, Option.bind_some, if_pos hashed]

theorem mapM_some {α β : Type} {f : α → Option β} {g : α → β} {xs : List α} (each : ∀ x ∈ xs, f x = some (g x)) :
    xs.mapM f = some (xs.map g) := by
  induction xs with
  | nil => rfl
  | cons x xs ih =>
    simp [each x (List.mem_cons_self ..), ih fun y mem => each y (List.mem_cons_of_mem _ mem)]

variable {other : Compile} {expected observed : Json} {patterns allowed running : List String}

/-- The verdict of the expressions made from plain patterns. -/
def verdict (patterns allowed running : List String) : Bool :=
  (running.map fun name => !decide (name ∈ allowed) &&
    (patterns.map fun pattern name => fullmatch (pattern.toList.map pieceOf) name.toList).any
      fun match? => match? name).all fun hit => !hit

theorem compare_eq (expects : Expects expected patterns allowed) (observes : Observes observed running)
    (modelled : ∀ pattern ∈ patterns, Modelled pattern.toList) :
    compareAllowedSetForbiddenPatterns (reCompile other) expected observed =
      some (verdict patterns allowed running) := by
  have regexes : (patterns.map Json.str).mapM (compiled (reCompile other)) =
      some (patterns.map fun pattern name => fullmatch (pattern.toList.map pieceOf) name.toList) := by
    rw [List.mapM_map]
    refine mapM_some fun pattern mem => ?_
    have parts := pieces_wildcard (modelled pattern mem)
    unfold unstarred at parts
    simp only [Function.comp_apply, compiled, reCompile, wildcard, String.toList_ofList, parts]
  have hits (regexes : List (String → Bool)) : (running.map Json.str).mapM
      (forbidden (allowed.map .str) regexes) =
      some (running.map fun name => !decide (name ∈ allowed) && regexes.any fun match? => match? name) := by
    rw [List.mapM_map]
    refine mapM_some fun name _ => ?_
    rw [Function.comp_apply, forbidden, inSet_str]
    by_cases known : name ∈ allowed <;> simp [known, hashable]
  rw [compareAllowedSetForbiddenPatterns, expects.patterns, expects.allowed, observes]
  simp only [Option.bind_eq_bind, Option.bind_some, asSet_strs, iterated, regexes, hits]
  rfl

theorem Plain.modelled (plain : Plain patterns allowed running) : ∀ pattern ∈ patterns, Modelled pattern.toList :=
  fun pattern listed c mem meant => Or.inl (plain.literal pattern listed c mem meant)

theorem Plain.undotted (plain : Plain patterns allowed running) : ∀ pattern ∈ patterns, '.' ∉ pattern.toList :=
  fun pattern listed mem => absurd (plain.literal pattern listed '.' mem (by decide)) (by decide)

theorem verdict_iff (plain : Plain patterns allowed running) :
    verdict patterns allowed running = false ↔ ∃ name ∈ running, Forbidden patterns allowed name := by
  rw [← Bool.not_eq_true, verdict, List.all_map, List.all_eq_true]
  simp only [not_forall, Function.comp_apply, Forbidden, Bool.not_eq_true', Bool.not_eq_false, exists_prop,
    Bool.and_eq_true, decide_eq_false_iff_not, List.any_map, List.any_eq_true]
  refine exists_congr fun name => and_congr_right fun here => and_congr_right fun stranger => ?_
  refine exists_congr fun pattern => and_congr_right fun listed => ?_
  exact fullmatch_iff (plain.undotted pattern listed) fun star => plain.lines pattern listed star name here stranger

/-- One check before and after: its level stands, and it passes after only if it did before. -/
def Falls (c c' : CheckResult) : Prop := c.level = c'.level ∧ (c'.passed = true → c.passed = true)

theorem falls_filter {cs cs' : List CheckResult} (each : List.Forall₂ Falls cs cs') (level : String) :
    List.Forall₂ Falls (cs.filter fun c => isText (some c.level) level)
      (cs'.filter fun c => isText (some c.level) level) := by
  induction each with
  | nil => exact .nil
  | @cons c c' _ _ pair _ ih =>
    rw [List.filter_cons, List.filter_cons, ← pair.1]
    split
    · exact .cons pair ih
    · exact ih

theorem falls_all {cs cs' : List CheckResult} (each : List.Forall₂ Falls cs cs')
    (all : ∀ c ∈ cs', c.passed = true) : ∀ c ∈ cs, c.passed = true := by
  induction each with
  | nil => exact all
  | cons pair _ ih =>
    rw [List.forall_mem_cons] at all ⊢
    exact ⟨pair.2 all.1, ih all.2⟩

theorem falls_count {cs cs' : List CheckResult} (each : List.Forall₂ Falls cs cs') :
    cs'.countP CheckResult.passed ≤ cs.countP CheckResult.passed := by
  induction each with
  | nil => exact Nat.le_refl _
  | @cons c c' _ _ pair _ ih =>
    rw [List.countP_cons, List.countP_cons]
    by_cases passed : c'.passed = true
    · rw [if_pos passed, if_pos (pair.2 passed)]
      exact Nat.succ_le_succ ih
    · rw [if_neg passed]
      exact Nat.le_add_right_of_le ih

theorem passed_of_falls {r r' : FingerprintReport} (each : List.Forall₂ Falls r.results r'.results)
    (passed : r'.passed = true) : r.passed = true := by
  rw [passed_iff] at passed ⊢
  have lengths : r.shouldChecks.length = r'.shouldChecks.length := (falls_filter each "SHOULD").length_eq
  have counts : r'.shouldPassed ≤ r.shouldPassed := falls_count (falls_filter each "SHOULD")
  exact ⟨falls_all (falls_filter each "MUST") passed.1, by omega⟩

theorem mapM_related {α β : Type} {f g : α → Option β} {R : β → β → Prop} {xs : List α} {ys : List β}
    (step : ∀ x ∈ xs, ∀ y, f x = some y → ∃ y', g x = some y' ∧ R y y') (ran : xs.mapM f = some ys) :
    ∃ ys', xs.mapM g = some ys' ∧ List.Forall₂ R ys ys' := by
  induction xs generalizing ys with
  | nil =>
    cases ran
    exact ⟨[], rfl, .nil⟩
  | cons x xs ih =>
    rw [List.mapM_cons] at ran
    obtain ⟨y, first, ran⟩ := Option.bind_eq_some_iff.mp ran
    obtain ⟨rest, later, same⟩ := Option.bind_eq_some_iff.mp ran
    cases same
    obtain ⟨y', first', pair⟩ := step x (List.mem_cons_self ..) y first
    obtain ⟨rest', ran', pairs⟩ := ih (fun z mem => step z (List.mem_cons_of_mem _ mem)) later
    exact ⟨y' :: rest', by rw [List.mapM_cons, first', ran']; rfl, .cons pair pairs⟩

/-- Another observation of one check of a baseline that looks for forbidden processes; it
lists `running`. -/
structure Reobserved (baseline observed observed' : Json) (patterns allowed running : List String) : Prop where
  checks : ∃ checks, baseline.get? "checks" = some (.obj checks) ∧ (checks.map Prod.fst).Nodup ∧
    ∃ check spec expected, (check, spec) ∈ checks ∧
      spec.get? "comparator" = some (.str "allowed_set_forbidden_patterns") ∧
      spec.get? "expected" = some expected ∧ Expects expected patterns allowed ∧
      (∀ name, name ≠ check → getOr observed' name .null = getOr observed name .null) ∧
      ∃ value, getOr observed' check .null = some value ∧ value ≠ .null ∧ Observes value running

theorem runCheck_same {observed' : Json} {entry : String × Json}
    (same : getOr observed' entry.1 .null = getOr observed entry.1 .null) :
    runCheck (reCompile other) observed' entry = runCheck (reCompile other) observed entry := by
  rw [runCheck, runCheck, same]

theorem runCheck_observed {compile : Compile} {entry : String × Json} {comparator level value : Json}
    (comparatorAt : entry.2.get? "comparator" = some comparator) (expectedAt : entry.2.get? "expected" = some expected)
    (levelAt : entry.2.get? "level" = some level) (there : getOr observed entry.1 .null = some value)
    (present : value ≠ .null) : runCheck compile observed entry =
      (comparators compile comparator).bind fun compare => (compare expected value).bind fun passed =>
        some ⟨entry.1, comparator, level, expected, some value, passed⟩ := by
  rw [runCheck, comparatorAt, expectedAt, levelAt, there]
  cases value with
  | null => exact absurd rfl present
  | _ => rfl

theorem runCheck_fields {compile : Compile} {entry : String × Json} {c : CheckResult}
    (ran : runCheck compile observed entry = some c) : entry.2.get? "level" = some c.level := by
  obtain ⟨comparator, -, ran⟩ := Option.bind_eq_some_iff.mp ran
  obtain ⟨expected, -, ran⟩ := Option.bind_eq_some_iff.mp ran
  obtain ⟨level, levelAt, ran⟩ := Option.bind_eq_some_iff.mp ran
  obtain ⟨value, -, ran⟩ := Option.bind_eq_some_iff.mp ran
  have same : c.level = level := by
    split at ran
    next =>
      cases ran
      rfl
    next =>
      obtain ⟨compare, -, ran⟩ := Option.bind_eq_some_iff.mp ran
      obtain ⟨passed, -, ran⟩ := Option.bind_eq_some_iff.mp ran
      cases ran
      rfl
  rw [same, levelAt]

theorem comparators_forbidden (compile : Compile) : comparators compile (.str "allowed_set_forbidden_patterns") =
    some (compareAllowedSetForbiddenPatterns compile) := by
  unfold comparators
  rfl

theorem run_falls {baseline observed' : Json} {r : FingerprintReport}
    (plain : Plain patterns allowed running) (forbidden : ∃ name ∈ running, Forbidden patterns allowed name)
    (again : Reobserved baseline observed observed' patterns allowed running)
    (ran : runFingerprintCheck (reCompile other) baseline observed = some r) :
    ∃ r', runFingerprintCheck (reCompile other) baseline observed' = some r' ∧
      (r.passed = false → r'.passed = false) := by
  obtain ⟨checks, listed, unique, check, spec, expected, here, comparator, expectedAt, expects, elsewhere,
    value, there, present, observes⟩ := again.checks
  have fails := @compare_eq other _ _ _ _ _ expects observes plain.modelled
  rw [(verdict_iff plain).mpr forbidden] at fails
  have each : ∀ entry ∈ checks, ∀ c, runCheck (reCompile other) observed entry = some c →
      ∃ c', runCheck (reCompile other) observed' entry = some c' ∧ Falls c c' := by
    intro entry mem c before
    by_cases same : entry.1 = check
    · obtain rfl : entry = (check, spec) := List.inj_on_of_nodup_map unique mem here same
      have after := @runCheck_observed _ _ (reCompile other) _ _ _ _ comparator expectedAt (runCheck_fields before)
        there present
      rw [comparators_forbidden, Option.bind_some, fails, Option.bind_some] at after
      exact ⟨_, after, rfl, fun passed => by cases passed⟩
    · exact ⟨c, by rw [runCheck_same (elsewhere _ same), before], rfl, id⟩
  obtain ⟨found, listed', ran⟩ := Option.bind_eq_some_iff.mp ran
  rw [listed] at listed'
  cases listed'
  obtain ⟨results, before, ran⟩ := Option.bind_eq_some_iff.mp ran
  obtain ⟨results', after, pairs⟩ := mapM_related each before
  obtain ⟨targetId, target, ran⟩ := Option.bind_eq_some_iff.mp ran
  obtain ⟨version, versionAt, ran⟩ := Option.bind_eq_some_iff.mp ran
  cases ran
  refine ⟨⟨targetId, version, results'⟩, ?_, fun failing => ?_⟩
  · rw [runFingerprintCheck, listed]
    simp only [Option.bind_eq_bind, Option.bind_some, after, target, versionAt]
    rfl
  · by_contra passed
    rw [Bool.not_eq_false] at passed
    rw [passed_of_falls pairs passed] at failing
    cases failing

/-- The comparator's answer on `running` is the globs' one. -/
def Agrees (compile : Compile) (expected observed : Json) (patterns allowed running : List String) : Prop :=
  ∃ passed, compareAllowedSetForbiddenPatterns compile expected observed = some passed ∧
    (passed = false ↔ ∃ name ∈ running, Forbidden patterns allowed name)

def alone (pattern : String) : Json := .obj [("forbidden_patterns", .arr [.str pattern])]

def seen (running : List String) : Json := .obj [("running", .arr (running.map .str))]

theorem sample_disagrees {pattern : String} (modelled : Modelled pattern.toList) (dotted : '.' ∈ pattern.toList) :
    ¬ Agrees (reCompile other) (alone pattern) (seen [.ofList (sample pattern.toList)]) [pattern] []
      [.ofList (sample pattern.toList)] := by
  rintro ⟨passed, ran, agrees⟩
  have answer := @compare_eq other (alone pattern) (seen [.ofList (sample pattern.toList)]) [pattern] []
    [.ofList (sample pattern.toList)] ⟨rfl, rfl⟩ rfl (by simpa using modelled)
  have failed : verdict [pattern] [] [.ofList (sample pattern.toList)] = false := by
    simp [verdict, fullmatch_sample]
  rw [ran, failed] at answer
  obtain ⟨name, here, -, glob, listed, found⟩ := agrees.mp (Option.some.inj answer)
  rw [List.mem_singleton.mp here, List.mem_singleton.mp listed, String.toList_ofList] at found
  exact not_mem_sample (by decide) (Or.inl rfl) (mem_of_glob found dotted (by decide))

/-- With plain patterns the comparator returns the verdict of the globs, and an
observation that lists a forbidden process never makes a failing report pass. A pattern
of literals, stars and dots is a glob on all names of one line only when it has no dot. -/
theorem glob_semantics (expects : Expects expected patterns allowed) (observes : Observes observed running)
    (plain : Plain patterns allowed running) :
    Agrees (reCompile other) expected observed patterns allowed running ∧
    ((∃ name ∈ running, Forbidden patterns allowed name) → ∀ baseline before after r,
      Reobserved baseline before after patterns allowed running →
      runFingerprintCheck (reCompile other) baseline before = some r →
      ∃ r', runFingerprintCheck (reCompile other) baseline after = some r' ∧
        (r.passed = false → r'.passed = false)) ∧
    ∀ pattern : String, Modelled pattern.toList → '\n' ∉ pattern.toList →
      ((∀ names, (∀ name ∈ names, '\n' ∉ name.toList) →
        Agrees (reCompile other) (alone pattern) (seen names) [pattern] [] names) ↔ '.' ∉ pattern.toList) := by
  refine ⟨⟨_, compare_eq expects observes plain.modelled, verdict_iff plain⟩,
    fun forbidden _ _ _ _ again ran => run_falls plain forbidden again ran, fun pattern modelled line => ⟨?_, ?_⟩⟩
  · intro always dotted
    refine sample_disagrees modelled dotted (always _ fun name here => ?_)
    rw [List.mem_singleton.mp here, String.toList_ofList]
    exact not_mem_sample (by decide) (Or.inr line)
  · intro undotted names lines
    have plain : Plain [pattern] [] names := by
      refine ⟨?_, fun _ _ _ name here _ => lines name here⟩
      intro _ listed c mem meant
      rw [List.mem_singleton.mp listed] at mem
      exact (modelled c mem meant).resolve_right fun dot => undotted (dot ▸ mem)
    exact ⟨_, compare_eq ⟨rfl, rfl⟩ rfl plain.modelled, verdict_iff plain⟩

def mirageCheck : Json :=
  .obj [("forbidden_patterns", .arr [.str "Mirage*"]), ("allowed", .arr [.str "MirageSpider"])]

theorem mirageTool_fails : compareAllowedSetForbiddenPatterns (reCompile fun _ => none) mirageCheck
    (.obj [("running", .arr [.str "MirageSpider", .str "MirageTool"])]) = some false := by
  have letters : "Mirage*".toList.all (fun c => decide (c ∈ special → c = '*')) = true := by decide +kernel
  have plain : Plain ["Mirage*"] ["MirageSpider"] ["MirageSpider", "MirageTool"] := by
    refine ⟨?_, ?_⟩
    · intro pattern listed c mem
      rw [List.mem_singleton.mp listed] at mem
      exact of_decide_eq_true (List.all_eq_true.mp letters c mem)
    · intro pattern _ _ name mem _
      simp only [List.mem_cons, List.not_mem_nil, or_false] at mem
      rcases mem with rfl | rfl <;> decide +kernel
  obtain ⟨⟨passed, ran, verdict⟩, -⟩ := @glob_semantics (fun _ => none) mirageCheck
    (.obj [("running", .arr [.str "MirageSpider", .str "MirageTool"])])
    ["Mirage*"] ["MirageSpider"] ["MirageSpider", "MirageTool"] ⟨rfl, rfl⟩ rfl plain
  have matched : GlobMatches "Mirage*".toList "MirageTool".toList :=
    (fullmatch_iff (by decide +kernel) fun _ => by decide +kernel).mp (by decide +kernel)
  rw [ran, verdict.mpr ⟨"MirageTool", by simp, by simp, "Mirage*", by simp, matched⟩]

/-- The dot of a pattern stands for any character. -/
theorem dot_forbids : compareAllowedSetForbiddenPatterns (reCompile fun _ => none)
    (.obj [("forbidden_patterns", .arr [.str "a.c"])]) (.obj [("running", .arr [.str "abc"])]) = some false ∧
    ¬ ∃ name ∈ ["abc"], Forbidden ["a.c"] [] name := by
  refine ⟨by decide +kernel, ?_⟩
  rintro ⟨name, here, -, pattern, listed, found⟩
  rw [List.mem_singleton.mp here, List.mem_singleton.mp listed] at found
  exact absurd (mem_of_glob found (by decide +kernel : '.' ∈ "a.c".toList) (by decide)) (by decide +kernel)

end Mirage.GlobPatterns
