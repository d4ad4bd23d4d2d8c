import Mathlib.Tactic.Common

/-! The subjects of the events and the streams that keep them. A pattern is
matched token by token; beside the loop stands what the message server delivers,
and the two part exactly where a subject ends before the pattern's last token. -/

namespace Mirage.EventSubjects

abbrev Token := List Char

/-- `subject.split(".")`. -/
def tokens (subject : String) : List Token := subject.toList.splitOn '.'

def rest : Token := ['>']

def anyOne : Token := ['*']

/-- The loop of `_subject_matches`, over the tokens that are left. -/
def matchTokens : List Token → List Token → Bool
  | [], subject => subject.isEmpty
  | p :: pattern, subject =>
    if p = rest then true
    else match subject with
      | [] => false
      | s :: subject =>
        if p = anyOne then matchTokens pattern subject
        else if p ≠ s then false
        else matchTokens pattern subject

def subjectMatches (pattern subject : String) : Bool := matchTokens (tokens pattern) (tokens subject)

structure StreamDefinition where
  name : String
  subjects : List String

def streamDefinitions : List StreamDefinition :=
  [⟨"MIRAGE_TELEMETRY", ["telemetry.endpoint.>", "telemetry.sandbox.>"]⟩,
    ⟨"MIRAGE_LIFECYCLE", ["investigation.>", "steering.>"]⟩,
    ⟨"MIRAGE_ACTIONS", ["ai.proposal", "ai.proposal.failed", "policy.decision", "policy.decision.failed",
      "sandbox.command", "sandbox.command.failed", "sandbox.result", "sandbox.result.failed"]⟩,
    ⟨"MIRAGE_EVIDENCE", ["evidence.created", "evidence.created.failed", "evidence.verified",
      "evidence.verified.failed", "evidence.verification_failed", "evidence.verification_failed.failed",
      "canary.callback", "canary.callback.failed"]⟩,
    ⟨"MIRAGE_AUDIT", ["audit.>", "analyst.>"]⟩,
    ⟨"MIRAGE_HEALTH", ["system.health", "system.health.failed", "agent.heartbeat",
      "agent.heartbeat.failed"]⟩]

def failedSubjectFor (subject : String) : String := subject ++ ".failed"

def streamForSubject (subject : String) : Option String :=
  (streamDefinitions.find? fun stream => stream.subjects.any fun pattern =>
    subjectMatches pattern subject).map StreamDefinition.name

inductive Delivers : List Token → List Token → Prop
  | done : Delivers [] []
  | more (s : Token) (subject : List Token) : Delivers [rest] (s :: subject)
  | any (s : Token) {pattern subject : List Token} :
      Delivers pattern subject → Delivers (anyOne :: pattern) (s :: subject)
  | same (s : Token) {pattern subject : List Token} : s ≠ rest → s ≠ anyOne →
      Delivers pattern subject → Delivers (s :: pattern) (s :: subject)

/-- The grammar of patterns: no token is empty, and `>` stands last only. -/
def Grammatical (pattern : List Token) : Prop :=
  [] ∉ pattern ∧ rest ∉ pattern.dropLast

/-- The subject has all of the pattern but the token that `>` stands for. -/
def EndsEarly (pattern subject : List Token) : Prop :=
  pattern.getLast? = some rest ∧ Delivers pattern.dropLast subject

/-- Some pattern of the stream gets the subject: the server stores it there. -/
def StreamDefinition.Stores (stream : StreamDefinition) (subject : String) : Prop :=
  ∃ pattern ∈ stream.subjects, Delivers (tokens pattern) (tokens subject)

theorem Delivers.length_le {pattern subject : List Token} (delivers : Delivers pattern subject) :
    pattern.length ≤ subject.length := by
  induction delivers with
  | done => exact Nat.le_refl 0
  | more s subject => simp
  | any s _ ih => simpa using ih
  | same s _ _ _ ih => simpa using ih

theorem Grammatical.tail {p : Token} {pattern : List Token} (grammar : Grammatical (p :: pattern)) :
    Grammatical pattern := by
  obtain ⟨filled, last⟩ := grammar
  refine ⟨fun h => filled (List.mem_cons_of_mem _ h), fun h => last ?_⟩
  cases pattern with
  | nil => simp at h
  | cons q pattern => simpa using Or.inr h

theorem Grammatical.rest_only {pattern : List Token} (grammar : Grammatical (rest :: pattern)) :
    pattern = [] := by
  cases pattern with
  | nil => rfl
  | cons q pattern => exact absurd (List.mem_cons_self ..) grammar.2

theorem delivers_cons {p s : Token} {pattern subject : List Token} (token : p ≠ rest) :
    Delivers (p :: pattern) (s :: subject) ↔ (p = anyOne ∨ p = s) ∧ Delivers pattern subject := by
  constructor
  · intro delivers
    cases delivers with
    | more => exact absurd rfl token
    | any _ tail => exact ⟨Or.inl rfl, tail⟩
    | same _ _ _ tail => exact ⟨Or.inr rfl, tail⟩
  · rintro ⟨fits, tail⟩
    by_cases wild : p = anyOne
    · rw [wild]
      exact .any s tail
    · rw [← fits.resolve_left wild]
      exact .same p token wild tail

theorem matchTokens_iff {pattern subject : List Token} (grammar : Grammatical pattern) :
    matchTokens pattern subject = true ↔ Delivers pattern subject ∨ EndsEarly pattern subject := by
  induction pattern generalizing subject with
  | nil =>
    have late : ¬ EndsEarly [] subject := fun early => by simp [EndsEarly] at early
    rw [or_iff_left late]
    cases subject with
    | nil => exact ⟨fun _ => .done, fun _ => rfl⟩
    | cons s subject => exact ⟨fun h => by simp [matchTokens] at h, fun h => by cases h⟩
  | cons p pattern ih =>
    by_cases last : p = rest
    · subst last
      have nothing := grammar.rest_only
      subst nothing
      simp only [matchTokens, if_true, true_iff]
      cases subject with
      | nil => exact Or.inr ⟨rfl, .done⟩
      | cons s subject => exact Or.inl (.more s subject)
    · cases subject with
      | nil =>
        simp only [matchTokens, last, if_false, Bool.false_eq_true, false_iff, not_or]
        refine ⟨?_, fun early => ?_⟩
        · intro delivers
          cases delivers
        obtain ⟨ends, head⟩ := early
        cases pattern with
        | nil => exact last (by simpa using ends)
        | cons q pattern => exact absurd head.length_le (by simp)
      | cons s subject =>
        have early : EndsEarly (p :: pattern) (s :: subject) ↔
            (p = anyOne ∨ p = s) ∧ EndsEarly pattern subject := by
          cases pattern with
          | nil => simp [EndsEarly, last]
          | cons q pattern =>
            simp only [EndsEarly, List.getLast?_cons_cons, List.dropLast_cons_cons, delivers_cons last]
            tauto
        rw [delivers_cons last, early, ← and_or_left, ← ih grammar.tail]
        simp only [matchTokens, last, if_false]
        by_cases wild : p = anyOne
        · simp [wild]
        · by_cases same : p = s <;> simp [wild, same]

theorem EndsEarly.not_delivers {pattern subject : List Token} (early : EndsEarly pattern subject)
    (grammar : Grammatical pattern) : ¬ Delivers pattern subject := by
  induction pattern generalizing subject with
  | nil => simp [EndsEarly] at early
  | cons p pattern ih =>
    cases pattern with
    | nil =>
      have head := early.2
      cases head
      intro delivers
      cases delivers
    | cons q pattern =>
      have token : p ≠ rest := fun h => grammar.2 (by simp [h])
      cases subject with
      | nil => exact fun h => by cases h
      | cons s subject =>
        intro delivers
        rw [delivers_cons token] at delivers
        have head := early.2
        rw [List.dropLast_cons_cons, delivers_cons token] at head
        exact ih ⟨by simpa using early.1, head.2⟩ grammar.tail delivers.2

theorem subjectMatches_agrees {pattern subject : String} (grammar : Grammatical (tokens pattern)) :
    (subjectMatches pattern subject = true ↔ Delivers (tokens pattern) (tokens subject)) ↔
      ¬ EndsEarly (tokens pattern) (tokens subject) := by
  rw [subjectMatches, matchTokens_iff grammar]
  constructor
  · intro agree early
    exact early.not_delivers grammar (agree.mp (Or.inr early))
  · intro late
    exact or_iff_left late

/-- The wildcard patterns of the streams without their last token. -/
def bareSubjects : List String :=
  ["telemetry.endpoint", "telemetry.sandbox", "investigation", "steering", "audit", "analyst"]

/-- The facts about the six definitions that are computed: their patterns are grammatical
and literal but for a last `>`, patterns of different streams differ in the first token,
and a bare prefix is matched, but by longer patterns only. -/
theorem streams_computed :
    (∀ stream ∈ streamDefinitions, ∀ pattern ∈ stream.subjects,
      ([] ∉ tokens pattern ∧ rest ∉ (tokens pattern).dropLast) ∧ anyOne ∉ tokens pattern ∧
      tokens pattern ≠ [rest] ∧ ((tokens pattern).getLast? = some rest →
        ∃ bare ∈ bareSubjects, (tokens pattern).dropLast = tokens bare)) ∧
    (∀ stream ∈ streamDefinitions, ∀ other ∈ streamDefinitions, ∀ pattern ∈ stream.subjects,
      ∀ second ∈ other.subjects, (tokens pattern).head? = (tokens second).head? → stream.name = other.name) ∧
    ∀ bare ∈ bareSubjects, streamForSubject bare ≠ none ∧ ∀ stream ∈ streamDefinitions,
      ∀ pattern ∈ stream.subjects, subjectMatches pattern bare = true →
        (tokens bare).length < (tokens pattern).length := by
  decide +kernel

theorem streams_grammatical {stream : StreamDefinition} (known : stream ∈ streamDefinitions) {pattern : String}
    (listed : pattern ∈ stream.subjects) : Grammatical (tokens pattern) :=
  (streams_computed.1 stream known pattern listed).1

theorem tokens_injective {first second : String} (same : tokens first = tokens second) : first = second := by
  have joined := congrArg (List.intercalate ['.']) same
  simp only [tokens, List.intercalate_splitOn] at joined
  exact String.toList_injective joined

theorem Delivers.eq_of_literal {pattern subject : List Token} (delivers : Delivers pattern subject)
    (named : rest ∉ pattern) (literal : anyOne ∉ pattern) : pattern = subject := by
  induction delivers with
  | done => rfl
  | more => exact absurd (List.mem_cons_self ..) named
  | any => exact absurd (List.mem_cons_self ..) literal
  | same s _ _ _ ih =>
    rw [ih (fun h => named (List.mem_cons_of_mem _ h)) (fun h => literal (List.mem_cons_of_mem _ h))]

theorem bare_of_early {stream : StreamDefinition} (known : stream ∈ streamDefinitions) {pattern subject : String}
    (listed : pattern ∈ stream.subjects) (early : EndsEarly (tokens pattern) (tokens subject)) :
    subject ∈ bareSubjects := by
  obtain ⟨⟨-, named⟩, literal, -, ends⟩ := streams_computed.1 stream known pattern listed
  obtain ⟨bare, isBare, same⟩ := ends early.1
  have all := early.2.eq_of_literal named fun h => literal ((List.dropLast_sublist _).subset h)
  rw [← tokens_injective (same.symm.trans all)]
  exact isBare

theorem Delivers.head_eq {pattern subject : List Token} (delivers : Delivers pattern subject)
    (named : rest ∉ pattern.dropLast) (literal : anyOne ∉ pattern) (two : pattern ≠ [rest]) :
    pattern.head? = subject.head? := by
  cases delivers with
  | done => rfl
  | more => exact absurd rfl two
  | any => exact absurd (List.mem_cons_self ..) literal
  | same => rfl

theorem stores_unique {stream other : StreamDefinition} (known : stream ∈ streamDefinitions)
    (second : other ∈ streamDefinitions) {subject : String} (stores : stream.Stores subject)
    (also : other.Stores subject) : stream.name = other.name := by
  obtain ⟨pattern, listed, delivers⟩ := stores
  obtain ⟨beside, listed', delivers'⟩ := also
  obtain ⟨⟨-, named⟩, literal, whole, -⟩ := streams_computed.1 stream known pattern listed
  obtain ⟨⟨-, named'⟩, literal', whole', -⟩ := streams_computed.1 other second beside listed'
  apply streams_computed.2.1 stream known other second pattern listed beside listed'
  rw [delivers.head_eq named literal whole, delivers'.head_eq named' literal' whole']

theorem streamForSubject_agrees (subject : String) :
    (∀ name, streamForSubject subject = some name ↔
      ∃ stream ∈ streamDefinitions, stream.name = name ∧ stream.Stores subject) ↔
      subject ∉ bareSubjects := by
  constructor
  · intro agree bare
    obtain ⟨name, found⟩ := Option.ne_none_iff_exists'.mp (streams_computed.2.2 subject bare).1
    obtain ⟨stream, known, -, pattern, listed, delivers⟩ := (agree name).mp found
    have grammar := streams_grammatical known listed
    have short := (streams_computed.2.2 subject bare).2 stream known pattern listed
      ((matchTokens_iff grammar).mpr (Or.inl delivers))
    exact absurd delivers.length_le (Nat.not_le.mpr short)
  · intro full name
    have hits {stream : StreamDefinition} (known : stream ∈ streamDefinitions) :
        (stream.subjects.any fun pattern => subjectMatches pattern subject) = true ↔ stream.Stores subject := by
      simp only [List.any_eq_true, StreamDefinition.Stores]
      refine exists_congr fun pattern => and_congr_right fun listed => ?_
      rw [subjectMatches_agrees (streams_grammatical known listed)]
      exact fun early => full (bare_of_early known listed early)
    constructor
    · intro found
      obtain ⟨stream, first, rfl⟩ := Option.map_eq_some_iff.mp found
      have known := List.mem_of_find?_eq_some first
      exact ⟨stream, known, rfl, (hits known).mp (by simpa using List.find?_some first)⟩
    · rintro ⟨stream, known, rfl, stores⟩
      cases first : streamDefinitions.find? fun stream => stream.subjects.any fun pattern =>
          subjectMatches pattern subject with
      | none =>
        have missed := List.find?_eq_none.mp first stream known
        exact absurd ((hits known).mpr stores) missed
      | some other =>
        have second := List.mem_of_find?_eq_some first
        have stored := (hits second).mp (by simpa using List.find?_some first)
        simp only [streamForSubject, first, Option.map_some, Option.some.injEq]
        exact stores_unique second known stored stores

theorem tokens_failed (subject : String) :
    tokens (failedSubjectFor subject) = tokens subject ++ [['f', 'a', 'i', 'l', 'e', 'd']] := by
  have parts : (failedSubjectFor subject).toList = subject.toList ++ '.' :: ['f', 'a', 'i', 'l', 'e', 'd'] := by
    simp [failedSubjectFor]
  rw [tokens, parts, List.splitOn, List.splitOnP_append_cons _ _ (by simp)]
  rfl

theorem Delivers.append {pattern subject : List Token} (delivers : Delivers pattern subject)
    (ends : pattern.getLast? = some rest) (s : Token) : Delivers pattern (subject ++ [s]) := by
  induction delivers with
  | done => simp at ends
  | more t subject => exact .more t (subject ++ [s])
  | @any t pattern subject tail ih =>
    refine .any t (ih ?_)
    cases pattern with
    | nil => exact absurd ends (by decide)
    | cons => simpa using ends
  | @same t pattern subject named literal tail ih =>
    refine .same t named literal (ih ?_)
    cases pattern with
    | nil => exact absurd (by simpa using ends) named
    | cons => simpa using ends

/-- For a grammatical pattern and any subject the code and the server agree
except on subjects that end where the wildcard begins; among the streams these are
the bare prefixes. A subject that a wildcard stores takes its dead letter along. -/
theorem subjects_agree_iff {pattern subject : String} (grammar : Grammatical (tokens pattern)) :
    ((subjectMatches pattern subject = true ↔ Delivers (tokens pattern) (tokens subject)) ↔
      ¬ EndsEarly (tokens pattern) (tokens subject)) ∧
    ((∀ name, streamForSubject subject = some name ↔
      ∃ stream ∈ streamDefinitions, stream.name = name ∧ stream.Stores subject) ↔
      subject ∉ bareSubjects) ∧
    ∀ stream ∈ streamDefinitions, ∀ wildcard ∈ stream.subjects, (tokens wildcard).getLast? = some rest →
      Delivers (tokens wildcard) (tokens subject) →
      Delivers (tokens wildcard) (tokens (failedSubjectFor subject)) := by
  refine ⟨subjectMatches_agrees grammar, streamForSubject_agrees subject, ?_⟩
  intro stream known wildcard listed ends delivers
  rw [tokens_failed]
  exact delivers.append ends _

theorem audit_subjects : subjectMatches "audit.>" "audit.recorded" = true ↔
    Delivers (tokens "audit.>") (tokens "audit.recorded") := by
  have computed : [] ∉ tokens "audit.>" ∧ rest ∉ (tokens "audit.>").dropLast ∧
      (tokens "audit.>").dropLast = [['a', 'u', 'd', 'i', 't']] ∧
      tokens "audit.recorded" ≠ [['a', 'u', 'd', 'i', 't']] := by
    decide +kernel
  obtain ⟨filled, last, head, other⟩ := computed
  refine (@subjects_agree_iff "audit.>" "audit.recorded" ⟨filled, last⟩).1.mpr fun early => ?_
  have same := early.2.eq_of_literal (by rw [head]; decide) (by rw [head]; decide)
  exact other (same.symm.trans head)

/-- `audit.>` takes the bare `audit`, which no stream of the server stores. -/
theorem audit_undelivered : subjectMatches "audit.>" "audit" = true ∧
    ¬ Delivers (tokens "audit.>") (tokens "audit") ∧
    streamForSubject "audit" = some "MIRAGE_AUDIT" ∧
    ∀ stream ∈ streamDefinitions, ¬ stream.Stores "audit" := by
  have computed : subjectMatches "audit.>" "audit" = true ∧ (tokens "audit").length < (tokens "audit.>").length ∧
      streamForSubject "audit" = some "MIRAGE_AUDIT" := by
    decide +kernel
  obtain ⟨matched, shorter, found⟩ := computed
  refine ⟨matched, fun delivers => ?_, found, ?_⟩
  · exact absurd delivers.length_le (Nat.not_le.mpr shorter)
  · rintro stream known ⟨pattern, listed, delivers⟩
    have grammar := streams_grammatical known listed
    have short := (streams_computed.2.2 "audit" (by simp [bareSubjects])).2 stream known pattern listed
      ((matchTokens_iff grammar).mpr (Or.inl delivers))
    exact absurd delivers.length_le (Nat.not_le.mpr short)

end Mirage.EventSubjects
