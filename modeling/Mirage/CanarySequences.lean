import Mirage.CanaryConcurrency
import Mirage.EvidenceLedger

/-! The sequences of the requests under way. A sequence is the next one of its source when it is
computed, and `acquire` refuses it once another row has been committed behind it. -/

namespace Mirage.CanarySequences
open EventRun EvidenceAcquisition CanaryConcurrency
open RowLocks hiding step

theorem nextSequence_le_iff {rows : List EvidenceRow} {n : Int} :
    nextSequence rows ≤ n ↔ 0 < n ∧ ∀ row ∈ rows, row.sourceSequence < n := by
  have fold (ns : List Int) : ∀ low : Int, ns.foldl max low + 1 ≤ n ↔ low < n ∧ ∀ m ∈ ns, m < n := by
    induction ns with
    | nil => simp [Int.add_one_le_iff]
    | cons m ns ih =>
      intro low
      rw [List.foldl_cons, ih (max low m)]
      simp only [max_lt_iff, List.mem_cons, forall_eq_or_imp]
      tauto
  rw [nextSequence, fold]
  simp

theorem nextSequence_pos (rows : List EvidenceRow) : 0 < nextSequence rows :=
  (nextSequence_le_iff.mp (le_refl _)).1

theorem lt_nextSequence {rows : List EvidenceRow} {row : EvidenceRow} (mem : row ∈ rows) :
    row.sourceSequence < nextSequence rows := (nextSequence_le_iff.mp (le_refl _)).2 row mem

theorem maxSequence_lt_iff {l : Ledger} {source : String} {n : Int} (positive : 0 < n) :
    maxSequence l source < n ↔ ∀ row ∈ rowsOf l source, row.sourceSequence < n := by
  have fold (ns : List Int) : ∀ low : Int, ns.foldl max low < n ↔ low < n ∧ ∀ m ∈ ns, m < n := by
    induction ns with
    | nil => simp
    | cons m ns ih =>
      intro low
      rw [List.foldl_cons, ih (max low m)]
      simp only [max_lt_iff, List.mem_cons, forall_eq_or_imp]
      tauto
  rw [maxSequence, fold]
  have : (-1 : Int) < n := by omega
  simp [this]

/-! The sequences of the requests under way. -/

/-- The rows that the source has got since the sequence was computed have that or a later one. -/
structure Computed (l : Ledger) (c : Call) (seen : ℕ) : Prop where
  bare : c.request.sourceCertificateSerial = none
  bound : seen ≤ (rowsOf l c.request.sourceId).length
  next : c.request.sourceSequence = nextSequence ((rowsOf l c.request.sourceId).take seen)
  later : ∀ row ∈ (rowsOf l c.request.sourceId).drop seen, c.request.sourceSequence ≤ row.sourceSequence

def Behind (l : Ledger) (c : Call) : Acquired → Prop
  | .inserted p => p.call = c ∧ 0 < c.request.sourceSequence ∧
      ∀ row ∈ rowsOf l c.request.sourceId, row.sourceSequence < c.request.sourceSequence
  | .found _ => True

def Fits (l : Ledger) (x : Transaction) : Prop :=
  match x.phase with
  | .allocated c seen => Computed l c seen
  | .acquired c evidence | .written c evidence => Behind l c evidence
  | _ => True

structure Sequenced (w : World) : Prop where
  fits : ∀ (i : ℕ) (x : Transaction), w.transactions[i]? = some x → Fits w.ledger x
  exclusive : ∀ (i j : ℕ) (x y : Transaction) (source : String), w.transactions[i]? = some x →
    w.transactions[j]? = some y → x.holdsSource = some source → y.holdsSource = some source → i = j

section
variable {w w' : World} {i : ℕ} {x x' : Transaction}

theorem free_of_not_locked {source : String} (free : sourceLocked w source = false)
    (found : w.transactions[i]? = some x) : x.holdsSource ≠ some source := by
  intro holds
  rw [sourceLocked, ← Bool.not_eq_true, List.any_eq_true] at free
  exact free ⟨x, List.mem_of_getElem? found, by simp [holds]⟩

theorem sequenced_put (good : Sequenced w) (found : w.transactions[i]? = some x) (fits : Fits w.ledger x')
    (takes : ∀ source, x'.holdsSource = some source → x.holdsSource = some source ∨ sourceLocked w source = false)
    (transactions : w'.transactions = w.transactions.set i x') (ledger : w'.ledger = w.ledger) : Sequenced w' := by
  constructor
  · rw [transactions, ledger]
    intro j y foundY
    rcases set_cases foundY with ⟨-, rfl⟩ | ⟨-, before⟩
    · exact fits
    · exact good.fits j y before
  · have other (j : ℕ) (y : Transaction) (source : String) (before : w.transactions[j]? = some y)
        (holds : x'.holdsSource = some source) (holdsY : y.holdsSource = some source) : i = j := by
      rcases takes source holds with held | free
      · exact good.exclusive i j x y source found before held holdsY
      · exact absurd holdsY (free_of_not_locked free before)
    rw [transactions]
    intro j k y z source foundY foundZ holdsY holdsZ
    rcases set_cases foundY with ⟨rfl, rfl⟩ | ⟨-, beforeY⟩ <;> rcases set_cases foundZ with ⟨rfl, rfl⟩ | ⟨-, beforeZ⟩
    · rfl
    · exact other k z source beforeZ holdsY holdsZ
    · exact (other j y source beforeY holdsZ holdsY).symm
    · exact good.exclusive j k y z source beforeY beforeZ holdsY holdsZ

theorem sequenced_frame (good : Sequenced w) (transactions : w'.transactions = w.transactions)
    (ledger : w'.ledger = w.ledger) : Sequenced w' :=
  ⟨by rw [transactions, ledger]; exact good.fits, by rw [transactions]; exact good.exclusive⟩

theorem sequenced_over (good : Sequenced w) (found : w.transactions[i]? = some x)
    (transactions : w'.transactions = w.transactions.set i { x with phase := .over }) (ledger : w'.ledger = w.ledger) :
    Sequenced w' :=
  sequenced_put good found (show Fits w.ledger { x with phase := .over } from trivial) (fun _ holds => (by cases holds)) transactions ledger

theorem computed_append {l l' : Ledger} {c : Call} {seen : ℕ} {row : EvidenceRow} (good : Computed l c seen)
    (grown : l'.rows.rows = l.rows.rows ++ [row])
    (behind : row.sourceId = c.request.sourceId → 0 < row.sourceSequence ∧
      ∀ before ∈ rowsOf l row.sourceId, before.sourceSequence < row.sourceSequence) : Computed l' c seen := by
  have rows := EvidenceLedger.rowsOf_append grown c.request.sourceId
  by_cases own : row.sourceId = c.request.sourceId
  · obtain ⟨positive, beyond⟩ := behind own
    rw [own] at beyond
    rw [if_pos own] at rows
    refine ⟨good.bare, ?_, ?_, ?_⟩
    · rw [rows, List.length_append]
      exact Nat.le_add_right_of_le good.bound
    · rw [rows, List.take_append_of_le_length good.bound]
      exact good.next
    · rw [rows, List.drop_append_of_le_length good.bound]
      intro later mem
      rcases List.mem_append.mp mem with before | new
      · exact good.later later before
      · rw [List.mem_singleton.mp new, good.next, nextSequence_le_iff]
        exact ⟨positive, fun before mem => beyond before (List.mem_of_mem_take mem)⟩
  · rw [if_neg own, List.append_nil] at rows
    refine ⟨good.bare, ?_, ?_, ?_⟩ <;> rw [rows]
    · exact good.bound
    · exact good.next
    · exact good.later

theorem store_eq_some {l l' : Ledger} {location : Location} {c : Call} {evidence : Acquired}
    (behind : Behind l c evidence) (stored : evidence.store l location = some l') :
    l' = l ∨ ∃ p, evidence = .inserted p ∧ p.call = c ∧ l'.rows.rows = l.rows.rows ++ [newRow p location] := by
  cases evidence with
  | found record =>
    cases stored
    exact .inl rfl
  | inserted p => exact .inr ⟨p, rfl, behind.1, (insertAll_eq_some stored).2.1⟩

theorem sequenced_commit (good : Sequenced w) (found : w.transactions[i]? = some x) {c : Call} {evidence : Acquired}
    (written : x.phase = .written c evidence) {location : Location}
    (stored : evidence.store w.ledger location = some w'.ledger)
    (transactions : w'.transactions = w.transactions.set i { x with phase := .over }) : Sequenced w' := by
  have holds : x.holdsSource = some c.request.sourceId := by rw [Transaction.holdsSource, written]
  have behind : Behind w.ledger c evidence := by
    have fits := good.fits i x found
    rw [Fits, written] at fits
    exact fits
  obtain same | ⟨p, rfl, rfl, grown⟩ := store_eq_some behind stored
  · exact sequenced_over good found transactions same
  · obtain ⟨-, positive, beyond⟩ := behind
    have done : Sequenced { w with transactions := w.transactions.set i { x with phase := .over } } :=
      sequenced_over good found rfl rfl
    refine ⟨?_, by rw [transactions]; exact done.exclusive⟩
    rw [transactions]
    intro j y foundY
    have fits := done.fits j y foundY
    have apart : ∀ source, y.holdsSource = some source → source ≠ p.call.request.sourceId := by
      rintro source holdsY rfl
      rcases set_cases foundY with ⟨-, rfl⟩ | ⟨other, before⟩
      · cases holdsY
      · exact other (good.exclusive j i y x _ before found holdsY holds)
    have others (c' : Call) (evidence' : Acquired) (behind' : Behind w.ledger c' evidence')
        (elsewhere : c'.request.sourceId ≠ p.call.request.sourceId) : Behind w'.ledger c' evidence' := by
      cases evidence' with
      | found record => trivial
      | inserted p' =>
        have rows := EvidenceLedger.rowsOf_append grown c'.request.sourceId
        rw [if_neg fun same => elsewhere same.symm, List.append_nil] at rows
        refine ⟨behind'.1, behind'.2.1, ?_⟩
        rw [rows]
        exact behind'.2.2
    unfold Fits at fits ⊢
    cases phase : y.phase with
    | allocated c' seen =>
      rw [phase] at fits
      exact computed_append fits grown fun _ => ⟨positive, beyond⟩
    | acquired c' evidence' | written c' evidence' =>
      rw [phase] at fits
      exact others c' evidence' fits (apart _ (by rw [Transaction.holdsSource, phase]))
    | _ => trivial

end

theorem admissible_error {d : Domain} {r : AcquisitionRequest} {e : EvidenceAcquisition.Raised}
    (bare : r.sourceCertificateSerial = none) (refused : admissible d r = .error e) : e.cls = .evidence := by
  unfold admissible at refused
  cases known : require (r.caseId ∈ d.cases) (⟨.evidence, "unknown case"⟩ : EvidenceAcquisition.Raised) with
  | error e' =>
    rw [known] at refused
    cases refused
    unfold require at known
    split at known <;> cases known
    rfl
  | ok u =>
    rw [known] at refused
    simp only [bind, Except.bind, authenticate, bare, given, Option.filter] at refused
    cases session : admitSession d r with
    | error e' =>
      rw [session] at refused
      cases refused
      unfold admitSession require at session
      split at session
      · cases session
      · split at session <;> cases session
        rfl
    | ok u' =>
      rw [session] at refused
      cases refused

def Repeats (l : Ledger) (p : Prepared) : Prop :=
  ∃ row, ((rowsOf l p.call.request.sourceId).find? fun row => row.sourceSequence = p.call.request.sourceSequence) =
    some row ∧ sameEvidence row p

/-- The checks raise a source error exactly if the source has got a row since the sequence was computed,
and the one with that sequence is not the same evidence. -/
theorem check_source_iff {d : Domain} {l : Ledger} {p : Prepared} {seen : ℕ} (computed : Computed l p.call seen) :
    (∃ e, check d l p = .error e ∧ e.cls = .source) ↔
      admissible d p.call.request = .ok () ∧ (rowsOf l p.call.request.sourceId).length ≠ seen ∧ ¬ Repeats l p := by
  have before : ∀ row ∈ (rowsOf l p.call.request.sourceId).take seen,
      row.sourceSequence < p.call.request.sourceSequence := by
    rw [computed.next]
    exact fun row mem => lt_nextSequence mem
  have current (same : (rowsOf l p.call.request.sourceId).length = seen) :
      ∀ row ∈ rowsOf l p.call.request.sourceId, row.sourceSequence < p.call.request.sourceSequence := by
    rw [← same, List.take_length] at before
    exact before
  have overtaken (other : (rowsOf l p.call.request.sourceId).length ≠ seen) :
      ∃ row ∈ rowsOf l p.call.request.sourceId, p.call.request.sourceSequence ≤ row.sourceSequence := by
    have nonempty : (rowsOf l p.call.request.sourceId).drop seen ≠ [] := by
      intro empty
      exact other (Nat.le_antisymm (List.drop_eq_nil_iff.mp empty) computed.bound)
    obtain ⟨row, mem⟩ := List.exists_mem_of_ne_nil _ nonempty
    exact ⟨row, List.mem_of_mem_drop mem, computed.later row mem⟩
  unfold check
  cases admission : admissible d p.call.request with
  | error e =>
    have evidence := admissible_error computed.bare admission
    constructor
    · rintro ⟨e', raised, source⟩
      cases raised
      rw [evidence] at source
      cases source
    · rintro ⟨admitted, -⟩
      cases admitted
  | ok u =>
    simp only [bind, Except.bind, true_and, Repeats]
    cases known : (rowsOf l p.call.request.sourceId).find? fun row =>
        row.sourceSequence = p.call.request.sourceSequence with
    | some row =>
      have mem := List.mem_of_find?_eq_some known
      have at_ := List.find?_some known
      rw [decide_eq_true_eq] at at_
      have other : (rowsOf l p.call.request.sourceId).length ≠ seen := by
        intro same
        have below := current same row mem
        omega
      cases same : sameEvidence row p with
      | true => simp [same, require, pure, Except.pure]
      | false => simp [same, require, other]
    | none =>
      by_cases same : (rowsOf l p.call.request.sourceId).length = seen
      · have below := (maxSequence_lt_iff (by rw [computed.next]; exact nextSequence_pos _)).mpr (current same)
        simp [same, require, below, pure, Except.pure]
      · obtain ⟨row, mem, beyond⟩ := overtaken same
        have notBelow : ¬ maxSequence l p.call.request.sourceId < p.call.request.sourceSequence := by
          intro below
          have := le_maxSequence mem
          omega
        simp [same, require, notBelow]

section
variable (sha256 : Bytes → String) (overrides : List (String × ℕ))

theorem prepare_error {c : Call} {e : EvidenceAcquisition.Raised} (refused : prepare sha256 overrides c = .error e) :
    e.cls ≠ .source := by
  unfold prepare at refused
  simp only [bind_eq_error, present_eq_error, streamHash_eq] at refused
  obtain ⟨-, rfl⟩ | ⟨maxBytes, -, ⟨-, rfl⟩ | ⟨category, -, read | ⟨⟨spool, size, digest⟩, -, key⟩⟩⟩ := refused
  · exact fun same => (by cases same)
  · exact fun same => (by cases same)
  · split at read
    · cases read
    · cases read
      exact fun same => (by cases same)
  · obtain keyed | ⟨key', -, made⟩ := key
    · unfold evidenceS3Key at keyed
      simp only [bind_eq_error, require_eq_error] at keyed
      obtain ⟨-, rfl⟩ | ⟨-, -, ⟨-, rfl⟩ | ⟨-, -, ⟨-, rfl⟩ | ⟨-, -, made⟩⟩⟩ := keyed
      · exact fun same => (by cases same)
      · exact fun same => (by cases same)
      · exact fun same => (by cases same)
      · cases made
    · cases made

section
variable {w : World} {i : ℕ} {x : Transaction}

theorem sequenced_lockToken (good : Sequenced w) (found : w.transactions[i]? = some x) (r : Callback) :
    Sequenced (lockToken w i x r) := by
  unfold lockToken
  split
  · exact sequenced_over good found rfl rfl
  split
  · exact good
  split
  · exact sequenced_over good found rfl rfl
  split
  · exact sequenced_over good found rfl rfl
  split
  · exact sequenced_over good found rfl rfl
  · rename_i token _ _ _ _ _ _ _
    exact sequenced_put good found (show Fits w.ledger { x with token := some token, phase := .locked } from trivial)
      (fun _ holds => (by cases holds)) rfl rfl

theorem sequenced_checkReplay (good : Sequenced w) (found : w.transactions[i]? = some x) (r : Callback) (token : Token) :
    Sequenced (checkReplay w i x r token) := by
  unfold checkReplay
  split
  · exact sequenced_over good found rfl rfl
  split
  · exact sequenced_over good found rfl rfl
  · exact sequenced_put good found (show Fits w.ledger { x with phase := .checked } from trivial)
      (fun _ holds => (by cases holds)) rfl rfl

theorem computed_now {l : Ledger} {c : Call} (bare : c.request.sourceCertificateSerial = none)
    (next : c.request.sourceSequence = nextSequence (rowsOf l c.request.sourceId)) :
    Computed l c (rowsOf l c.request.sourceId).length := by
  refine ⟨bare, le_refl _, ?_, ?_⟩
  · rw [List.take_length]
    exact next
  · rw [List.drop_length]
    exact fun row mem => (by cases mem)

theorem sequenced_computed (good : Sequenced w) (found : w.transactions[i]? = some x) {c : Call} {seen : ℕ}
    (computed : Computed w.ledger c seen) : Sequenced (w.put i { x with phase := .allocated c seen }) :=
  sequenced_put good found (show Fits w.ledger { x with phase := .allocated c seen } from computed)
    (fun _ holds => (by cases holds)) rfl rfl

theorem sequenced_allocate (good : Sequenced w) (found : w.transactions[i]? = some x) : Sequenced (allocate w i x) := by
  unfold allocate
  dsimp only
  split
  · rename_i r token job _ _
    split
    · have source : x.job.source = canarySource := by rw [job]; rfl
      rw [source]
      exact sequenced_computed good found (computed_now rfl rfl)
    · exact good
  · rename_i r job _
    have source : x.job.source = reportSource := by rw [job]; rfl
    rw [source]
    exact sequenced_computed good found (computed_now rfl rfl)
  · exact good

theorem sequenced_acquire (good : Sequenced w) (found : w.transactions[i]? = some x) {c : Call} {seen : ℕ}
    (allocated : x.phase = .allocated c seen) : Sequenced (acquire sha256 overrides w i x c) := by
  have computed : Computed w.ledger c seen := by
    have fits := good.fits i x found
    rw [Fits, allocated] at fits
    exact fits
  unfold acquire
  split
  · exact good
  rename_i free
  have takes (evidence : Acquired) : ∀ source,
      Transaction.holdsSource { x with phase := .acquired c evidence } = some source →
      x.holdsSource = some source ∨ sourceLocked w source = false := by
    intro source holds
    cases holds
    exact .inr (Bool.of_not_eq_true free)
  split
  · exact sequenced_over good found rfl rfl
  · rename_i p prepared
    obtain ⟨rfl, -⟩ := prepare_eq_ok prepared
    split
    · exact sequenced_over good found rfl rfl
    · rename_i record _
      exact sequenced_put good found
        (show Fits w.ledger { x with phase := .acquired p.call (.found record) } from trivial) (takes _) rfl rfl
    · rename_i passed
      have behind : Behind w.ledger p.call (.inserted p) :=
        ⟨rfl, by rw [computed.next]; exact nextSequence_pos _, check_eq_none passed⟩
      exact sequenced_put good found
        (show Fits w.ledger { x with phase := .acquired p.call (.inserted p) } from behind) (takes _) rfl rfl

theorem sequenced_write (good : Sequenced w) (found : w.transactions[i]? = some x) {c : Call} {evidence : Acquired}
    (acquired : x.phase = .acquired c evidence) : Sequenced (write w i x c evidence) := by
  have behind : Behind w.ledger c evidence := by
    have fits := good.fits i x found
    rw [Fits, acquired] at fits
    exact fits
  have goesOn : Sequenced (w.put i { x with phase := .written c evidence }) :=
    sequenced_put good found (show Fits w.ledger { x with phase := .written c evidence } from behind)
      (fun source holds => by
        cases holds
        exact .inl (by rw [Transaction.holdsSource, acquired])) rfl rfl
  unfold write
  split
  · exact goesOn
  split
  · exact sequenced_over good found rfl rfl
  split
  · exact sequenced_over good found rfl rfl
  · exact goesOn

theorem sequenced_commits (good : Sequenced w) (found : w.transactions[i]? = some x) {c : Call} {evidence : Acquired}
    (written : x.phase = .written c evidence) (location : Location) :
    Sequenced (commit w i x c evidence location) := by
  unfold commit
  split
  · exact sequenced_over good found rfl rfl
  · rename_i ledger stored
    split
    · split
      · exact sequenced_commit good found written stored rfl
      · exact sequenced_over good found rfl rfl
    · exact sequenced_commit good found written stored rfl

theorem sequenced_step (good : Sequenced w) (a : Action) : Sequenced (step sha256 overrides w a) := by
  have advanced (i : ℕ) (a : Action) : Sequenced ((w.transactions[i]?).elim w fun x => advance sha256 overrides w i x a) := by
    cases found : w.transactions[i]? with
    | none => exact good
    | some x =>
      simp only [Option.elim]
      cases a with
      | lockToken | checkReplay | acquire | write | commit =>
        simp only [advance]
        split
        · first
          | exact sequenced_lockToken good found _
          | exact sequenced_checkReplay good found _ _
          | exact sequenced_acquire sha256 overrides good found ‹_›
          | exact sequenced_write good found ‹_›
          | exact sequenced_commits good found ‹_› _
        · exact good
      | allocate => exact sequenced_allocate good found
      | fail =>
        simp only [advance]
        split
        · exact good
        · exact sequenced_over good found rfl rfl
      | _ => exact good
  cases a with
  | issueToken token =>
    simp only [step, issueToken]
    split
    · exact good
    · exact sequenced_frame good rfl rfl
  | revokeToken caseId tokenId now =>
    simp only [step, revokeToken]
    split
    · exact good
    · exact sequenced_frame good rfl rfl
  | surroundings domain => exact sequenced_frame good rfl rfl
  | request job =>
    constructor
    · intro j y foundY
      rcases concat_cases foundY with before | ⟨-, rfl⟩
      · exact good.fits j y before
      · trivial
    · intro j k y z source foundY foundZ holdsY holdsZ
      rcases concat_cases foundY with beforeY | ⟨-, rfl⟩
      · rcases concat_cases foundZ with beforeZ | ⟨-, rfl⟩
        · exact good.exclusive j k y z source beforeY beforeZ holdsY holdsZ
        · cases holdsZ
      · cases holdsY
  | lockToken i | checkReplay i | allocate i | acquire i | write i | commit i location | fail i => exact advanced i _

end

end

end Mirage.CanarySequences
