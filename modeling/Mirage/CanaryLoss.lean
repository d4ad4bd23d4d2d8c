import Mirage.CanaryTokens

/-! Requests that are refused because another one of their source was in flight. A sequence is computed
behind the rows that are committed then, and the lock of the source is taken only by `acquire`. -/

namespace Mirage.CanaryLoss
open EventRun EvidenceAcquisition CanaryConcurrency CanarySequences

def Admitted (w : World) : Prop :=
  ∀ (i : ℕ) (e : EvidenceAcquisition.Raised), (i, Answer.raised e) ∈ w.answers → e.cls ≠ .source

def Yielded (w : World) : Prop :=
  ∀ (i : ℕ) (x : Transaction) (r : Callback), w.transactions[i]? = some x → x.job = .callback r → x.phase.isOver →
    (∃ row ∈ w.callbacks, row.callbackId = r.callbackId ∧ r.collectorRequestId = some row.collectorRequestId) ∨
      ∃ answer, (i, answer) ∈ w.answers ∧ answer ≠ .done

def Ready (x : Transaction) : Prop :=
  ∀ r, x.job = .callback r → match x.phase with
    | .opened | .over => True
    | .written _ _ => x.token.isSome ∧ r.callbackTime.isSome ∧ r.collectorRequestId.isSome
    | _ => x.token.isSome ∧ r.callbackTime.isSome

structure Recorded (w : World) : Prop where
  ready : ∀ (i : ℕ) (x : Transaction), w.transactions[i]? = some x → Ready x
  yielded : Yielded w

section
variable (sha256 : Bytes → String) (overrides : List (String × ℕ))

def Refuses (w : World) (x : Transaction) (a : Action) (e : EvidenceAcquisition.Raised) : Prop :=
  ∃ i c seen, a = .acquire i ∧ x.phase = .allocated c seen ∧ sourceLocked w c.request.sourceId = false ∧
    (prepare sha256 overrides c = .error e ∨
      ∃ p, prepare sha256 overrides c = .ok p ∧ check w.domain w.ledger p = .error e)

inductive Moved (w : World) (i : ℕ) (x : Transaction) (a : Action) (w' : World) : Prop where
  | still (transactions : w'.transactions = w.transactions) (answers : w'.answers = w.answers)
      (callbacks : w'.callbacks = w.callbacks)
  | goesOn (x' : Transaction) (job : x'.job = x.job) (ready : Ready x') (under : x'.phase.isOver = false)
      (transactions : w'.transactions = w.transactions.set i x') (answers : w'.answers = w.answers)
      (callbacks : w'.callbacks = w.callbacks)
  | ends (answer : Answer) (refused : answer ≠ .done)
      (raised : ∀ e, answer = .raised e → Refuses sha256 overrides w x a e)
      (transactions : w'.transactions = w.transactions.set i { x with phase := .over })
      (answers : w'.answers = w.answers ++ [(i, answer)]) (callbacks : w'.callbacks = w.callbacks)
  | succeeds (transactions : w'.transactions = w.transactions.set i { x with phase := .over })
      (answers : w'.answers = w.answers ++ [(i, .done)]) (grows : ∀ row ∈ w.callbacks, row ∈ w'.callbacks)
      (row : ∀ r, x.job = .callback r →
        ∃ row ∈ w'.callbacks, row.callbackId = r.callbackId ∧ r.collectorRequestId = some row.collectorRequestId)

end

section
variable {sha256 : Bytes → String} {overrides : List (String × ℕ)} {w : World} {i : ℕ} {x : Transaction} {a : Action}

theorem moved_finish {answer : Answer} (refused : answer ≠ .done)
    (raised : ∀ e, answer = .raised e → Refuses sha256 overrides w x a e) :
    Moved sha256 overrides w i x a (w.finish i x answer) :=
  .ends answer refused raised rfl rfl rfl

theorem moved_http (status : ℕ) (detail : String) :
    Moved sha256 overrides w i x a (w.finish i x (.http status detail)) :=
  moved_finish (fun same => (by cases same)) (fun _ same => (by cases same))

theorem moved_failed : Moved sha256 overrides w i x a (w.finish i x .failed) :=
  moved_finish (fun same => (by cases same)) (fun _ same => (by cases same))

theorem moved_put {phase : Phase} (under : phase.isOver = false) (ready : Ready { x with phase }) :
    Moved sha256 overrides w i x a (w.put i { x with phase }) :=
  .goesOn { x with phase } rfl ready under rfl rfl rfl

theorem moved_lockToken {r : Callback} (job : x.job = .callback r) :
    Moved sha256 overrides w i x a (lockToken w i x r) := by
  unfold lockToken
  split
  · exact moved_http _ _
  rename_i token _
  split
  · exact .still rfl rfl rfl
  split
  · exact moved_http _ _
  split
  · exact moved_failed
  rename_i time timed
  split
  · exact .ends _ (fun same => (by cases same)) (fun _ same => (by cases same)) rfl rfl rfl
  · refine .goesOn { x with token := some token, phase := .locked } rfl (fun r' job' => ?_) rfl rfl rfl rfl
    cases job.symm.trans job'
    exact ⟨rfl, by rw [timed]; rfl⟩

theorem moved_checkReplay (ready : Ready x) {r : Callback} {token : Token} (locked : x.phase = .locked) :
    Moved sha256 overrides w i x a (checkReplay w i x r token) := by
  unfold checkReplay
  split
  · exact moved_http _ _
  split
  · exact moved_http _ _
  · refine moved_put rfl fun r' job' => ?_
    have before := ready r' job'
    rw [locked] at before
    exact before

theorem moved_allocate (ready : Ready x) : Moved sha256 overrides w i x a (allocate w i x) := by
  unfold allocate
  dsimp only
  split
  · rename_i r token job _ checked
    split
    · refine moved_put rfl fun r' job' => ?_
      have before := ready r' job'
      rw [checked] at before
      exact before
    · exact .still rfl rfl rfl
  · rename_i r job _
    refine moved_put rfl fun r' job' => ?_
    cases job.symm.trans job'
  · exact .still rfl rfl rfl

theorem moved_acquire (ready : Ready x) {j : ℕ} {c : Call} {seen : ℕ} (allocated : x.phase = .allocated c seen) :
    Moved sha256 overrides w i x (.acquire j) (acquire sha256 overrides w i x c) := by
  have goesOn (evidence : Acquired) :
      Moved sha256 overrides w i x (.acquire j) (w.put i { x with phase := .acquired c evidence }) := by
    refine moved_put rfl fun r' job' => ?_
    have before := ready r' job'
    rw [allocated] at before
    exact before
  unfold acquire
  split
  · exact .still rfl rfl rfl
  rename_i free
  have free := Bool.of_not_eq_true free
  split
  · rename_i e refused
    refine moved_finish (fun same => (by cases same)) fun e' same => ?_
    cases same
    exact ⟨j, c, seen, rfl, allocated, free, .inl refused⟩
  · rename_i p prepared
    split
    · rename_i e refused
      refine moved_finish (fun same => (by cases same)) fun e' same => ?_
      cases same
      exact ⟨j, c, seen, rfl, allocated, free, .inr ⟨p, prepared, refused⟩⟩
    · exact goesOn _
    · exact goesOn _

theorem moved_write (ready : Ready x) {c : Call} {evidence : Acquired} (acquired : x.phase = .acquired c evidence) :
    Moved sha256 overrides w i x a (write w i x c evidence) := by
  unfold write
  split
  · rename_i r job
    refine moved_put rfl fun r' job' => ?_
    cases job.symm.trans job'
  · rename_i r job
    split
    · exact moved_failed
    rename_i id requested
    split
    · exact moved_failed
    · refine moved_put rfl fun r' job' => ?_
      cases job.symm.trans job'
      have before := ready r job
      rw [acquired] at before
      exact ⟨before.1, before.2, by rw [requested]; rfl⟩

theorem moved_commit (ready : Ready x) {c : Call} {evidence : Acquired} (written : x.phase = .written c evidence)
    (location : Location) : Moved sha256 overrides w i x a (commit w i x c evidence location) := by
  unfold commit
  split
  · exact moved_failed
  · cases job : x.job with
    | completion r =>
      refine .succeeds rfl rfl (fun _ mem => mem) fun r' job' => ?_
      cases job.symm.trans job'
    | callback r =>
      have before := ready r job
      rw [written] at before
      obtain ⟨t, token⟩ := Option.isSome_iff_exists.mp before.1
      obtain ⟨time, timed⟩ := Option.isSome_iff_exists.mp before.2.1
      obtain ⟨id, requested⟩ := Option.isSome_iff_exists.mp before.2.2
      simp only [token, timed, requested]
      refine .succeeds rfl rfl (fun _ mem => List.mem_append_left _ mem) fun r' job' => ?_
      cases job.symm.trans job'
      exact ⟨_, List.mem_append_right _ (List.mem_singleton_self _), rfl, requested⟩

theorem moved_advance (ready : Ready x) : Moved sha256 overrides w i x a (advance sha256 overrides w i x a) := by
  cases a with
  | lockToken =>
    simp only [advance]
    split
    · exact moved_lockToken ‹_›
    · exact .still rfl rfl rfl
  | checkReplay =>
    simp only [advance]
    split
    · exact moved_checkReplay ready ‹_›
    · exact .still rfl rfl rfl
  | allocate => exact moved_allocate ready
  | acquire =>
    simp only [advance]
    split
    · exact moved_acquire ready ‹_›
    · exact .still rfl rfl rfl
  | write =>
    simp only [advance]
    split
    · exact moved_write ready ‹_›
    · exact .still rfl rfl rfl
  | commit =>
    simp only [advance]
    split
    · exact moved_commit ready ‹_› _
    · exact .still rfl rfl rfl
  | fail =>
    simp only [advance]
    split
    · exact .still rfl rfl rfl
    · exact moved_failed
  | _ => exact .still rfl rfl rfl

theorem recorded_frame {w' : World} (recorded : Recorded w) (transactions : w'.transactions = w.transactions)
    (answers : w'.answers = w.answers) (callbacks : w'.callbacks = w.callbacks) : Recorded w' := by
  refine ⟨by rw [transactions]; exact recorded.ready, ?_⟩
  unfold Yielded
  rw [transactions, answers, callbacks]
  exact recorded.yielded

theorem recorded_moved {w' : World} (recorded : Recorded w) (moved : Moved sha256 overrides w i x a w') : Recorded w' := by
  have kept {answer : Answer} {j : ℕ} {y : Transaction} {r : Callback} (foundY : w.transactions[j]? = some y)
      (job : y.job = .callback r) (ended : y.phase.isOver) (answers : w'.answers = w.answers ++ [(i, answer)])
      (grows : ∀ row ∈ w.callbacks, row ∈ w'.callbacks) :
      (∃ row ∈ w'.callbacks, row.callbackId = r.callbackId ∧ r.collectorRequestId = some row.collectorRequestId) ∨
        ∃ answer, (j, answer) ∈ w'.answers ∧ answer ≠ .done := by
    rw [answers]
    obtain ⟨row, mem, same⟩ | ⟨before, mem, refused⟩ := recorded.yielded j y r foundY job ended
    · exact .inl ⟨row, grows row mem, same⟩
    · exact .inr ⟨before, List.mem_append_left _ mem, refused⟩
  cases moved with
  | still transactions answers callbacks => exact recorded_frame recorded transactions answers callbacks
  | goesOn x' job ready under transactions answers callbacks =>
    constructor
    · rw [transactions]
      intro j y foundY
      rcases set_cases foundY with ⟨-, rfl⟩ | ⟨-, before⟩
      · exact ready
      · exact recorded.ready j y before
    · unfold Yielded
      rw [transactions, answers, callbacks]
      intro j y r foundY jobY ended
      rcases set_cases foundY with ⟨-, rfl⟩ | ⟨-, before⟩
      · rw [under] at ended
        cases ended
      · exact recorded.yielded j y r before jobY ended
  | ends answer refused raised transactions answers callbacks =>
    constructor
    · rw [transactions]
      intro j y foundY
      rcases set_cases foundY with ⟨-, rfl⟩ | ⟨-, before⟩
      · exact fun _ _ => trivial
      · exact recorded.ready j y before
    · intro j y r foundY jobY ended
      rw [transactions] at foundY
      rcases set_cases foundY with ⟨rfl, -⟩ | ⟨-, before⟩
      · refine .inr ⟨answer, ?_, refused⟩
        rw [answers]
        exact List.mem_append_right _ (List.mem_singleton_self _)
      · exact kept before jobY ended answers fun _ mem => callbacks ▸ mem
  | succeeds transactions answers grows row =>
    constructor
    · rw [transactions]
      intro j y foundY
      rcases set_cases foundY with ⟨-, rfl⟩ | ⟨-, before⟩
      · exact fun _ _ => trivial
      · exact recorded.ready j y before
    · intro j y r foundY jobY ended
      rw [transactions] at foundY
      rcases set_cases foundY with ⟨rfl, rfl⟩ | ⟨-, before⟩
      · exact .inl (row r jobY)
      · exact kept before jobY ended answers grows

variable (sha256 overrides) in
/-- The request does not come too late: since its sequence was computed, no other row of its source has been
committed, or the one with that sequence is the same evidence. -/
def InTime (w : World) : Action → Prop
  | .acquire i => ∀ x c seen p, w.transactions[i]? = some x → x.phase = .allocated c seen →
      sourceLocked w c.request.sourceId = false → prepare sha256 overrides c = .ok p →
      admissible w.domain c.request = .ok () →
      (rowsOf w.ledger c.request.sourceId).length = seen ∨ Repeats w.ledger p
  | _ => True

theorem computed_of_allocated (good : Sequenced w) (found : w.transactions[i]? = some x) {c : Call} {seen : ℕ}
    (allocated : x.phase = .allocated c seen) : Computed w.ledger c seen := by
  have fits := good.fits i x found
  rw [Fits, allocated] at fits
  exact fits

theorem not_source_of_inTime (good : Sequenced w) (found : w.transactions[i]? = some x) (own : a.transaction? = some i)
    (inTime : InTime sha256 overrides w a) {e : EvidenceAcquisition.Raised}
    (refuses : Refuses sha256 overrides w x a e) : e.cls ≠ .source := by
  obtain ⟨j, c, seen, rfl, allocated, free, refused | ⟨p, prepared, refused⟩⟩ := refuses
  · exact prepare_error sha256 overrides refused
  · cases own
    intro source
    have computed := computed_of_allocated good found allocated
    obtain ⟨rfl, -⟩ := prepare_eq_ok prepared
    obtain ⟨admitted, overtaken, other⟩ := (check_source_iff computed).mp ⟨e, refused, source⟩
    rcases inTime x p.call seen p found allocated free prepared admitted with same | repeats
    · exact overtaken same
    · exact other repeats

theorem source_of_late (good : Sequenced w) (found : w.transactions[i]? = some x) {c : Call} {seen : ℕ}
    (allocated : x.phase = .allocated c seen) (free : sourceLocked w c.request.sourceId = false) {p : Prepared}
    (prepared : prepare sha256 overrides c = .ok p) (admitted : admissible w.domain c.request = .ok ())
    (overtaken : (rowsOf w.ledger c.request.sourceId).length ≠ seen) (other : ¬ Repeats w.ledger p) :
    ∃ e, acquire sha256 overrides w i x c = w.finish i x (.raised e) ∧ e.cls = .source := by
  have computed := computed_of_allocated good found allocated
  obtain ⟨rfl, -⟩ := prepare_eq_ok prepared
  obtain ⟨e, refused, source⟩ := (check_source_iff computed).mpr ⟨admitted, overtaken, other⟩
  refine ⟨e, ?_, source⟩
  unfold acquire
  rw [if_neg (by rw [free]; decide), prepared]
  simp only [refused]

theorem admitted_moved (admitted : Admitted w) {w' : World} (moved : Moved sha256 overrides w i x a w')
    (refusals : ∀ e, Refuses sha256 overrides w x a e → e.cls ≠ .source) : Admitted w' := by
  intro j e mem
  cases moved with
  | still _ answers | goesOn _ _ _ _ _ answers => exact admitted j e (answers ▸ mem)
  | ends answer _ raised _ answers =>
    rw [answers] at mem
    rcases List.mem_append.mp mem with before | new
    · exact admitted j e before
    · cases List.mem_singleton.mp new
      exact refusals e (raised e rfl)
  | succeeds _ answers =>
    rw [answers] at mem
    rcases List.mem_append.mp mem with before | new
    · exact admitted j e before
    · cases List.mem_singleton.mp new

theorem recorded_step (recorded : Recorded w) (a : Action) : Recorded (step sha256 overrides w a) := by
  cases own : a.transaction? with
  | some i =>
    cases found : w.transactions[i]? with
    | some x =>
      rw [CanaryTokens.step_eq_advance overrides own found]
      exact recorded_moved recorded (moved_advance (recorded.ready i x found))
    | none =>
      rw [CanaryTokens.step_eq_self overrides own found]
      exact recorded
  | none =>
    cases a with
    | issueToken token =>
      simp only [step, issueToken]
      split
      · exact recorded
      · exact recorded_frame recorded rfl rfl rfl
    | revokeToken caseId tokenId now =>
      simp only [step, revokeToken]
      split
      · exact recorded
      · exact recorded_frame recorded rfl rfl rfl
    | surroundings domain => exact recorded_frame recorded rfl rfl rfl
    | request job =>
      constructor
      · intro j y foundY
        rcases concat_cases foundY with before | ⟨-, rfl⟩
        · exact recorded.ready j y before
        · exact fun _ _ => trivial
      · intro j y r foundY jobY ended
        rcases concat_cases foundY with before | ⟨-, rfl⟩
        · exact recorded.yielded j y r before jobY ended
        · cases ended
    | _ => cases own

theorem answers_of_other (own : a.transaction? = none) : (step sha256 overrides w a).answers = w.answers := by
  cases a with
  | issueToken token =>
    simp only [step, issueToken]
    split <;> rfl
  | revokeToken caseId tokenId now =>
    simp only [step, revokeToken]
    split <;> rfl
  | surroundings domain => rfl
  | request job => rfl
  | _ => cases own

theorem admitted_step_iff (good : Sequenced w) (recorded : Recorded w) (admitted : Admitted w) (a : Action) :
    Admitted (step sha256 overrides w a) ↔ InTime sha256 overrides w a := by
  constructor
  · intro after
    cases a with
    | acquire i =>
      intro x c seen p found allocated free prepared admissible
      by_contra late
      obtain ⟨overtaken, other⟩ := not_or.mp late
      obtain ⟨e, raised, source⟩ := source_of_late good found allocated free prepared admissible overtaken other
      refine after i e ?_ source
      rw [CanaryTokens.step_eq_advance overrides rfl found]
      simp only [advance, allocated, raised]
      exact List.mem_append_right _ (List.mem_singleton_self _)
    | _ => trivial
  · intro inTime
    cases own : a.transaction? with
    | none => exact fun j e mem => admitted j e (answers_of_other own ▸ mem)
    | some i =>
      cases found : w.transactions[i]? with
      | none =>
        rw [CanaryTokens.step_eq_self overrides own found]
        exact admitted
      | some x =>
        rw [CanaryTokens.step_eq_advance overrides own found]
        exact admitted_moved admitted (moved_advance (recorded.ready i x found))
          fun e refuses => not_source_of_inTime good found own inTime refuses

/-- No request of a run is refused for another one of its source, and every callback that is over has
its row or was refused for a reason of its own, exactly if none comes too late. -/
theorem admitted_iff_inTime {actions : List Action} (idle : w.transactions = []) (unanswered : w.answers = []) :
    Throughout (step sha256 overrides) (fun w => Admitted w ∧ Yielded w) w actions ↔
      Along (step sha256 overrides) (InTime sha256 overrides) w actions := by
  have nobody {i : ℕ} {x : Transaction} : w.transactions[i]? ≠ some x := by
    rw [idle]
    exact fun same => (by cases same)
  refine throughout_iff_along (I := fun w => Sequenced w ∧ Recorded w)
    (fun w a good => ⟨sequenced_step sha256 overrides good.1 a, recorded_step good.2 a⟩)
    (fun w a good start => ⟨fun after => (admitted_step_iff good.1 good.2 start.1 a).mp after.1,
      fun inTime => ⟨(admitted_step_iff good.1 good.2 start.1 a).mpr inTime, (recorded_step good.2 a).yielded⟩⟩)
    ⟨⟨fun _ _ found => absurd found nobody, fun _ _ _ _ _ found => absurd found nobody⟩,
      fun _ _ found => absurd found nobody, fun _ _ _ found => absurd found nobody⟩
    ⟨?_, fun _ _ _ found => absurd found nobody⟩ actions
  intro i e mem
  rw [unanswered] at mem
  cases mem

theorem refused_of_run {actions : List Action} {e : EvidenceAcquisition.Raised} {i : ℕ}
    (answered : (i, Answer.raised e) ∈ (run (step sha256 overrides) w actions).answers) (source : e.cls = .source) :
    ¬ Throughout (step sha256 overrides) (fun w => Admitted w ∧ Yielded w) w actions :=
  fun always => (throughout_last always).1 i e answered source

end

/-! Two requests that compute the same sequence. -/

def samplePackage (comment : UInt8) : Bytes :=
  [80, 75, 5, 6] ++ List.replicate 16 0 ++ [1, 0, comment]

def packageSha256 (bytes : Bytes) : String :=
  if bytes = samplePackage 49 then "18b69270a755adb9be41218f0300324a80d2df705a0fc48b0e316945e057bbcb"
  else if bytes = samplePackage 50 then "83fbab6e8c8d164640cfd07db0d9e684bdaca10acd9957cecd5fffc771622bbd"
  else ""

def sampleCompletion (comment : UInt8) (reportId exportId evidenceId eventId : String) : Completion where
  caseId := "01HX3QK7Z0000000000000CASE"
  reportId
  exportId
  createdAt := 1714557600
  package := samplePackage comment
  manifestSha256 := "e3b0c44298fc1c149afbf4c8996fb92427ae41e4649b934ca495991b7852b855"
  evidenceId
  eventId
  storedTime := 1714557601

def firstCompletion : Completion :=
  sampleCompletion 49 "01HX3QK7Z0000000000000RPT1" "01HX3QK7Z0000000000000EXP1" "01HX3QK7Z0000000000000EVD1"
    "01HX3QK7Z0000000000000CRE1"

def secondCompletion : Completion :=
  sampleCompletion 50 "01HX3QK7Z0000000000000RPT2" "01HX3QK7Z0000000000000EXP2" "01HX3QK7Z0000000000000EVD2"
    "01HX3QK7Z0000000000000CRE2"

def callbackRace : List Action :=
  [.issueToken CanaryTokens.firstToken, .issueToken CanaryTokens.secondToken,
    .request (.callback CanaryTokens.firstCallback), .request (.callback CanaryTokens.secondCallback),
    .lockToken 0, .lockToken 1, .checkReplay 0, .checkReplay 1, .allocate 0, .allocate 1, .acquire 0, .write 0,
    .commit 0 (CanaryTokens.sampleLocation "cases/01HX3QK7Z0000000000000CASE/raw/01HX3QK7Z0000000000000EVD1"),
    .acquire 1]

def completionRace : List Action :=
  [.request (.completion firstCompletion), .request (.completion secondCompletion), .allocate 0, .allocate 1,
    .acquire 0, .write 0,
    .commit 0 (CanaryTokens.sampleLocation
      "cases/01HX3QK7Z0000000000000CASE/exports/01HX3QK7Z0000000000000EVD1-01HX3QK7Z0000000000000RPT1-report-package.zip"),
    .acquire 1]

def overtaken : EvidenceAcquisition.Raised :=
  ⟨.source, "source sequence replayed with different evidence metadata or bytes"⟩

theorem callbackRace_refused :
    (1, .raised overtaken) ∈ (run (step CanaryTokens.sampleSha256 []) CanaryTokens.sampleWorld callbackRace).answers := by
  delta CanaryTokens.sampleSha256
  simp only [callbackRace, CanaryTokens.firstCallback, CanaryTokens.secondCallback, CanaryTokens.sampleCallback,
    CanaryTokens.firstBody, CanaryTokens.secondBody, CanaryTokens.sampleBody, String.toList_append]
  rw [CanaryTokens.toList_spelled (s := "request-1") rfl, CanaryTokens.toList_spelled (s := "request-2") rfl,
    CanaryTokens.toList_spelled (s := "canary-token-one-0001") rfl, CanaryTokens.toList_spelled (s := "canary-token-two-0002") rfl,
    CanaryTokens.toList_spelled (s := "e96eb095cb2bbfef302cccef52fbb7857790e898d62c4d6f91aeebc0680cc362") rfl,
    CanaryTokens.toList_spelled (s := "70beef827f9153fc6867a44caeb4f29bb948e27c9e65b233bfaed9caf5d2b24f") rfl,
    CanaryTokens.toList_spelled (s := "\x7b\"payload\":\x7b\"callback_time\":\"2024-05-01T10:00:00Z\",\"collector_request_id\":\"") rfl,
    CanaryTokens.toList_spelled (s := "\",\"public_token\":\"") rfl, CanaryTokens.toList_spelled (s := "\"\x7d,\"signature\":\"") rfl,
    CanaryTokens.toList_spelled (s := "\"\x7d") rfl]
  decide +kernel

theorem completionRace_refused :
    (1, .raised overtaken) ∈ (run (step packageSha256 []) CanaryTokens.sampleWorld completionRace).answers := by
  decide +kernel

/-- The second callback, for a valid token, is lost, and so is the second report. -/
theorem races_refused :
    ¬ Throughout (step CanaryTokens.sampleSha256 []) (fun w => Admitted w ∧ Yielded w) CanaryTokens.sampleWorld callbackRace ∧
    ¬ Throughout (step packageSha256 []) (fun w => Admitted w ∧ Yielded w) CanaryTokens.sampleWorld completionRace :=
  ⟨refused_of_run callbackRace_refused rfl, refused_of_run completionRace_refused rfl⟩

/-- Its `acquire` comes too late. -/
theorem callbackRace_late :
    ¬ Along (step CanaryTokens.sampleSha256 []) (InTime CanaryTokens.sampleSha256 []) CanaryTokens.sampleWorld callbackRace :=
  fun along => refused_of_run callbackRace_refused rfl ((admitted_iff_inTime rfl rfl).mpr along)

end Mirage.CanaryLoss
