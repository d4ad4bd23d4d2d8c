import Mirage.PythonText
import Mirage.RowLocks

/-! Download tokens of reports: `download_case_report` of prompt3.py under any
interleaving of its requests. -/

namespace Mirage.ReportDownload
open PythonText RowLocks

inductive ReportStatus where
  | queued
  | waitingForExport
  | generating
  | verifying
  | completed
  | cancelRequested
  | cancelled
  | failed
  deriving DecidableEq

structure Location where
  bucket : Option Text
  key : Option Text
  versionId : Option Text
  deriving DecidableEq

structure CaseReport where
  caseId : Text
  status : ReportStatus
  package : Location
  downloadTokenHash : Option Text
  downloadTokenExpiresAt : Option ℕ
  downloadTokenUsedAt : Option ℕ
  deriving DecidableEq

structure Downloaded where
  reportId : Text
  actor : Text
  deriving DecidableEq

structure Store where
  caseReports : Text → Option CaseReport
  reportAudit : List Downloaded

/-- A request, the time on the clock when it looks, and what happens to it outside:
the check of the case, the token that `secrets` draws and whether the storage opens. -/
structure Request where
  caseId : Text
  reportId : Text
  actor : Text
  token : Option Text
  now : ℕ
  allowed : Bool
  rawToken : Text
  opens : Bool

inductive Failure where
  | http (status : ℕ) (detail : String)
  | storage
  deriving DecidableEq

inductive Answer where
  | issued (rawToken : Text) (expiresAt : ℕ)
  | served
  deriving DecidableEq

def lifetime : ℕ := 120000000

section
-- `hashlib.sha256(token.encode()).hexdigest()`.
variable (digest : Text → Text)

def Location.missing (location : Location) : Bool :=
  location.bucket.isNone || location.key.isNone || location.versionId.isNone

def redeemable (row : CaseReport) (token : Text) (now : ℕ) : Bool :=
  row.downloadTokenHash = some (digest token) && row.downloadTokenExpiresAt.any (now < ·) &&
    row.downloadTokenUsedAt.isNone

def Store.setReport (s : Store) (reportId : Text) (row : CaseReport) : Store :=
  { s with caseReports := Function.update s.caseReports reportId (some row) }

def issue (c : Request) (row : CaseReport) (s : Store) : Store :=
  s.setReport c.reportId
    { row with
      downloadTokenHash := some (digest c.rawToken)
      downloadTokenExpiresAt := some (c.now + lifetime)
      downloadTokenUsedAt := none }

def redeem (c : Request) (row : CaseReport) (s : Store) : Store :=
  { s.setReport c.reportId { row with downloadTokenUsedAt := some c.now } with
    reportAudit := s.reportAudit ++ [⟨c.reportId, c.actor⟩] }

def downloadCaseReport (c : Request) (locked : Option CaseReport) (s : Store) : Except Failure (Store × Answer) := do
  require c.allowed (.http 403 "case access denied")
  let row ← present locked (.http 404 "report not found")
  require (row.caseId = c.caseId) (.http 404 "report not found")
  require (row.status = .completed && !row.package.missing) (.http 409 "report package is not ready")
  match c.token with
  | none => return (issue digest c row s, .issued c.rawToken (c.now + lifetime))
  | some token =>
    require (redeemable digest row token c.now)
      (.http 410 "download token is invalid, expired, or already used")
    -- The storage is opened after the updates; an exception rolls them back.
    require c.opens .storage
    return (redeem c row s, .served)

theorem download_cases {c : Request} {locked : Option CaseReport} {s s' : Store} {answer : Answer}
    (done : downloadCaseReport digest c locked s = .ok (s', answer)) :
    ∃ row, locked = some row ∧ row.caseId = c.caseId ∧
      ((c.token = none ∧ s' = issue digest c row s ∧ answer = .issued c.rawToken (c.now + lifetime)) ∨
       ∃ token, c.token = some token ∧ redeemable digest row token c.now = true ∧ s' = redeem c row s ∧
         answer = .served) := by
  unfold downloadCaseReport at done
  obtain ⟨_, _, done⟩ := bind_eq_ok.mp done
  obtain ⟨row, found, done⟩ := bind_eq_ok.mp done
  obtain ⟨_, own, done⟩ := bind_eq_ok.mp done
  obtain ⟨_, _, done⟩ := bind_eq_ok.mp done
  refine ⟨row, present_eq_ok.mp found, of_decide_eq_true (require_eq_ok.mp own), ?_⟩
  cases presented : c.token with
  | none =>
    rw [presented] at done
    cases done
    exact .inl ⟨rfl, rfl, rfl⟩
  | some token =>
    rw [presented] at done
    obtain ⟨_, good, done⟩ := bind_eq_ok.mp done
    obtain ⟨_, _, done⟩ := bind_eq_ok.mp done
    cases done
    exact .inr ⟨token, rfl, require_eq_ok.mp good, rfl, rfl⟩

@[simp] theorem setReport_self (s : Store) (reportId : Text) (row : CaseReport) :
    (s.setReport reportId row).caseReports reportId = some row := Function.update_self ..

theorem setReport_other (s : Store) {reportId other : Text} (row : CaseReport) (different : other ≠ reportId) :
    (s.setReport reportId row).caseReports other = s.caseReports other := Function.update_of_ne different ..

theorem download_frame {c : Request} {locked : Option CaseReport} {s s' : Store} {answer : Answer}
    (done : downloadCaseReport digest c locked s = .ok (s', answer)) (reportId : Text)
    (different : some c.reportId ≠ some reportId) : s'.caseReports reportId = s.caseReports reportId := by
  have other : reportId ≠ c.reportId := fun same => different (congrArg some same.symm)
  obtain ⟨row, _, _, ⟨_, rfl, _⟩ | ⟨token, _, _, rfl, _⟩⟩ := download_cases digest done
  · exact setReport_other s _ other
  · exact setReport_other s _ other

def downloads : Discipline Text CaseReport Store Request Failure Answer where
  row := Store.caseReports
  lockKey c := some c.reportId
  exec := downloadCaseReport digest
  frame := fun done => download_frame digest done

abbrev Entry := Request × Except Failure Answer

def Issues (reportId : Text) (e : Entry) : Prop :=
  e.1.reportId = reportId ∧ ∃ rawToken expiresAt, e.2 = .ok (.issued rawToken expiresAt)

def Serves (reportId : Text) (e : Entry) : Prop := e.1.reportId = reportId ∧ e.2 = .ok .served

/-- The last token of the report was issued to this digest and this time, and
has served nothing. -/
def Outstanding (reportId hash : Text) (expiresAt : ℕ) (log : List Entry) : Prop :=
  ∃ before c rawToken after, log = before ++ (c, .ok (.issued rawToken expiresAt)) :: after ∧
    c.reportId = reportId ∧ digest rawToken = hash ∧ expiresAt = c.now + lifetime ∧
    ∀ e ∈ after, ¬Issues reportId e ∧ ¬Serves reportId e

/-- Whatever is served is served for the last token issued, which has not served
before, and in time. -/
def ServedOnce (log : List Entry) : Prop :=
  ∀ before c after, log = before ++ (c, .ok .served) :: after → ∃ token expiresAt, c.token = some token ∧
    c.now < expiresAt ∧ Outstanding digest c.reportId (digest token) expiresAt before

def auditOf (log : List Entry) : List Downloaded :=
  log.filterMap fun e => if e.2 = .ok .served then some ⟨e.1.reportId, e.1.actor⟩ else none

def Kept (s : Store) (log : List Entry) : Prop :=
  ∀ reportId row hash, s.caseReports reportId = some row → row.downloadTokenHash = some hash →
    row.downloadTokenUsedAt = none →
    ∃ expiresAt, row.downloadTokenExpiresAt = some expiresAt ∧ Outstanding digest reportId hash expiresAt log

theorem Outstanding.snoc {reportId hash : Text} {expiresAt : ℕ} {log : List Entry} {e : Entry}
    (outstanding : Outstanding digest reportId hash expiresAt log)
    (apart : ¬Issues reportId e ∧ ¬Serves reportId e) : Outstanding digest reportId hash expiresAt (log ++ [e]) := by
  obtain ⟨before, c, rawToken, after, rfl, own, hashed, until_, quiet⟩ := outstanding
  refine ⟨before, c, rawToken, after ++ [e], by rw [List.append_assoc, List.cons_append], own, hashed, until_, ?_⟩
  intro e' mem
  rcases List.mem_append.mp mem with old | new
  · exact quiet e' old
  · rw [List.mem_singleton.mp new]
    exact apart

theorem ServedOnce.snoc {log : List Entry} {e : Entry} (once : ServedOnce digest log)
    (last : e.2 = .ok .served → ∃ token expiresAt, e.1.token = some token ∧ e.1.now < expiresAt ∧
      Outstanding digest e.1.reportId (digest token) expiresAt log) : ServedOnce digest (log ++ [e]) := by
  intro before c after split
  rcases List.eq_nil_or_concat after with rfl | ⟨rest, final, rfl⟩
  · obtain ⟨rfl, rfl⟩ := List.append_inj' split rfl |>.imp_right fun same => (List.cons.inj same).1
    exact last rfl
  · rw [List.concat_eq_append, ← List.cons_append, ← List.append_assoc] at split
    exact once before c rest (List.append_inj' split rfl).1

theorem apart_of_different {reportId : Text} {e : Entry} (different : e.1.reportId ≠ reportId) :
    ¬Issues reportId e ∧ ¬Serves reportId e :=
  ⟨fun issued => different issued.1, fun served => different served.1⟩

theorem apart_of_error {reportId : Text} {c : Request} {failure : Failure} :
    ¬Issues reportId (c, .error failure) ∧ ¬Serves reportId (c, .error failure) :=
  ⟨fun ⟨_, _, _, issued⟩ => (nomatch issued), fun ⟨_, served⟩ => (nomatch served)⟩

theorem Kept.set {s : Store} {log : List Entry} {c : Request} {result : Except Failure Answer} {row : CaseReport}
    (kept : Kept digest s log)
    (own : ∀ hash, row.downloadTokenHash = some hash → row.downloadTokenUsedAt = none →
      ∃ expiresAt, row.downloadTokenExpiresAt = some expiresAt ∧
        Outstanding digest c.reportId hash expiresAt (log ++ [(c, result)])) :
    Kept digest (s.setReport c.reportId row) (log ++ [(c, result)]) := by
  intro reportId row' hash found hashed unused
  by_cases same : reportId = c.reportId
  · subst same
    rw [setReport_self] at found
    cases found
    exact own hash hashed unused
  · rw [setReport_other s row same] at found
    obtain ⟨expiresAt, until_, outstanding⟩ := kept reportId row' hash found hashed unused
    exact ⟨expiresAt, until_, outstanding.snoc digest (apart_of_different fun eq => same eq.symm)⟩

structure Sound (audit : List Downloaded) (s : Store) (log : List Entry) : Prop where
  kept : Kept digest s log
  once : ServedOnce digest log
  audited : s.reportAudit = audit ++ auditOf log

theorem auditOf_snoc (log : List Entry) (e : Entry) :
    auditOf (log ++ [e]) = auditOf log ++ if e.2 = .ok .served then [⟨e.1.reportId, e.1.actor⟩] else [] := by
  rw [auditOf, List.filterMap_append, ← auditOf]
  by_cases served : e.2 = .ok .served
  · simp only [served, List.filterMap_cons, if_true, List.filterMap_nil]
  · simp only [served, List.filterMap_cons, if_false, List.filterMap_nil]

theorem sound_step {audit : List Downloaded} (s : Store) (log : List Entry) (c : Request)
    (sound : Sound digest audit s log) :
    Sound digest audit ((downloads digest).atomic c s).1 (log ++ [(c, ((downloads digest).atomic c s).2)]) := by
  cases result : ((downloads digest).atomic c s).2 with
  | error failure =>
    rw [atomic_raise _ result]
    constructor
    · intro reportId row hash found hashed unused
      obtain ⟨expiresAt, until_, outstanding⟩ := sound.kept reportId row hash found hashed unused
      exact ⟨expiresAt, until_, outstanding.snoc digest apart_of_error⟩
    · exact sound.once.snoc digest fun served => (nomatch served)
    · rw [auditOf_snoc, if_neg fun served => (nomatch served), List.append_nil]
      exact sound.audited
  | ok answer =>
    have done := atomic_commit _ result
    obtain ⟨row, found, _, ⟨_, stored, rfl⟩ | ⟨token, presented, good, stored, rfl⟩⟩ := download_cases digest done
    · rw [stored]
      constructor
      · apply sound.kept.set
        intro hash hashed _
        cases hashed
        exact ⟨_, rfl, log, c, c.rawToken, [], rfl, rfl, rfl, rfl, fun e mem => (nomatch mem)⟩
      · exact sound.once.snoc digest fun served => (nomatch served)
      · rw [auditOf_snoc, if_neg fun served => (nomatch served), List.append_nil]
        exact sound.audited
    · rw [redeemable, Bool.and_eq_true, Bool.and_eq_true, decide_eq_true_eq] at good
      obtain ⟨⟨hashed, fresh⟩, unused⟩ := good
      obtain ⟨expiresAt, until_, outstanding⟩ :=
        sound.kept c.reportId row (digest token) found hashed (Option.isNone_iff_eq_none.mp unused)
      rw [until_, Option.any_some, decide_eq_true_eq] at fresh
      rw [stored]
      constructor
      · -- The audit row is beside the reports.
        change Kept digest (s.setReport c.reportId { row with downloadTokenUsedAt := some c.now }) _
        apply sound.kept.set
        intro hash _ open_
        cases open_
      · exact sound.once.snoc digest fun _ => ⟨token, expiresAt, presented, fresh, outstanding⟩
      · rw [auditOf_snoc, if_pos rfl, ← List.append_assoc, ← sound.audited]
        rfl

def NoTokens (s : Store) : Prop := ∀ reportId row, s.caseReports reportId = some row → row.downloadTokenHash = none

theorem run_sound {s : Store} (noTokens : NoTokens s) (events : List (Event Request)) :
    Sound digest s.reportAudit (run (downloads digest) s events).store (run (downloads digest) s events).log := by
  apply run_invariant (downloads digest) (I := Sound digest s.reportAudit) _ (sound_step digest)
  constructor
  · intro reportId row hash found hashed _
    rw [noTokens reportId row found] at hashed
    cases hashed
  · intro before c after split
    cases before <;> cases split
  · exact (List.append_nil _).symm

def issuesOf (reportId hash : Text) (log : List Entry) : ℕ :=
  log.countP fun e =>
    match e.2 with
    | .ok (.issued rawToken _) => e.1.reportId = reportId && digest rawToken = hash
    | _ => false

def servesOf (reportId hash : Text) (log : List Entry) : ℕ :=
  log.countP fun e => e.2 = .ok .served && e.1.reportId = reportId && e.1.token.map digest = some hash

theorem servesOf_quiet {reportId hash : Text} {log : List Entry} (quiet : ∀ e ∈ log, ¬Serves reportId e) :
    servesOf digest reportId hash log = 0 := by
  rw [servesOf, List.countP_eq_zero]
  intro e mem served
  rw [Bool.and_eq_true, Bool.and_eq_true, decide_eq_true_eq, decide_eq_true_eq] at served
  exact quiet e mem ⟨served.1.2, served.1.1⟩

theorem ServedOnce.front {before after : List Entry} (once : ServedOnce digest (before ++ after)) :
    ServedOnce digest before := by
  rintro front c rest rfl
  exact once front c (rest ++ after) (by rw [List.append_assoc, List.cons_append])

theorem servesOf_append (reportId hash : Text) (log rest : List Entry) :
    servesOf digest reportId hash (log ++ rest) = servesOf digest reportId hash log + servesOf digest reportId hash rest :=
  List.countP_append

theorem issuesOf_append (reportId hash : Text) (log rest : List Entry) :
    issuesOf digest reportId hash (log ++ rest) = issuesOf digest reportId hash log + issuesOf digest reportId hash rest :=
  List.countP_append

/-- A digest serves at most as often as it is issued; the induction is on the length,
since what was served before the issue is all that was served before. -/
theorem servesOf_le {log : List Entry} (once : ServedOnce digest log) (reportId hash : Text) :
    servesOf digest reportId hash log ≤ issuesOf digest reportId hash log := by
  induction measured : log.length using Nat.strong_induction_on generalizing log with
  | _ n ih =>
    subst measured
    rcases List.eq_nil_or_concat log with rfl | ⟨front, e, rfl⟩
    · exact le_refl 0
    rw [List.concat_eq_append] at once ih ⊢
    have shorter : front.length < (front ++ [e]).length := by
      rw [List.length_append]
      exact Nat.lt_succ_self _
    have earlier := ih front.length shorter (once.front digest) rfl
    by_cases serves : servesOf digest reportId hash [e] = 0
    · rw [servesOf_append, issuesOf_append, serves]
      omega
    obtain ⟨e', mem, served⟩ := List.countP_pos_iff.mp (Nat.pos_of_ne_zero serves)
    cases List.mem_singleton.mp mem
    rw [Bool.and_eq_true, Bool.and_eq_true, decide_eq_true_eq, decide_eq_true_eq, decide_eq_true_eq] at served
    obtain ⟨⟨ok, rfl⟩, hashed⟩ := served
    obtain ⟨c, result⟩ := e
    cases ok
    obtain ⟨token, expiresAt, presented, _, before, issuer, rawToken, quiet, rfl, own, same, _, apart⟩ :=
      once front c [] rfl
    rw [presented, Option.map_some, Option.some_inj] at hashed
    rw [List.append_assoc, List.cons_append, ← List.singleton_append] at once shorter ih ⊢
    have old : servesOf digest c.reportId hash before ≤ issuesOf digest c.reportId hash before := by
      apply ih before.length _ (once.front digest) rfl
      simp only [List.length_append, List.length_cons, List.length_nil]
      omega
    have silent : servesOf digest c.reportId hash quiet = 0 := servesOf_quiet digest fun e mem => (apart e mem).2
    have unserved : servesOf digest c.reportId hash [(issuer, .ok (.issued rawToken expiresAt))] = 0 := rfl
    have issued : issuesOf digest c.reportId hash [(issuer, .ok (.issued rawToken expiresAt))] = 1 := by
      rw [issuesOf, List.countP_singleton]
      simp only [own, same, hashed, decide_true, Bool.and_self, if_true]
    have atMost : servesOf digest c.reportId hash [(c, .ok .served)] ≤ 1 := List.countP_le_length
    change servesOf digest c.reportId hash _ ≤ issuesOf digest c.reportId hash _
    rw [servesOf_append, servesOf_append, servesOf_append, issuesOf_append, issuesOf_append]
    omega

structure SingleUse (s : Store) (events : List (Event Request)) : Prop where
  once : ServedOnce digest (run (downloads digest) s events).log
  counted : ∀ reportId hash, servesOf digest reportId hash (run (downloads digest) s events).log ≤
    issuesOf digest reportId hash (run (downloads digest) s events).log
  audited : (run (downloads digest) s events).store.reportAudit =
    s.reportAudit ++ auditOf (run (downloads digest) s events).log
  failed : ∀ e c failure,
    (run (downloads digest) s (events ++ [e])).log = (run (downloads digest) s events).log ++ [(c, .error failure)] →
    (run (downloads digest) s (events ++ [e])).store = (run (downloads digest) s events).store

/-- Download tokens are single use, for every interleaving of the requests. -/
theorem tokens_single_use {s : Store} (noTokens : NoTokens s) (events : List (Event Request)) :
    SingleUse digest s events where
  once := (run_sound digest noTokens events).once
  counted := servesOf_le digest (run_sound digest noTokens events).once
  audited := (run_sound digest noTokens events).audited
  failed e c failure raised := by
    rw [run, EventRun.run_append] at raised ⊢
    exact step_raise _ (run_current _ s events) raised

end

def readyReport : CaseReport :=
  ⟨[], .completed, ⟨some [], some [], some []⟩, none, none, none⟩

def readyStore : Store := ⟨fun _ => some readyReport, []⟩

def download (token : Option Text) (now : ℕ) : Request := ⟨[], [], [], token, now, true, text "t", true⟩

theorem token_serves_once :
    NoTokens readyStore ∧
      (run (downloads id) readyStore
        (alone [download none 5, download (some (text "t")) 6, download (some (text "t")) 7])).log.map Prod.snd =
        [.ok (.issued (text "t") (5 + lifetime)), .ok .served,
          .error (.http 410 "download token is invalid, expired, or already used")] ∧
      SingleUse id readyStore
        (alone [download none 5, download (some (text "t")) 6, download (some (text "t")) 7]) := by
  have noTokens : NoTokens readyStore := by
    intro reportId row found
    cases found
    rfl
  refine ⟨noTokens, ?_, tokens_single_use id noTokens _⟩
  rw [run_alone_log]
  rfl

end Mirage.ReportDownload
