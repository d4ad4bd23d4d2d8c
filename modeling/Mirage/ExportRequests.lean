import Mirage.ExportGeneration
import Mirage.EventRun

/-! `create_export` with its `Idempotency-Key`. -/

namespace Mirage.ExportRequests
open ExportEligibility EventRun

structure ExportRequest where
  caseId : String
  idempotencyKey : String
  deriving DecidableEq

/-- A row of `evidence_exports`. -/
structure Export where
  caseId : String
  exportVersion : ℕ
  verificationStatus : String
  limitations : List String

inductive Refusal where
  | notEligible (reasons : List String)
  | uniqueViolation

structure Answer where
  request : ExportRequest
  reply : Except Refusal ℕ

structure Service where
  evidence : Evidence
  exports : List Export
  /-- The requests behind their lookup, with the version once it is read. -/
  inFlight : List (ExportRequest × Option ℕ)
  answers : List Answer
  created : List ExportRequest

def marker (idempotencyKey : String) : String := "idempotency:" ++ idempotencyKey

def bears (r : ExportRequest) (row : Export) : Bool :=
  row.caseId = r.caseId && marker r.idempotencyKey ∈ row.limitations

def nextVersion (exports : List Export) (caseId : String) : ℕ :=
  ((exports.filter fun row => row.caseId = caseId).map Export.exportVersion).foldl max 0 + 1

def Service.answer (s : Service) (r : ExportRequest) (reply : Except Refusal ℕ) : Service :=
  { s with answers := s.answers ++ [⟨r, reply⟩] }

def openRequest (s : Service) (r : ExportRequest) : Service :=
  if (exportEligibility s.evidence r.caseId).1 then
    match s.exports.findIdx? (bears r) with
    | some exportId => s.answer r (.ok exportId)
    | none => { s with inFlight := s.inFlight ++ [(r, none)] }
  else s.answer r (.error (.notEligible (exportEligibility s.evidence r.caseId).2))

def numberRequest (s : Service) (r : ExportRequest) : Service :=
  if (r, none) ∈ s.inFlight then
    { s with inFlight := s.inFlight.erase (r, none) ++ [(r, some (nextVersion s.exports r.caseId))] }
  else s

def requestedExport (r : ExportRequest) (version : ℕ) : Export :=
  ⟨r.caseId, version, "PENDING",
    [marker r.idempotencyKey, "export queued for mirage-report-worker signing"]⟩

/-- The INSERT and the commit; `(case_id, export_version)` is unique. -/
def insertRequest (s : Service) (r : ExportRequest) (version : ℕ) : Service :=
  if (r, some version) ∈ s.inFlight then
    let s := { s with inFlight := s.inFlight.erase (r, some version) }
    if s.exports.any fun row => row.caseId = r.caseId && row.exportVersion = version then
      s.answer r (.error .uniqueViolation)
    else
      Service.answer { s with
        exports := s.exports ++ [requestedExport r version]
        created := s.created ++ [r] } r (.ok s.exports.length)
  else s

def queueEvidenceExport (s : Service) (caseId reportId : String) : Service :=
  { s with exports := s.exports ++ [⟨caseId, nextVersion s.exports caseId, "PENDING",
    ["report:" ++ reportId, "queued by case report workflow"]⟩] }

def signedLimitations (trusted localKey : Bool) : List String :=
  ["Mirage exports are evidence-ready, not a claim of court admissibility."] ++
    (if trusted then [] else ["Timestamp source is local development and not independently trusted."]) ++
    (if localKey then ["Local development signing key is not AWS KMS."] else [])

/-- The end of a `generate_export` that succeeded, or failed. -/
def sign (s : Service) (exportId : ℕ) (trusted localKey : Bool) : Service :=
  { s with exports := s.exports.modify exportId fun row =>
    { row with verificationStatus := verified, limitations := signedLimitations trusted localKey } }

def fail (s : Service) (exportId : ℕ) : Service :=
  { s with exports := s.exports.modify exportId fun row => { row with verificationStatus := "FAILED" } }

inductive Action where
  | openRequest (r : ExportRequest)
  | numberRequest (r : ExportRequest)
  | insertRequest (r : ExportRequest) (version : ℕ)
  | rollback (r : ExportRequest) (version : Option ℕ)
  | queueEvidenceExport (caseId reportId : String)
  | sign (exportId : ℕ) (trusted localKey : Bool)
  | fail (exportId : ℕ)
  /-- What is acquired and verified, and what gaps are opened and closed. -/
  | change (evidence : Evidence)

def step (s : Service) : Action → Service
  | .openRequest r => openRequest s r
  | .numberRequest r => numberRequest s r
  | .insertRequest r version => insertRequest s r version
  | .rollback r version => { s with inFlight := s.inFlight.erase (r, version) }
  | .queueEvidenceExport caseId reportId => queueEvidenceExport s caseId reportId
  | .sign exportId trusted localKey => sign s exportId trusted localKey
  | .fail exportId => fail s exportId
  | .change evidence => { s with evidence }

/-- A request whose key was accepted finds its export as it was inserted, and its case
eligible; and no two requests with one key are under way together. -/
def Admissible (s : Service) : Action → Prop
  | .openRequest r => (∀ a ∈ s.answers, a.request = r → ∀ exportId, a.reply = .ok exportId →
      (exportEligibility s.evidence r.caseId).1 = true ∧ ∃ row, s.exports[exportId]? = some row ∧ bears r row = true) ∧
      ∀ p ∈ s.inFlight, p.1 ≠ r
  | _ => True

def Consistent (a b : Answer) : Prop :=
  (a.request = b.request → ∀ exportId, a.reply = .ok exportId → b.reply = .ok exportId) ∧
    (a.request ≠ b.request → ∀ i j, a.reply = .ok i → b.reply = .ok j → i ≠ j)

theorem marker_injective {key key' : String} (same : marker key = marker key') : key = key' := by
  have chars := congrArg String.toList same
  rw [marker, marker, String.toList_append, String.toList_append] at chars
  exact String.toList_inj.mp (List.append_cancel_left chars)

theorem ne_marker {text : String} (other : text.toList.head? ≠ some 'i') (key : String) : marker key ≠ text := by
  intro same
  rw [← same, marker, String.toList_append] at other
  exact other rfl

def unmarked (row : Export) : Prop := ∀ r, bears r row = false

theorem unmarked_of_texts {row : Export} (texts : ∀ text ∈ row.limitations, text.toList.head? ≠ some 'i') :
    unmarked row := by
  intro r
  have absent : marker r.idempotencyKey ∉ row.limitations := fun mem => ne_marker (texts _ mem) _ rfl
  simp only [bears, absent, decide_false, Bool.and_false]

theorem unmarked_signed (row : Export) (trusted localKey : Bool) :
    unmarked { row with verificationStatus := verified, limitations := signedLimitations trusted localKey } := by
  apply unmarked_of_texts
  change ∀ text ∈ signedLimitations trusted localKey, text.toList.head? ≠ some 'i'
  cases trusted <;> cases localKey <;> decide

theorem unmarked_queued (caseId reportId : String) (version : ℕ) :
    unmarked ⟨caseId, version, "PENDING", ["report:" ++ reportId, "queued by case report workflow"]⟩ := by
  apply unmarked_of_texts
  intro text mem
  rcases List.mem_cons.mp mem with rfl | mem
  · rw [String.toList_append]
    exact fun equal => absurd (Option.some.inj equal) (by decide)
  · rw [List.mem_singleton.mp mem]
    decide

theorem bears_requested {r r' : ExportRequest} {version : ℕ} :
    bears r' (requestedExport r version) = true ↔ r' = r := by
  constructor
  · intro found
    simp only [bears, requestedExport, Bool.and_eq_true, decide_eq_true_eq, List.mem_cons, List.not_mem_nil,
      or_false] at found
    obtain ⟨sameCase, same | other⟩ := found
    · cases r
      cases r'
      simp only [ExportRequest.mk.injEq]
      exact ⟨(of_decide_eq_true sameCase).symm, marker_injective same⟩
    · exact absurd other (ne_marker (by decide) _)
  · rintro rfl
    simp [bears, requestedExport]

structure Indexed (s : Service) : Prop where
  answered : ∀ a ∈ s.answers, ∀ exportId, a.reply = .ok exportId →
    ∃ row, s.exports[exportId]? = some row ∧ (bears a.request row = true ∨ unmarked row)
  unique : ∀ (i j : ℕ) (row row' : Export) (r : ExportRequest), s.exports[i]? = some row →
    s.exports[j]? = some row' → bears r row = true → bears r row' = true → i = j
  single : ∀ row ∈ s.exports, ∀ r r', bears r row = true → bears r' row = true → r = r'
  accepted : ∀ row ∈ s.exports, ∀ r, bears r row = true →
    ∃ a ∈ s.answers, a.request = r ∧ ∃ exportId, a.reply = .ok exportId
  logged : ∀ r ∈ s.created, ∃ a ∈ s.answers, a.request = r ∧ ∃ exportId, a.reply = .ok exportId
  apart : ∀ p ∈ s.inFlight, ∀ a ∈ s.answers, a.request = p.1 → ∀ exportId, a.reply ≠ .ok exportId
  alone : (s.inFlight.map Prod.fst).Nodup
  consistent : s.answers.Pairwise Consistent
  once : s.created.Nodup

theorem indexed_answer {s : Service} {r : ExportRequest} {reply : Except Refusal ℕ} (indexed : Indexed s)
    (found : ∀ exportId, reply = .ok exportId → ∃ row, s.exports[exportId]? = some row ∧ bears r row = true)
    (agrees : ∀ a ∈ s.answers, Consistent a ⟨r, reply⟩)
    (away : ∀ exportId, reply = .ok exportId → ∀ p ∈ s.inFlight, p.1 ≠ r) : Indexed (s.answer r reply) where
  answered := by
    intro a mem exportId good
    rcases List.mem_append.mp mem with old | new
    · exact indexed.answered a old exportId good
    · rw [List.mem_singleton.mp new] at good ⊢
      obtain ⟨row, located, marked⟩ := found exportId good
      exact ⟨row, located, .inl marked⟩
  unique := indexed.unique
  single := indexed.single
  accepted row mem r' marked := by
    obtain ⟨a, memA, rest⟩ := indexed.accepted row mem r' marked
    exact ⟨a, List.mem_append_left _ memA, rest⟩
  logged r' mem := by
    obtain ⟨a, memA, rest⟩ := indexed.logged r' mem
    exact ⟨a, List.mem_append_left _ memA, rest⟩
  apart := by
    intro p memP a mem same exportId good
    rcases List.mem_append.mp mem with old | new
    · exact indexed.apart p memP a old same exportId good
    · rw [List.mem_singleton.mp new] at good same
      exact away exportId good p memP same.symm
  alone := indexed.alone
  consistent := by
    refine List.pairwise_append.mpr ⟨indexed.consistent, List.pairwise_singleton _ _, ?_⟩
    intro a mem b memB
    rw [List.mem_singleton.mp memB]
    exact agrees a mem
  once := indexed.once

theorem indexed_openRequest {s : Service} {r : ExportRequest} (indexed : Indexed s)
    (admissible : Admissible s (.openRequest r)) : Indexed (openRequest s r) := by
  obtain ⟨repeated, away⟩ := admissible
  unfold openRequest
  split
  · split
    · rename_i exportId found
      obtain ⟨inside, marked, -⟩ := List.findIdx?_eq_some_iff_getElem.mp found
      have located : s.exports[exportId]? = some s.exports[exportId] := List.getElem?_eq_getElem inside
      refine indexed_answer indexed (fun other good => ?_) (fun a mem => ⟨fun same other good => ?_, ?_⟩)
        fun _ _ => away
      · cases good
        exact ⟨_, located, marked⟩
      · obtain ⟨-, row, there, marked'⟩ := repeated a mem same other good
        rw [indexed.unique exportId other _ row r located there marked marked']
      · intro different i j good good' equal
        cases good'
        subst equal
        obtain ⟨row, there, state⟩ := indexed.answered a mem i good
        obtain ⟨rfl⟩ : s.exports[i] = row := Option.some.inj (located.symm.trans there)
        rcases state with marked' | bare
        · exact different (indexed.single _ (List.mem_of_getElem? located) _ _ marked' marked)
        · have unmarked := bare r
          rw [marked] at unmarked
          cases unmarked
    · rename_i absent
      have free := List.findIdx?_eq_none_iff.mp absent
      have fresh : ∀ a ∈ s.answers, a.request = r → ∀ exportId, a.reply ≠ .ok exportId := by
        intro a mem same exportId good
        obtain ⟨-, row, there, marked⟩ := repeated a mem same exportId good
        rw [free row (List.mem_of_getElem? there)] at marked
        cases marked
      exact {
        answered := indexed.answered
        unique := indexed.unique
        single := indexed.single
        accepted := indexed.accepted
        logged := indexed.logged
        apart := by
          intro p mem a memA same
          rcases List.mem_append.mp mem with old | new
          · exact indexed.apart p old a memA same
          · rw [List.mem_singleton.mp new] at same
            exact fresh a memA same
        alone := by
          rw [List.map_append, List.nodup_append]
          refine ⟨indexed.alone, List.nodup_singleton _, fun other mem new memNew equal => ?_⟩
          obtain ⟨p, memP, rfl⟩ := List.mem_map.mp mem
          rw [List.map_singleton, List.mem_singleton] at memNew
          exact away p memP (equal.trans memNew)
        consistent := indexed.consistent
        once := indexed.once }
  · rename_i ineligible
    refine indexed_answer indexed (fun _ good => by cases good) (fun a mem => ⟨fun same exportId good => ?_, ?_⟩)
      fun _ good => by cases good
    · exact absurd (repeated a mem same exportId good).1 ineligible
    · intro _ i j _ good
      cases good

theorem indexed_inFlight {s : Service} {inFlight : List (ExportRequest × Option ℕ)} (indexed : Indexed s)
    (known : ∀ p ∈ inFlight, ∃ old ∈ s.inFlight, p.1 = old.1) (alone : (inFlight.map Prod.fst).Nodup) :
    Indexed { s with inFlight } where
  answered := indexed.answered
  unique := indexed.unique
  single := indexed.single
  accepted := indexed.accepted
  logged := indexed.logged
  apart := by
    intro p mem a memA same
    obtain ⟨old, memOld, equal⟩ := known p mem
    exact indexed.apart old memOld a memA (same.trans equal)
  alone
  consistent := indexed.consistent
  once := indexed.once

theorem indexed_erase {s : Service} (p : ExportRequest × Option ℕ) (indexed : Indexed s) :
    Indexed { s with inFlight := s.inFlight.erase p } :=
  indexed_inFlight indexed (fun other mem => ⟨other, List.mem_of_mem_erase mem, rfl⟩)
    (indexed.alone.sublist (List.erase_sublist.map _))

theorem alone_of_erase {s : Service} {p : ExportRequest × Option ℕ} (indexed : Indexed s) (mem : p ∈ s.inFlight) :
    ∀ other ∈ s.inFlight.erase p, other.1 ≠ p.1 := by
  have nodup := (((List.perm_cons_erase mem).map Prod.fst).nodup_iff).mp indexed.alone
  rw [List.map_cons, List.nodup_cons] at nodup
  intro other memOther same
  exact nodup.1 (List.mem_map.mpr ⟨other, memOther, same⟩)

theorem indexed_numberRequest {s : Service} (r : ExportRequest) (indexed : Indexed s) :
    Indexed (numberRequest s r) := by
  unfold numberRequest
  split
  · rename_i mem
    refine indexed_inFlight indexed (fun p memP => ?_) ?_
    · rcases List.mem_append.mp memP with old | new
      · exact ⟨p, List.mem_of_mem_erase old, rfl⟩
      · exact ⟨(r, none), mem, by rw [List.mem_singleton.mp new]⟩
    · rw [List.map_append, List.nodup_append]
      refine ⟨indexed.alone.sublist (List.erase_sublist.map _), List.nodup_singleton _, ?_⟩
      intro other memOther new memNew equal
      obtain ⟨p, memP, rfl⟩ := List.mem_map.mp memOther
      rw [List.map_singleton, List.mem_singleton] at memNew
      exact alone_of_erase indexed mem p memP (equal.trans memNew)
  · exact indexed

theorem indexed_insertRequest {s : Service} (r : ExportRequest) (version : ℕ) (indexed : Indexed s) :
    Indexed (insertRequest s r version) := by
  unfold insertRequest
  split
  · rename_i mem
    have fresh : ∀ a ∈ s.answers, a.request = r → ∀ exportId, a.reply ≠ .ok exportId := indexed.apart _ mem
    have left := indexed_erase (r, some version) indexed
    have away := alone_of_erase indexed mem
    simp only
    split
    · refine indexed_answer left (fun _ good => by cases good) (fun a memA => ⟨fun same exportId good => ?_, ?_⟩)
        fun _ good => by cases good
      · exact absurd good (fresh a memA same exportId)
      · intro _ i j _ good
        cases good
    · have old : ∀ (i : ℕ) (row : Export), s.exports[i]? = some row →
          (s.exports ++ [requestedExport r version])[i]? = some row := by
        exact fun i row found => concat_old found
      have unmarked : ∀ row ∈ s.exports, bears r row = false := by
        intro row memRow
        rw [← Bool.not_eq_true]
        intro marked
        obtain ⟨a, memA, same, exportId, good⟩ := indexed.accepted row memRow r marked
        exact fresh a memA same exportId good
      have split : ∀ (i : ℕ) (row : Export) (r' : ExportRequest),
          (s.exports ++ [requestedExport r version])[i]? = some row → bears r' row = true →
          s.exports[i]? = some row ∧ r' ≠ r ∨ i = s.exports.length ∧ r' = r := by
        intro i row r' found marked
        rcases concat_cases found with before | ⟨place, rfl⟩
        · refine .inl ⟨before, fun same => ?_⟩
          rw [same, unmarked row (List.mem_of_getElem? before)] at marked
          cases marked
        · exact .inr ⟨place, bears_requested.mp marked⟩
      exact {
        answered := by
          intro a memA exportId good
          rcases List.mem_append.mp memA with before | new
          · obtain ⟨row, found, state⟩ := indexed.answered a before exportId good
            exact ⟨row, old exportId row found, state⟩
          · rw [List.mem_singleton.mp new] at good ⊢
            cases good
            exact ⟨_, List.getElem?_concat_length, .inl (bears_requested.mpr rfl)⟩
        unique := by
          intro i j row row' r' found found' marked marked'
          rcases split i row r' found marked with ⟨here, other⟩ | ⟨rfl, same⟩ <;>
            rcases split j row' r' found' marked' with ⟨there, other'⟩ | ⟨rfl, same'⟩
          · exact indexed.unique i j row row' r' here there marked marked'
          · exact absurd same' other
          · exact absurd same other'
          · rfl
        single := by
          intro row memRow r₁ r₂ marked marked'
          rcases List.mem_append.mp memRow with before | new
          · exact indexed.single row before r₁ r₂ marked marked'
          · rw [List.mem_singleton.mp new, bears_requested] at marked marked'
            rw [marked, marked']
        accepted := by
          intro row memRow r' marked
          rcases List.mem_append.mp memRow with before | new
          · obtain ⟨a, memA, rest⟩ := indexed.accepted row before r' marked
            exact ⟨a, List.mem_append_left _ memA, rest⟩
          · rw [List.mem_singleton.mp new, bears_requested] at marked
            exact ⟨_, List.mem_append_right _ (List.mem_singleton_self _), marked.symm, _, rfl⟩
        logged := by
          intro r' memR
          rcases List.mem_append.mp memR with before | new
          · obtain ⟨a, memA, rest⟩ := indexed.logged r' before
            exact ⟨a, List.mem_append_left _ memA, rest⟩
          · exact ⟨_, List.mem_append_right _ (List.mem_singleton_self _), (List.mem_singleton.mp new).symm, _, rfl⟩
        apart := by
          intro p memP a memA same exportId good
          rcases List.mem_append.mp memA with before | new
          · exact left.apart p memP a before same exportId good
          · rw [List.mem_singleton.mp new] at same
            exact away p memP same.symm
        alone := left.alone
        consistent := by
          refine List.pairwise_append.mpr ⟨indexed.consistent, List.pairwise_singleton _ _, ?_⟩
          intro a memA b memB
          rw [List.mem_singleton.mp memB]
          refine ⟨fun same exportId good => absurd good (fresh a memA same exportId), ?_⟩
          intro _ i j good good' equal
          cases good'
          obtain ⟨row, found, -⟩ := indexed.answered a memA i good
          have inside := (List.getElem?_eq_some_iff.mp found).1
          omega
        once := by
          refine List.nodup_append.mpr ⟨indexed.once, List.nodup_singleton _, fun r' memR new memNew equal => ?_⟩
          obtain ⟨a, memA, same, exportId, good⟩ := indexed.logged r' memR
          rw [List.mem_singleton] at memNew
          exact fresh a memA (same.trans (equal.trans memNew)) exportId good }
  · exact indexed

theorem indexed_exports {s : Service} {exports : List Export} (indexed : Indexed s)
    (rows : ∀ (i : ℕ) (row : Export), exports[i]? = some row →
      unmarked row ∨ ∃ old, s.exports[i]? = some old ∧ ∀ r, bears r row = bears r old)
    (kept : ∀ (i : ℕ) (old : Export), s.exports[i]? = some old →
      ∃ row, exports[i]? = some row ∧ (unmarked row ∨ ∀ r, bears r row = bears r old)) :
    Indexed { s with exports } := by
  have marked_before : ∀ (i : ℕ) (row : Export) (r : ExportRequest), exports[i]? = some row → bears r row = true →
      ∃ old, s.exports[i]? = some old ∧ ∀ r, bears r row = bears r old := by
    intro i row r found marked
    rcases rows i row found with bare | before
    · have absent := bare r
      rw [marked] at absent
      cases absent
    · exact before
  exact {
    answered := by
      intro a mem exportId good
      obtain ⟨old, found, state⟩ := indexed.answered a mem exportId good
      obtain ⟨row, there, changed⟩ := kept exportId old found
      refine ⟨row, there, ?_⟩
      rcases changed with bare | same
      · exact .inr bare
      · rcases state with marked | bare
        · exact .inl (by rw [same]; exact marked)
        · exact .inr fun r => (same r).trans (bare r)
    unique := by
      intro i j row row' r found found' marked marked'
      obtain ⟨old, here, same⟩ := marked_before i row r found marked
      obtain ⟨old', there, same'⟩ := marked_before j row' r found' marked'
      exact indexed.unique i j old old' r here there ((same r).symm.trans marked) ((same' r).symm.trans marked')
    single := by
      intro row mem r r' marked marked'
      obtain ⟨i, found⟩ := List.mem_iff_getElem?.mp mem
      obtain ⟨old, here, same⟩ := marked_before i row r found marked
      exact indexed.single old (List.mem_of_getElem? here) r r' ((same r).symm.trans marked)
        ((same r').symm.trans marked')
    accepted := by
      intro row mem r marked
      obtain ⟨i, found⟩ := List.mem_iff_getElem?.mp mem
      obtain ⟨old, here, same⟩ := marked_before i row r found marked
      exact indexed.accepted old (List.mem_of_getElem? here) r ((same r).symm.trans marked)
    logged := indexed.logged
    apart := indexed.apart
    alone := indexed.alone
    consistent := indexed.consistent
    once := indexed.once }

theorem indexed_modify {s : Service} (exportId : ℕ) {f : Export → Export} (indexed : Indexed s)
    (changes : ∀ row, unmarked (f row) ∨ ∀ r, bears r (f row) = bears r row) :
    Indexed { s with exports := s.exports.modify exportId f } := by
  have located : ∀ i, (s.exports.modify exportId f)[i]? =
      (s.exports[i]?).map fun row => if exportId = i then f row else row := by
    intro i
    rw [List.getElem?_modify]
    split <;> simp
  refine indexed_exports indexed (fun i row found => ?_) fun i old found => ?_
  · rw [located] at found
    obtain ⟨old, there, rfl⟩ := Option.map_eq_some_iff.mp found
    split
    · exact (changes old).imp id fun same => ⟨old, there, same⟩
    · exact .inr ⟨old, there, fun _ => rfl⟩
  · refine ⟨_, by rw [located, found, Option.map_some], ?_⟩
    split
    · exact changes old
    · exact .inr fun _ => rfl

theorem indexed_step {s : Service} {a : Action} (indexed : Indexed s) (admissible : Admissible s a) :
    Indexed (step s a) := by
  cases a with
  | openRequest r => exact indexed_openRequest indexed admissible
  | numberRequest r => exact indexed_numberRequest r indexed
  | insertRequest r version => exact indexed_insertRequest r version indexed
  | rollback r version => exact indexed_erase (r, version) indexed
  | queueEvidenceExport caseId reportId =>
    refine indexed_exports indexed (fun i row found => ?_) fun i old found => ?_
    · rcases concat_cases found with before | ⟨-, rfl⟩
      · exact .inr ⟨row, before, fun _ => rfl⟩
      · exact .inl (unmarked_queued caseId reportId _)
    · exact ⟨old, concat_old found, .inr fun _ => rfl⟩
  | sign exportId trusted localKey =>
    exact indexed_modify exportId indexed fun row => .inl (unmarked_signed row trusted localKey)
  | fail exportId => exact indexed_modify exportId indexed fun row => .inr fun _ => rfl
  | change evidence =>
    exact ⟨indexed.answered, indexed.unique, indexed.single, indexed.accepted, indexed.logged, indexed.apart,
      indexed.alone, indexed.consistent, indexed.once⟩

structure Opening (s : Service) : Prop where
  exports : s.exports = []
  inFlight : s.inFlight = []
  answers : s.answers = []
  created : s.created = []

theorem indexed_opening {s : Service} (opening : Opening s) : Indexed s := by
  obtain ⟨exports, inFlight, answers, created⟩ := opening
  refine ⟨?_, ?_, ?_, ?_, ?_, ?_, ?_, ?_, ?_⟩
  · simp [answers]
  · simp [exports]
  · simp [exports]
  · simp [exports]
  · simp [created]
  · simp [inFlight]
  · simp [inFlight]
  · simp [answers]
  · simp [created]

/-- In every run of admissible steps a key has one export, which is inserted once, and
two keys have two. -/
theorem export_requests_idempotent {s : Service} (opening : Opening s) {actions : List Action}
    (along : Along step Admissible s actions) :
    (run step s actions).answers.Pairwise Consistent ∧ (run step s actions).created.Nodup := by
  have indexed := throughout_last (throughout_of_along (I := Indexed) (P := Indexed)
    (fun _ _ before admissible => indexed_step before admissible) (fun _ good => good)
    (indexed_opening opening) along)
  exact ⟨indexed.consistent, indexed.once⟩

/-! A request, its repetition while the export is pending, and one after its signing. -/

def sampleRequest : ExportRequest := ⟨sampleCase, "key-1"⟩

def sampleService : Service where
  evidence := ExportGeneration.sampleEvidence ⟨[sampleRow "01HX3QK7Z000000000000000E1" "LOG" verified],
    List.nodup_singleton _⟩
  exports := []
  inFlight := []
  answers := []
  created := []

def requesting : List Action :=
  [.openRequest sampleRequest, .numberRequest sampleRequest, .insertRequest sampleRequest 1]

theorem pending_repetition :
    (run step sampleService (requesting ++ [.openRequest sampleRequest])).answers.Pairwise Consistent ∧
      (run step sampleService (requesting ++ [.openRequest sampleRequest])).created.Nodup := by
  refine export_requests_idempotent ⟨rfl, rfl, rfl, rfl⟩ ⟨⟨?_, ?_⟩, trivial, trivial, ⟨?_, ?_⟩, trivial⟩
  · intro a mem
    cases mem
  · intro p mem
    cases mem
  · intro a mem _ exportId good
    obtain ⟨rfl⟩ := List.mem_singleton.mp mem
    cases good
    exact ⟨by decide, _, rfl, by decide⟩
  · intro p mem
    cases mem

/-- The repetition behind the signing gets a second export. -/
theorem signed_key_forgotten :
    ¬ (run step sampleService (requesting ++ [.sign 0 true false] ++ requesting.take 2 ++
      [.insertRequest sampleRequest 2])).created.Nodup := by
  decide

end Mirage.ExportRequests
