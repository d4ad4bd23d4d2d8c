import Mirage.EvidenceExport
import Mathlib.Data.Sum.Order
import Mathlib.Data.List.Lex

/-! The order of the rows in an export manifest. Where the fields of the sort keys
are texts and integers, each of the seven sorts is the insertion sort by the rank of
the key, and the order of the input does not matter if no two rows share a key. -/

namespace Mirage.ManifestOrder
open PythonText Raw RowLocks SignedPackage EvidenceExport KeyedSort

/-- A component of a sort key: a text or an integer. -/
abbrev Scalar := Lex (Text ⊕ Int)

def ofText (t : Text) : Scalar := toLex (.inl t)

def ofInt (n : Int) : Scalar := toLex (.inr n)

def raw (s : Scalar) : Raw := Sum.elim .str .int (ofLex s)

def SameKind (a b : Scalar) : Prop := (ofLex a).isLeft = (ofLex b).isLeft

theorem ofText_lt {t u : Text} : ofText t < ofText u ↔ t < u := Sum.Lex.inl_lt_inl_iff

theorem ofInt_lt {n k : Int} : ofInt n < ofInt k ↔ n < k := Sum.Lex.inr_lt_inr_iff

theorem ofText_inj {t u : Text} : ofText t = ofText u ↔ t = u :=
  ⟨fun same => Sum.inl.inj (toLex.injective same), congrArg ofText⟩

theorem ofInt_inj {n k : Int} : ofInt n = ofInt k ↔ n = k :=
  ⟨fun same => Sum.inr.inj (toLex.injective same), congrArg ofInt⟩

theorem scalar_cases (s : Scalar) : (∃ t, s = ofText t) ∨ ∃ n, s = ofInt n := by
  cases s using Lex.rec with
  | _ s => cases s with
    | inl t => exact .inl ⟨t, rfl⟩
    | inr n => exact .inr ⟨n, rfl⟩

theorem raw_compare {a b : Scalar} (kind : SameKind a b) :
    equals (raw a) (raw b) = decide (a = b) ∧ less (raw a) (raw b) = some (decide (a < b)) := by
  rcases scalar_cases a with ⟨t, rfl⟩ | ⟨n, rfl⟩ <;> rcases scalar_cases b with ⟨u, rfl⟩ | ⟨k, rfl⟩
  · exact ⟨(equals_str t u).trans (decide_eq_decide.mpr ofText_inj.symm),
      (less_str t u).trans (congrArg some (decide_eq_decide.mpr ofText_lt.symm))⟩
  · cases kind
  · cases kind
  · exact ⟨(equals_int n k).trans (decide_eq_decide.mpr ofInt_inj.symm),
      (less_int n k).trans (congrArg some (decide_eq_decide.mpr ofInt_lt.symm))⟩

theorem lessItems_raw {xs ys : List Scalar} (kinds : List.Forall₂ SameKind xs ys) :
    lessItems (xs.map raw) (ys.map raw) = some (decide (xs < ys)) := by
  induction kinds with
  | nil => rfl
  | @cons x y xs ys kind _ ih =>
    obtain ⟨same, before⟩ := raw_compare kind
    rw [List.map_cons, List.map_cons, lessItems, same]
    by_cases equal : x = y
    · subst equal
      rw [decide_eq_true rfl, if_pos rfl, ih]
      exact congrArg some (decide_eq_decide.mpr (by simp))
    · rw [decide_eq_false equal, if_neg Bool.false_ne_true, before]
      exact congrArg some (decide_eq_decide.mpr (by simp [List.cons_lt_cons_iff, equal]))

/-! The sort of rows whose keys are such tuples. -/

/-- The rows have keys, which are `scalars` and agree in kind. -/
structure Comparable (key : Dict → Except Raised (List Raw)) (scalars : Dict → List Scalar)
    (rows : List Dict) : Prop where
  keys : ∀ d ∈ rows, key d = .ok ((scalars d).map raw)
  kinds : ∀ a ∈ rows, ∀ b ∈ rows, List.Forall₂ SameKind (scalars a) (scalars b)

theorem keyed_eq {κ : Type} {key : Dict → Except Raised κ} {value : Dict → κ} {rows : List Dict}
    (keys : ∀ d ∈ rows, key d = .ok (value d)) :
    keyed key rows = .ok (rows.map fun d => (value d, d)) := by
  induction rows with
  | nil => rfl
  | cons d rest ih =>
    rw [List.forall_mem_cons] at keys
    rw [keyed, keys.1, ih keys.2]
    rfl

def byRank {ι : Type} [LinearOrder ι] (rank : Dict → ι) (rows : List Dict) : List Dict :=
  rows.insertionSort fun a b => rank a ≤ rank b

theorem sortedRows_eq {key : Dict → Except Raised (List Raw)} {scalars : Dict → List Scalar}
    {rows : List Dict} (comparable : Comparable key scalars rows) :
    sortedRows key rows = .ok (byRank scalars rows) := by
  have ranks : Ranks lessItems scalars (rows.map fun d => ((scalars d).map raw, d)) := by
    intro a memA b memB
    obtain ⟨d, memD, rfl⟩ := List.mem_map.mp memA
    obtain ⟨e, memE, rfl⟩ := List.mem_map.mp memB
    refine (lessItems_raw (comparable.kinds d memD e memE)).trans ?_
    exact congrArg some (decide_eq_decide.mpr Iff.rfl)
  rw [sortedRows, keyed_eq comparable.keys]
  change (KeyedSort.sorted lessItems _).elim _ _ = _
  rw [ranks.sorted_eq, List.map_map]
  change Except.ok ((rows.map id).insertionSort _) = _
  rw [List.map_id]
  rfl

def textField (d : Dict) (name : String) : Text :=
  match member (text name) d with
  | some (.str t) => t
  | _ => []

def intField (d : Dict) (name : String) : Int :=
  match member (text name) d with
  | some (.int n) => n
  | _ => 0

def IsText (d : Dict) (name : String) : Prop := member (text name) d = some (.str (textField d name))

def IsInt (d : Dict) (name : String) : Prop := member (text name) d = some (.int (intField d name))

def TextOrAbsent (d : Dict) (name : String) : Prop := member (text name) d = none ∨ IsText d name

def IntOrAbsent (d : Dict) (name : String) : Prop := member (text name) d = none ∨ IsInt d name

theorem subscript_text {d : Dict} {name : String} (known : IsText d name) :
    subscript d name = .ok (raw (ofText (textField d name))) := by
  rw [subscript, known]
  rfl

theorem getOr_text {d : Dict} {name : String} (known : TextOrAbsent d name) :
    getOr d name (.str []) = raw (ofText (textField d name)) := by
  rcases known with absent | known
  · have empty : textField d name = [] := by rw [textField, absent]
    rw [getOr, absent, empty]
    rfl
  · rw [getOr, known]
    rfl

theorem getOr_int {d : Dict} {name : String} (known : IntOrAbsent d name) :
    getOr d name (.int 0) = raw (ofInt (intField d name)) := by
  rcases known with absent | known
  · have zero : intField d name = 0 := by rw [intField, absent]
    rw [getOr, absent, zero]
    rfl
  · rw [getOr, known]
    rfl

theorem toInt_int (ofText : Text → Option Int) (n : Int) : toInt ofText (.int n) = .ok n := by
  change Except.ok (truncate n) = Except.ok n
  rw [truncate, Rat.num_intCast, Rat.den_intCast, Nat.cast_one, Int.tdiv_one]

def timelineRank (d : Dict) : List Scalar :=
  [ofText (textField d "at"), ofInt (intField d "new_version")]

def evidenceRank (d : Dict) : List Scalar :=
  [ofText (textField d "evidence_type"), ofText (textField d "acquisition_time"),
    ofText (textField d "source_id"), ofInt (intField d "source_sequence"),
    ofText (textField d "evidence_id")]

def createdRank (idName : String) (d : Dict) : List Scalar :=
  [ofText (textField d "created_at"), ofText (textField d idName)]

def gapRank (d : Dict) : Text := textField d "gap_id"

structure EvidenceFields (d : Dict) : Prop where
  evidenceType : IsText d "evidence_type"
  acquisitionTime : IsText d "acquisition_time"
  sourceId : IsText d "source_id"
  sourceSequence : IsInt d "source_sequence"
  evidenceId : IsText d "evidence_id"

structure Sortable (m : ManifestInput) : Prop where
  sessions : ∀ d ∈ m.sessions, TextOrAbsent d "created_at" ∧ IsText d "session_id"
  timeline : ∀ d ∈ m.timeline, TextOrAbsent d "at" ∧ IntOrAbsent d "new_version"
  evidence : ∀ d ∈ m.evidence, EvidenceFields d
  gaps : ∀ d ∈ m.collectionGaps, IsText d "gap_id"
  analystActions : ∀ d ∈ m.analystActions, TextOrAbsent d "created_at" ∧ TextOrAbsent d "id"
  aiActions : ∀ d ∈ m.aiActions, TextOrAbsent d "created_at" ∧ TextOrAbsent d "id"
  policyDecisions : ∀ d ∈ m.policyDecisions,
    TextOrAbsent d "created_at" ∧ TextOrAbsent d "decision_id"

theorem sameKind_text (t u : Text) : SameKind (ofText t) (ofText u) := rfl

theorem sameKind_int (n k : Int) : SameKind (ofInt n) (ofInt k) := rfl

theorem comparable_sessions {rows : List Dict}
    (known : ∀ d ∈ rows, TextOrAbsent d "created_at" ∧ IsText d "session_id") :
    Comparable sessionKey (createdRank "session_id") rows where
  keys d mem := by
    obtain ⟨created, id⟩ := known d mem
    rw [sessionKey, subscript_text id, getOr_text created]
    rfl
  kinds a _ b _ := .cons (sameKind_text _ _) (.cons (sameKind_text _ _) .nil)

theorem comparable_timeline {rows : List Dict}
    (known : ∀ d ∈ rows, TextOrAbsent d "at" ∧ IntOrAbsent d "new_version") :
    Comparable timelineKey timelineRank rows where
  keys d mem := by
    obtain ⟨time, version⟩ := known d mem
    rw [timelineKey, getOr_text time, getOr_int version]
    rfl
  kinds a _ b _ := .cons (sameKind_text _ _) (.cons (sameKind_int _ _) .nil)

theorem comparable_created {idName : String} {rows : List Dict}
    (known : ∀ d ∈ rows, TextOrAbsent d "created_at" ∧ TextOrAbsent d idName) :
    Comparable (createdKey idName) (createdRank idName) rows where
  keys d mem := by
    obtain ⟨created, id⟩ := known d mem
    rw [createdKey, getOr_text created, getOr_text id]
    rfl
  kinds a _ b _ := .cons (sameKind_text _ _) (.cons (sameKind_text _ _) .nil)

theorem comparable_evidence (lib : Platform) {rows : List Dict} (known : ∀ d ∈ rows, EvidenceFields d) :
    Comparable (evidenceKey lib) evidenceRank rows where
  keys d mem := by
    have fields := known d mem
    have sequence : subscript d "source_sequence" = .ok (.int (intField d "source_sequence")) := by
      rw [subscript, fields.sourceSequence]
      rfl
    simp only [evidenceKey, subscript_text fields.evidenceType, subscript_text fields.acquisitionTime,
      subscript_text fields.sourceId, sequence, subscript_text fields.evidenceId, ok_bind, toInt_int]
    rfl
  kinds a _ b _ := .cons (sameKind_text _ _) (.cons (sameKind_text _ _) (.cons (sameKind_text _ _)
    (.cons (sameKind_int _ _) (.cons (sameKind_text _ _) .nil))))

theorem sortedGaps_eq {rows : List Dict} (known : ∀ d ∈ rows, IsText d "gap_id") :
    (keyed gapKey rows >>= fun ks => sortedBy less ks) = .ok (byRank gapRank rows) := by
  have keys : ∀ d ∈ rows, gapKey d = .ok (.str (gapRank d)) := fun d mem => subscript_text (known d mem)
  have ranks : Ranks less gapRank (rows.map fun d => (.str (gapRank d), d)) := by
    intro a memA b memB
    obtain ⟨d, _, rfl⟩ := List.mem_map.mp memA
    obtain ⟨e, _, rfl⟩ := List.mem_map.mp memB
    exact (less_str _ _).trans (congrArg some (decide_eq_decide.mpr Iff.rfl))
  rw [keyed_eq keys]
  change (KeyedSort.sorted less _).elim _ _ = _
  rw [ranks.sorted_eq, List.map_map]
  change Except.ok ((rows.map id).insertionSort _) = _
  rw [List.map_id]
  rfl

def sortedManifest (m : ManifestInput) : List (Text × Raw) :=
  [(text "manifest_version", .str manifestVersion), (text "export_id", .str m.exportId),
    (text "export_version", .int m.exportVersion), (text "export_creation_time", .str m.createdAt),
    (text "export_creator", .str m.createdBy), (text "case", .obj m.case_),
    (text "sessions", rows (byRank (createdRank "session_id") m.sessions)),
    (text "case_state_timeline", rows (byRank timelineRank m.timeline)),
    (text "evidence_objects", rows (byRank evidenceRank m.evidence)),
    (text "collection_gaps", rows (byRank gapRank m.collectionGaps)),
    (text "analyst_actions", rows (byRank (createdRank "id") m.analystActions)),
    (text "ai_actions", rows (byRank (createdRank "id") m.aiActions)),
    (text "policy_decisions", rows (byRank (createdRank "decision_id") m.policyDecisions)),
    (text "signing", .obj [(text "kms_key_arn", .str m.kmsKeyArn),
      (text "algorithm", .str signingAlgorithm),
      (text "payload", .str (text "SHA256(canonical-manifest-without-signature)"))]),
    (text "trusted_timestamp", timestampRecord m.trustedTimestamp),
    (text "limitations", .arr (m.limitations.map .str))]

theorem sortEvidence_eq (lib : Platform) {rows : List Dict} (known : ∀ d ∈ rows, EvidenceFields d) :
    sortEvidence lib rows = .ok (byRank evidenceRank rows) :=
  sortedRows_eq (comparable_evidence lib known)

theorem buildManifest_eq (lib : Platform) {m : ManifestInput} (sortable : Sortable m) :
    buildManifest lib m = .ok (.obj (sortedManifest m)) := by
  have gaps := sortedGaps_eq sortable.gaps
  rw [bind_eq_ok] at gaps
  obtain ⟨gapKeys, keyedGaps, gaps⟩ := gaps
  rw [buildManifest, sortedRows_eq (comparable_sessions sortable.sessions), ok_bind,
    sortedRows_eq (comparable_timeline sortable.timeline), ok_bind, sortEvidence_eq lib sortable.evidence,
    ok_bind, keyedGaps, ok_bind, gaps, ok_bind,
    sortedRows_eq (comparable_created sortable.analystActions), ok_bind,
    sortedRows_eq (comparable_created sortable.aiActions), ok_bind,
    sortedRows_eq (comparable_created sortable.policyDecisions), ok_bind]
  rfl

structure Distinct (m : ManifestInput) : Prop where
  sessions : (m.sessions.map fun d => textField d "session_id").Nodup
  timeline : (m.timeline.map timelineRank).Nodup
  evidence : (m.evidence.map fun d => textField d "evidence_id").Nodup
  gaps : (m.collectionGaps.map gapRank).Nodup
  analystActions : (m.analystActions.map fun d => textField d "id").Nodup
  aiActions : (m.aiActions.map fun d => textField d "id").Nodup
  policyDecisions : (m.policyDecisions.map fun d => textField d "decision_id").Nodup

structure Permuted (m m' : ManifestInput) : Prop where
  sessions : m.sessions.Perm m'.sessions
  timeline : m.timeline.Perm m'.timeline
  evidence : m.evidence.Perm m'.evidence
  gaps : m.collectionGaps.Perm m'.collectionGaps
  analystActions : m.analystActions.Perm m'.analystActions
  aiActions : m.aiActions.Perm m'.aiActions
  policyDecisions : m.policyDecisions.Perm m'.policyDecisions
  others : m' = { m with
    sessions := m'.sessions, timeline := m'.timeline, evidence := m'.evidence
    collectionGaps := m'.collectionGaps, analystActions := m'.analystActions
    aiActions := m'.aiActions, policyDecisions := m'.policyDecisions }

theorem byRank_perm {ι β : Type} [LinearOrder ι] {rank : Dict → ι} {part : Dict → β} {xs ys : List Dict}
    (perm : xs.Perm ys) (unique : (xs.map part).Nodup)
    (decides : ∀ a b, rank a = rank b → part a = part b) : byRank rank xs = byRank rank ys :=
  insertionSort_perm perm fun a memA b memB same =>
    List.inj_on_of_nodup_map unique memA memB (decides a b same)

theorem created_decides {idName : String} (a b : Dict) (same : createdRank idName a = createdRank idName b) :
    textField a idName = textField b idName := by
  simp only [createdRank, List.cons.injEq, ofText_inj] at same
  exact same.2.1

theorem evidence_decides (a b : Dict) (same : evidenceRank a = evidenceRank b) :
    textField a "evidence_id" = textField b "evidence_id" := by
  simp only [evidenceRank, List.cons.injEq, ofText_inj] at same
  exact same.2.2.2.2.1

theorem sortedManifest_perm {m m' : ManifestInput} (distinct : Distinct m) (perm : Permuted m m') :
    sortedManifest m' = sortedManifest m := by
  rw [sortedManifest, sortedManifest, perm.others,
    byRank_perm perm.sessions distinct.sessions created_decides,
    byRank_perm perm.timeline distinct.timeline fun a b same => same,
    byRank_perm perm.evidence distinct.evidence evidence_decides,
    byRank_perm perm.gaps distinct.gaps fun a b same => same,
    byRank_perm perm.analystActions distinct.analystActions created_decides,
    byRank_perm perm.aiActions distinct.aiActions created_decides,
    byRank_perm perm.policyDecisions distinct.policyDecisions created_decides]

theorem Sortable.perm {m m' : ManifestInput} (sortable : Sortable m) (perm : Permuted m m') :
    Sortable m' where
  sessions d mem := sortable.sessions d (perm.sessions.mem_iff.mpr mem)
  timeline d mem := sortable.timeline d (perm.timeline.mem_iff.mpr mem)
  evidence d mem := sortable.evidence d (perm.evidence.mem_iff.mpr mem)
  gaps d mem := sortable.gaps d (perm.gaps.mem_iff.mpr mem)
  analystActions d mem := sortable.analystActions d (perm.analystActions.mem_iff.mpr mem)
  aiActions d mem := sortable.aiActions d (perm.aiActions.mem_iff.mpr mem)
  policyDecisions d mem := sortable.policyDecisions d (perm.policyDecisions.mem_iff.mpr mem)

end Mirage.ManifestOrder
