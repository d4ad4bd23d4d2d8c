import Mirage.EventRun

/-! Requests that name themselves by a key. A service keeps one record for each key, a
request that it answers is answered with a record, and a run collects what every request
was answered. -/

namespace Mirage.KeyedRequests
open EventRun

structure Answered (κ γ : Type) where
  key : κ
  content : γ
  answer : Option ℕ

section
variable {κ γ : Type}

/-- A later request with the key of an answered one gets its record if it has the same
content, and is rejected if not. -/
def Agree (first later : Answered κ γ) : Prop :=
  ∀ record, first.answer = some record → first.key = later.key →
    (first.content = later.content → later.answer = some record) ∧
      (first.content ≠ later.content → later.answer = none)

def Consistent (log : List (Answered κ γ)) : Prop := log.Pairwise Agree

def Traced (lookup : κ → Option ℕ) (log : List (Answered κ γ)) : Prop :=
  ∀ key record, lookup key = some record ↔ ∃ a ∈ log, a.key = key ∧ a.answer = some record

/-- Behind an answered request with its key, a request is admitted exactly if it has
the same content. -/
def Admits (log : List (Answered κ γ)) (key : κ) (content : γ) (admitted : Bool) : Prop :=
  ∀ first ∈ log, first.key = key → first.answer.isSome → (admitted ↔ first.content = content)

end

/-- A service that looks a request up behind its checks. -/
structure Service (σ ε κ γ : Type) where
  step : σ → ε → σ
  lookup : σ → κ → Option ℕ
  request : ε → Option (κ × γ)
  admitted : σ → ε → Bool
  answer : σ → ε → Option ℕ
  known : ∀ s e key content record, request e = some (key, content) → lookup s key = some record →
    answer s e = if admitted s e then some record else none
  kept : ∀ s e key record, lookup s key = some record → lookup (step s e) key = some record
  recorded : ∀ s e key content record, request e = some (key, content) → lookup s key = none →
    answer s e = some record → lookup (step s e) key = some record
  requested : ∀ s e key record, lookup (step s e) key = some record → lookup s key = none →
    ∃ content, request e = some (key, content) ∧ answer s e = some record

namespace Service
variable {σ ε κ γ : Type} (service : Service σ ε κ γ)

structure Trace (σ κ γ : Type) where
  state : σ
  log : List (Answered κ γ)

def entry (s : σ) (e : ε) : Option (Answered κ γ) :=
  (service.request e).map fun (key, content) => ⟨key, content, service.answer s e⟩

def traceStep (t : Trace σ κ γ) (e : ε) : Trace σ κ γ where
  state := service.step t.state e
  log := t.log ++ (service.entry t.state e).toList

def Ok (t : Trace σ κ γ) (e : ε) : Prop :=
  ∀ key content, service.request e = some (key, content) → Admits t.log key content (service.admitted t.state e)

theorem traced_step {t : Trace σ κ γ} {e : ε} (traced : Traced (service.lookup t.state) t.log) :
    Traced (service.lookup (service.traceStep t e).state) (service.traceStep t e).log := by
  intro key record
  constructor
  · intro found
    cases before : service.lookup t.state key with
    | some old =>
      have same := service.kept t.state e key old before
      cases same.symm.trans found
      obtain ⟨a, mem, own, answered⟩ := (traced key record).mp before
      exact ⟨a, List.mem_append_left _ mem, own, answered⟩
    | none =>
      obtain ⟨content, asked, answered⟩ := service.requested t.state e key record found before
      exact ⟨⟨key, content, service.answer t.state e⟩,
        List.mem_append_right _ (by simp [entry, asked]), rfl, answered⟩
  · rintro ⟨a, mem, rfl, answered⟩
    rcases List.mem_append.mp mem with earlier | now
    · exact service.kept t.state e a.key record ((traced a.key record).mpr ⟨a, earlier, rfl, answered⟩)
    · simp only [entry, Option.mem_toList, Option.map_eq_some_iff] at now
      obtain ⟨⟨key, content⟩, asked, rfl⟩ := now
      cases before : service.lookup t.state key with
      | none => exact service.recorded t.state e key content record asked before answered
      | some old =>
        have reply := service.known t.state e key content old asked before
        rw [show service.answer t.state e = some record from answered] at reply
        split at reply
        · cases reply
          exact service.kept t.state e key record before
        · cases reply

theorem consistent_step_iff {t : Trace σ κ γ} {e : ε} (traced : Traced (service.lookup t.state) t.log)
    (consistent : Consistent t.log) : Consistent (service.traceStep t e).log ↔ service.Ok t e := by
  unfold traceStep entry Ok
  cases asked : service.request e with
  | none => simp [consistent]
  | some call =>
    obtain ⟨key, content⟩ := call
    have agree : ∀ first ∈ t.log, Agree first ⟨key, content, service.answer t.state e⟩ ↔
        (first.key = key → first.answer.isSome → (service.admitted t.state e ↔ first.content = content)) := by
      intro first mem
      cases answered : first.answer with
      | none => simp [Agree, answered]
      | some record =>
        by_cases same : first.key = key
        · have reply := service.known t.state e key content record asked
            ((traced key record).mpr ⟨first, mem, same, answered⟩)
          by_cases admitted : service.admitted t.state e <;>
            simp [Agree, answered, same, reply, admitted]
        · simp [Agree, answered, same]
    simp only [Option.map_some, Option.toList_some, Consistent, List.pairwise_append, List.pairwise_singleton,
      List.mem_singleton, forall_eq, true_and, Option.some.injEq, Prod.mk.injEq, Admits]
    constructor
    · rintro ⟨-, agrees⟩ key' content' ⟨rfl, rfl⟩ first mem
      exact (agree first mem).mp (agrees first mem)
    · intro admits
      exact ⟨consistent, fun first mem => (agree first mem).mpr (admits key content ⟨rfl, rfl⟩ first mem)⟩

/-- Without records to begin with, all answers of a run agree exactly if every request is admitted as its
content says. -/
theorem consistent_iff {s : σ} (opening : ∀ key, service.lookup s key = none) (events : List ε) :
    Throughout service.traceStep (fun t => Consistent t.log) ⟨s, []⟩ events ↔
      Along service.traceStep service.Ok ⟨s, []⟩ events := by
  refine throughout_iff_along (I := fun t : Trace σ κ γ => Traced (service.lookup t.state) t.log)
    (P := fun t : Trace σ κ γ => Consistent t.log) (s := ⟨s, []⟩)
    (fun _ _ traced => service.traced_step traced)
    (fun _ _ traced consistent => service.consistent_step_iff traced consistent) (fun key record => ?_)
    List.Pairwise.nil events
  simp [opening]

end Service

/-! A service whose records are the rows of a table. -/

section
variable {ρ κ : Type} [DecidableEq κ]

def position (key : ρ → κ) (rows : List ρ) (wanted : κ) : Option ℕ := rows.findIdx? fun row => key row = wanted

theorem position_eq_of_keys {key : ρ → κ} {rows rows' : List ρ} (same : rows'.map key = rows.map key) (wanted : κ) :
    position key rows' wanted = position key rows wanted := by
  have through (l : List ρ) : position key l wanted = (l.map key).findIdx? (fun k => k = wanted) := by
    rw [List.findIdx?_map]
    rfl
  rw [through, through, same]

theorem position_append_old {key : ρ → κ} {rows : List ρ} {row : ρ} {wanted : κ} {record : ℕ}
    (found : position key rows wanted = some record) : position key (rows ++ [row]) wanted = some record := by
  rw [position, List.findIdx?_append]
  rw [position] at found
  rw [found]
  rfl

theorem position_append_new {key : ρ → κ} {rows : List ρ} {row : ρ} {wanted : κ}
    (absent : position key rows wanted = none) :
    position key (rows ++ [row]) wanted = if key row = wanted then some rows.length else none := by
  rw [position] at absent
  rw [position, List.findIdx?_append, absent]
  by_cases own : key row = wanted
  · simp [own]
  · simp [own]

end

theorem keys_modify {ρ κ : Type} {key : ρ → κ} (rows : List ρ) (index : ℕ) {f : ρ → ρ} (keeps : ∀ row, key (f row) = key row) :
    (rows.modify index f).map key = rows.map key := by
  apply List.ext_getElem?
  intro j
  rw [List.getElem?_map, List.getElem?_modify, List.getElem?_map]
  cases rows[j]? with
  | none => rfl
  | some row =>
    by_cases here : index = j
    · simp [here, keeps]
    · simp [here]

section
variable {σ ε ρ κ γ : Type} [DecidableEq κ]

def ofTable (rows : σ → List ρ) (key : ρ → κ) (step : σ → ε → σ) (request : ε → Option (κ × γ))
    (admitted : σ → ε → Bool) (answer : σ → ε → Option ℕ)
    (known : ∀ s e wanted content record, request e = some (wanted, content) →
      position key (rows s) wanted = some record →
      (rows (step s e)).map key = (rows s).map key ∧ answer s e = if admitted s e then some record else none)
    (fresh : ∀ s e wanted content, request e = some (wanted, content) → position key (rows s) wanted = none →
      (∃ row, key row = wanted ∧ rows (step s e) = rows s ++ [row] ∧ answer s e = some (rows s).length) ∨
        rows (step s e) = rows s ∧ answer s e = none)
    (other : ∀ s e, request e = none → (rows (step s e)).map key = (rows s).map key) : Service σ ε κ γ where
  step
  lookup s := position key (rows s)
  request
  admitted
  answer
  known s e wanted content record asked found := (known s e wanted content record asked found).2
  kept := by
    intro s e wanted record found
    cases asked : request e with
    | none => exact (position_eq_of_keys (other s e asked) wanted).trans found
    | some call =>
      obtain ⟨named, content⟩ := call
      cases before : position key (rows s) named with
      | some old => exact (position_eq_of_keys (known s e named content old asked before).1 wanted).trans found
      | none =>
        obtain ⟨row, -, appended, -⟩ | ⟨same, -⟩ := fresh s e named content asked before
        · rw [appended]
          exact position_append_old found
        · rw [same]
          exact found
  recorded := by
    intro s e wanted content record asked absent answered
    obtain ⟨row, own, appended, stored⟩ | ⟨-, refused⟩ := fresh s e wanted content asked absent
    · rw [appended, position_append_new absent, if_pos own, ← stored, answered]
    · rw [refused] at answered
      cases answered
  requested := by
    intro s e wanted record found absent
    cases asked : request e with
    | none =>
      rw [position_eq_of_keys (other s e asked) wanted, absent] at found
      cases found
    | some call =>
      obtain ⟨named, content⟩ := call
      cases before : position key (rows s) named with
      | some old =>
        rw [position_eq_of_keys (known s e named content old asked before).1 wanted, absent] at found
        cases found
      | none =>
        obtain ⟨row, own, appended, stored⟩ | ⟨same, -⟩ := fresh s e named content asked before
        · rw [appended, position_append_new absent] at found
          split at found
          · rename_i here
            cases found
            exact ⟨content, by rw [← here, own], stored⟩
          · cases found
        · rw [same, absent] at found
          cases found

end

end Mirage.KeyedRequests
