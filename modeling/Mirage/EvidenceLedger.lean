import Mirage.EvidenceAcquisition

/-! Interleavings of acquisitions. A call holds the lock of its source from its checks to
its end, stores its object in between, and commits its rows together. -/

namespace Mirage.EvidenceLedger
open EvidenceAcquisition RowLocks EventRun

structure StoredObject where
  location : Location
  bytes : Bytes

inductive Phase where
  | checked (p : Prepared)
  | stored (p : Prepared) (location : Location)

def Phase.prepared : Phase → Prepared
  | .checked p => p
  | .stored p _ => p

def Phase.sourceId (phase : Phase) : String := phase.prepared.call.request.sourceId

structure World where
  domain : Domain
  ledger : Ledger
  objects : KeyedTable StoredObject.location
  holder : String → Option ℕ
  active : ℕ → Option Phase
  log : List (Call × Except EvidenceAcquisition.Raised EvidenceRecord)

inductive Event where
  | admin (domain : Domain)
  /-- Session `i` calls `acquire`; it waits while another call holds the lock. -/
  | start (i : ℕ) (c : Call)
  /-- The store puts the object of session `i` under a new version. -/
  | put (i : ℕ) (versionId : String)
  /-- The put raises; an object may have been left behind. -/
  | putFails (i : ℕ) (left : Option StoredObject) (e : EvidenceAcquisition.Raised)
  | commit (i : ℕ)
  /-- Session `i` raises or is lost, and its transaction is rolled back. -/
  | fails (i : ℕ) (e : EvidenceAcquisition.Raised)

def answered (w : World) (c : Call) (result : Except EvidenceAcquisition.Raised EvidenceRecord) : World :=
  { w with log := w.log ++ [(c, result)] }

def release (w : World) (i : ℕ) (phase : Phase) (result : Except EvidenceAcquisition.Raised EvidenceRecord) : World :=
  { answered w phase.prepared.call result with
    holder := fun sourceId => if sourceId = phase.sourceId then none else w.holder sourceId
    active := Function.update w.active i none }

section
variable (sha256 : Bytes → String) (overrides : List (String × ℕ)) (bucket : String)

def start (w : World) (i : ℕ) (c : Call) : World :=
  match w.active i, prepare sha256 overrides c with
  | some _, _ => w
  | none, .error e => answered w c (.error e)
  | none, .ok p =>
    match w.holder c.request.sourceId, check w.domain w.ledger p with
    | some _, _ => w
    | none, .error e => answered w c (.error e)
    | none, .ok (some record) => answered w c (.ok record)
    | none, .ok none =>
      { w with
        holder := fun sourceId => if sourceId = c.request.sourceId then some i else w.holder sourceId
        active := Function.update w.active i (some (.checked p)) }

def step (w : World) : Event → World
  | .admin domain => { w with domain }
  | .start i c => start sha256 overrides w i c
  | .put i versionId =>
    match w.active i with
    | some (.checked p) =>
      match w.objects.insert ⟨⟨bucket, p.key, versionId⟩, p.spool⟩ with
      | some objects =>
        { w with
          objects
          active := Function.update w.active i (some (.stored p ⟨bucket, p.key, versionId⟩)) }
      | none => w
    | _ => w
  | .putFails i left e =>
    match w.active i with
    | some (.checked p) =>
      release { w with objects := (left.bind w.objects.insert).getD w.objects } i (.checked p) (.error e)
    | _ => w
  | .commit i =>
    match w.active i with
    | some (.stored p location) =>
      match insertAll w.ledger p location with
      | some ledger =>
        release { w with ledger } i (.stored p location) (.ok (newRow p location).record)
      | none => release w i (.stored p location) (.error ⟨.other, "duplicate key"⟩)
    | _ => w
  | .fails i e =>
    match w.active i with
    | some phase => release w i phase (.error e)
    | none => w

structure Start (w : World) : Prop where
  rows : w.ledger.rows.rows = []
  outbox : w.ledger.outbox.rows = []
  holder : ∀ sourceId, w.holder sourceId = none
  active : ∀ i, w.active i = none

structure Sound (w : World) : Prop where
  increasing : ∀ sourceId, (rowsOf w.ledger sourceId).Pairwise fun a b => a.sourceSequence < b.sourceSequence
  backed : ∀ row ∈ w.ledger.rows.rows, ∃ bytes,
    w.objects.find row.location = some ⟨row.location, bytes⟩ ∧ row.sha256 = sha256 bytes ∧
      row.sizeBytes = bytes.length
  announced : ∀ row ∈ w.ledger.rows.rows,
    w.ledger.outbox.rows.countP (fun event => event.evidenceId = row.evidenceId) = 1

structure Inv (w : World) : Prop extends Sound sha256 w where
  known : ∀ event ∈ w.ledger.outbox.rows, event.evidenceId ∈ w.ledger.rows.rows.map EvidenceRow.evidenceId
  held : ∀ i phase, w.active i = some phase → w.holder phase.sourceId = some i
  prepared : ∀ i phase, w.active i = some phase →
    prepare sha256 overrides phase.prepared.call = .ok phase.prepared
  next : ∀ i phase, w.active i = some phase → ∀ row ∈ rowsOf w.ledger phase.sourceId,
    row.sourceSequence < phase.prepared.call.request.sourceSequence
  stored : ∀ i p location, w.active i = some (.stored p location) →
    w.objects.find location = some ⟨location, p.spool⟩

theorem inv_start {w : World} (start : Start w) : Inv sha256 overrides w where
  increasing := by
    intro sourceId
    rw [rowsOf, start.rows]
    exact List.Pairwise.nil
  backed := by simp [start.rows]
  announced := by simp [start.rows]
  known := by simp [start.outbox]
  held := by simp [start.active]
  prepared := by simp [start.active]
  next := by simp [start.active]
  stored := by simp [start.active]

variable {sha256 overrides bucket}

theorem update_eq_some {f : ℕ → Option Phase} {i j : ℕ} {new phase : Phase}
    (found : Function.update f i (some new) j = some phase) :
    j = i ∧ phase = new ∨ j ≠ i ∧ f j = some phase := by
  by_cases same : j = i
  · rw [same, Function.update_self] at found
    exact .inl ⟨same, (Option.some.inj found).symm⟩
  · rw [Function.update_of_ne same] at found
    exact .inr ⟨same, found⟩

theorem inv_objects {w : World} (inv : Inv sha256 overrides w)
    {objects : KeyedTable StoredObject.location}
    (kept : ∀ location object, w.objects.find location = some object →
      objects.find location = some object) : Inv sha256 overrides { w with objects } where
  increasing := inv.increasing
  backed := by
    intro row mem
    obtain ⟨bytes, found, digest, size⟩ := inv.backed row mem
    exact ⟨bytes, kept _ _ found, digest, size⟩
  announced := inv.announced
  known := inv.known
  held := inv.held
  prepared := inv.prepared
  next := inv.next
  stored := fun i p location active => kept _ _ (inv.stored i p location active)

theorem find_of_insert {t t' : KeyedTable StoredObject.location} {new object : StoredObject}
    {location : Location} (inserted : t.insert new = some t') (found : t.find location = some object) :
    t'.find location = some object := by
  rw [KeyedTable.find_insert inserted]
  split
  · rename_i same
    have taken := (KeyedTable.insert_eq_some inserted).1
    rw [same, ← t.find_eq_none, found] at taken
    cases taken
  · exact found

theorem inv_release {w : World} (inv : Inv sha256 overrides w) {i : ℕ} {phase : Phase}
    (active : w.active i = some phase) (result : Except EvidenceAcquisition.Raised EvidenceRecord) :
    Inv sha256 overrides (release w i phase result) := by
  have others : ∀ j phase', Function.update w.active i none j = some phase' →
      w.active j = some phase' ∧ phase'.sourceId ≠ phase.sourceId := by
    intro j phase' found
    by_cases same : j = i
    · rw [same, Function.update_self] at found
      cases found
    · rw [Function.update_of_ne same] at found
      refine ⟨found, fun sources => same ?_⟩
      have holder := inv.held j phase' found
      rw [sources, inv.held i phase active] at holder
      exact (Option.some.inj holder).symm
  exact {
    increasing := inv.increasing
    backed := inv.backed
    announced := inv.announced
    known := inv.known
    held := by
      intro j phase' found
      obtain ⟨before, other⟩ := others j phase' found
      exact (if_neg other).trans (inv.held j phase' before)
    prepared := fun j phase' found => inv.prepared j phase' (others j phase' found).1
    next := fun j phase' found => inv.next j phase' (others j phase' found).1
    stored := fun j p location found => inv.stored j p location (others j _ found).1 }

theorem inv_answered {w : World} (inv : Inv sha256 overrides w) (c : Call)
    (result : Except EvidenceAcquisition.Raised EvidenceRecord) : Inv sha256 overrides (answered w c result) where
  increasing := inv.increasing
  backed := inv.backed
  announced := inv.announced
  known := inv.known
  held := inv.held
  prepared := inv.prepared
  next := inv.next
  stored := inv.stored

theorem inv_checked {w : World} (inv : Inv sha256 overrides w) {i : ℕ} {c : Call} {p : Prepared}
    (idle : w.active i = none) (made : p.call = c) (ready : prepare sha256 overrides c = .ok p)
    (free : w.holder c.request.sourceId = none) (passed : check w.domain w.ledger p = .ok none) :
    Inv sha256 overrides
      { w with
        holder := fun sourceId => if sourceId = c.request.sourceId then some i else w.holder sourceId
        active := Function.update w.active i (some (.checked p)) } := by
  subst made
  exact {
    increasing := inv.increasing
    backed := inv.backed
    announced := inv.announced
    known := inv.known
    held := by
      intro j phase found
      rcases update_eq_some found with ⟨rfl, rfl⟩ | ⟨-, before⟩
      · exact if_pos rfl
      · have holder := inv.held j phase before
        refine (if_neg fun sources => ?_).trans holder
        rw [sources, free] at holder
        cases holder
    prepared := by
      intro j phase found
      rcases update_eq_some found with ⟨rfl, rfl⟩ | ⟨-, before⟩
      · exact ready
      · exact inv.prepared j phase before
    next := by
      intro j phase found
      rcases update_eq_some found with ⟨rfl, rfl⟩ | ⟨-, before⟩
      · exact check_eq_none passed
      · exact inv.next j phase before
    stored := by
      intro j p' location found
      rcases update_eq_some found with ⟨-, other⟩ | ⟨-, before⟩
      · cases other
      · exact inv.stored j p' location before }

theorem inv_start_call {w : World} (inv : Inv sha256 overrides w) (i : ℕ) (c : Call) :
    Inv sha256 overrides (start sha256 overrides w i c) := by
  unfold start
  split
  · exact inv
  · exact inv_answered inv c _
  · rename_i p idle prepared
    obtain ⟨made, -⟩ := prepare_eq_ok prepared
    split
    · exact inv
    · exact inv_answered inv c _
    · exact inv_answered inv c _
    · rename_i free passed
      exact inv_checked inv idle made prepared free passed

theorem inv_put {w : World} (inv : Inv sha256 overrides w) {i : ℕ} {p : Prepared}
    (active : w.active i = some (.checked p)) {location : Location}
    {objects : KeyedTable StoredObject.location}
    (inserted : w.objects.insert ⟨location, p.spool⟩ = some objects) :
    Inv sha256 overrides
      { w with objects, active := Function.update w.active i (some (.stored p location)) } := by
  have grown := inv_objects inv fun _ _ found => find_of_insert inserted found
  have before : ∀ j phase, Function.update w.active i (some (.stored p location)) j = some phase →
      ∃ phase', w.active j = some phase' ∧ phase'.prepared = phase.prepared := by
    intro j phase found
    rcases update_eq_some found with ⟨rfl, rfl⟩ | ⟨-, earlier⟩
    · exact ⟨.checked p, active, rfl⟩
    · exact ⟨phase, earlier, rfl⟩
  exact {
    increasing := grown.increasing
    backed := grown.backed
    announced := grown.announced
    known := grown.known
    held := by
      intro j phase found
      obtain ⟨phase', earlier, same⟩ := before j phase found
      have holder := inv.held j phase' earlier
      rw [Phase.sourceId, same] at holder
      exact holder
    prepared := by
      intro j phase found
      obtain ⟨phase', earlier, same⟩ := before j phase found
      exact same ▸ inv.prepared j phase' earlier
    next := by
      intro j phase found
      obtain ⟨phase', earlier, same⟩ := before j phase found
      have behind := inv.next j phase' earlier
      rw [Phase.sourceId, same] at behind
      exact behind
    stored := by
      intro j p' location' found
      rcases update_eq_some found with ⟨-, same⟩ | ⟨-, earlier⟩
      · cases same
        exact (KeyedTable.find_insert inserted location).trans (if_pos rfl)
      · exact grown.stored j p' location' earlier }

theorem rowsOf_append {l l' : Ledger} {row : EvidenceRow} (grown : l'.rows.rows = l.rows.rows ++ [row])
    (sourceId : String) :
    rowsOf l' sourceId = rowsOf l sourceId ++ if row.sourceId = sourceId then [row] else [] := by
  rw [rowsOf, grown, List.filter_append, rowsOf]
  by_cases same : row.sourceId = sourceId <;> simp [same]

theorem inv_insert {w : World} (inv : Inv sha256 overrides w) {p : Prepared} {location : Location}
    {ledger : Ledger} (wrote : insertAll w.ledger p location = some ledger)
    (ready : prepare sha256 overrides p.call = .ok p)
    (stored : w.objects.find location = some ⟨location, p.spool⟩)
    (behind : ∀ row ∈ rowsOf w.ledger p.call.request.sourceId,
      row.sourceSequence < p.call.request.sourceSequence)
    (alone : ∀ j phase, w.active j = some phase → phase.sourceId ≠ p.call.request.sourceId) :
    Inv sha256 overrides { w with ledger } := by
  obtain ⟨new, rows, -, outbox⟩ := insertAll_eq_some wrote
  obtain ⟨-, spool, size, digest, -⟩ := prepare_eq_ok ready
  have other : ∀ row ∈ w.ledger.rows.rows, row.evidenceId ≠ p.call.evidenceId :=
    fun row mem same => new (List.mem_map.mpr ⟨row, mem, same⟩)
  exact {
    increasing := by
      intro sourceId
      rw [rowsOf_append rows]
      by_cases same : (newRow p location).sourceId = sourceId
      · rw [if_pos same, List.pairwise_append]
        refine ⟨inv.increasing sourceId, List.pairwise_singleton _ _, fun row mem last isLast => ?_⟩
        rw [List.mem_singleton] at isLast
        rw [isLast]
        exact behind row (same ▸ mem)
      · rw [if_neg same, List.append_nil]
        exact inv.increasing sourceId
    backed := by
      intro row mem
      rw [rows, List.mem_append, List.mem_singleton] at mem
      rcases mem with old | rfl
      · exact inv.backed row old
      · refine ⟨p.spool, stored, ?_, ?_⟩
        · rw [spool]
          exact digest
        · rw [spool]
          exact size
    announced := by
      intro row mem
      rw [rows, List.mem_append, List.mem_singleton] at mem
      rw [outbox, List.countP_append, List.countP_singleton]
      rcases mem with old | rfl
      · rw [inv.announced row old, if_neg]
        rw [decide_eq_true_eq]
        exact fun same => other row old same.symm
      · have none : w.ledger.outbox.rows.countP
            (fun event => event.evidenceId = p.call.evidenceId) = 0 := by
          rw [List.countP_eq_zero]
          intro event listed same
          rw [decide_eq_true_eq] at same
          exact new (same ▸ inv.known event listed)
        rw [newRow_evidenceId, none, newEvent_evidenceId, if_pos (decide_eq_true rfl)]
    known := by
      intro event listed
      rw [rows, List.map_append, List.mem_append]
      rw [outbox, List.mem_append, List.mem_singleton] at listed
      rcases listed with old | rfl
      · exact .inl (inv.known event old)
      · exact .inr List.mem_cons_self
    held := inv.held
    prepared := inv.prepared
    next := by
      intro j phase found row mem
      rw [rowsOf_append rows, newRow_sourceId, if_neg (alone j phase found).symm, List.append_nil] at mem
      exact inv.next j phase found row mem
    stored := inv.stored }

theorem inv_commit {w : World} (inv : Inv sha256 overrides w) {i : ℕ} {p : Prepared} {location : Location}
    (active : w.active i = some (.stored p location)) {ledger : Ledger}
    (wrote : insertAll w.ledger p location = some ledger) (result : Except EvidenceAcquisition.Raised EvidenceRecord) :
    Inv sha256 overrides (release { w with ledger } i (.stored p location) result) := by
  have released := inv_release inv active result
  refine inv_insert released wrote (inv.prepared i _ active) (inv.stored i p location active)
    (inv.next i _ active) ?_
  intro j phase found same
  have holder := released.held j phase found
  rw [same] at holder
  cases (if_pos rfl).symm.trans holder

theorem inv_step {w : World} (event : Event) (inv : Inv sha256 overrides w) :
    Inv sha256 overrides (step sha256 overrides bucket w event) := by
  cases event with
  | admin domain =>
    exact ⟨⟨inv.increasing, inv.backed, inv.announced⟩, inv.known, inv.held, inv.prepared, inv.next,
      inv.stored⟩
  | start i c => exact inv_start_call inv i c
  | put i versionId =>
    rw [step]
    split
    · split
      · exact inv_put inv ‹_› ‹_›
      · exact inv
    · exact inv
  | putFails i left e =>
    rw [step]
    split
    · rename_i p active
      have kept : ∀ location object, w.objects.find location = some object →
          ((left.bind w.objects.insert).getD w.objects).find location = some object := by
        intro location object found
        cases inserted : left.bind w.objects.insert with
        | none => exact found
        | some objects =>
          obtain ⟨new, -, inserted⟩ := Option.bind_eq_some_iff.mp inserted
          exact find_of_insert inserted found
      have grown := inv_objects inv kept
      exact inv_release grown active _
    · exact inv
  | commit i =>
    rw [step]
    split
    · split
      · exact inv_commit inv ‹_› ‹_› _
      · exact inv_release inv ‹_› _
    · exact inv
  | fails i e =>
    rw [step]
    split
    · exact inv_release inv ‹_› _
    · exact inv

theorem inv_run {w : World} (start : Start w) (events : List Event) :
    Inv sha256 overrides (run (step sha256 overrides bucket) w events) :=
  run_invariant (fun _ event inv => inv_step event inv) (inv_start sha256 overrides start) events

theorem start_of_error {w : World} {i : ℕ} {c : Call} {e : EvidenceAcquisition.Raised} (idle : w.active i = none)
    (raised : prepare sha256 overrides c = .error e) :
    start sha256 overrides w i c = answered w c (.error e) := by
  rw [start, idle, raised]

theorem start_of_check {w : World} {i : ℕ} {c : Call} {p : Prepared} (idle : w.active i = none)
    (free : w.holder c.request.sourceId = none) (ready : prepare sha256 overrides c = .ok p)
    {result : Except EvidenceAcquisition.Raised EvidenceRecord}
    (checked : check w.domain w.ledger p = result.map some) :
    start sha256 overrides w i c = answered w c result := by
  rw [start, idle, ready]
  simp only [free, checked]
  cases result <;> rfl

theorem find_row {w : World} (sound : Sound sha256 w) {sourceId : String} {sequence : Int}
    {row : EvidenceRow} (mem : row ∈ w.ledger.rows.rows) (source : row.sourceId = sourceId)
    (at' : row.sourceSequence = sequence) :
    (rowsOf w.ledger sourceId).find? (fun row => row.sourceSequence = sequence) = some row := by
  have listed : row ∈ rowsOf w.ledger sourceId :=
    List.mem_filter.mpr ⟨mem, decide_eq_true source⟩
  have distinct : ((rowsOf w.ledger sourceId).map fun row => row.sourceSequence).Nodup := by
    rw [List.Nodup, List.pairwise_map]
    exact (sound.increasing sourceId).imp fun less => ne_of_lt less
  cases found : (rowsOf w.ledger sourceId).find? fun row => row.sourceSequence = sequence with
  | none =>
    have absent := List.find?_eq_none.mp found row listed
    exact absurd (decide_eq_true at') absent
  | some row' =>
    have same : row'.sourceSequence = sequence := by simpa using List.find?_some found
    rw [List.inj_on_of_nodup_map distinct (List.mem_of_find?_eq_some found) listed
      (same.trans at'.symm)]

theorem check_replay {w : World} (sound : Sound sha256 w) {p : Prepared} {row : EvidenceRow}
    (mem : row ∈ w.ledger.rows.rows) (source : row.sourceId = p.call.request.sourceId)
    (sequence : row.sourceSequence = p.call.request.sourceSequence) :
    check w.domain w.ledger p = (admissible w.domain p.call.request).bind fun _ =>
      if sameEvidence row p then .ok (some row.record)
      else .error ⟨.source, "source sequence replayed with different evidence metadata or bytes"⟩ := by
  rw [check, find_row sound mem source sequence]
  simp only [bind]
  congr 1
  funext _
  cases sameEvidence row p <;> rfl

inductive Refused (overrides : List (String × ℕ)) (w : World) (c : Call) : Prop
  | unknownCase (unknown : c.request.caseId ∉ w.domain.cases)
  | foreignSession (sessionId : String) (named : given c.request.sessionId = some sessionId)
      (foreign : (sessionId, c.request.caseId) ∉ w.domain.sessions)
  | wrongCertificate (serial : String) (named : given c.request.sourceCertificateSerial = some serial)
      (wrong : ∀ agent, (w.domain.agents.find? fun agent => agent.agentId = c.request.sourceId) = some agent →
        agent.status = "ACTIVE" → agent.certificateSerial ≠ serial)
  | lowerSequence (row : EvidenceRow) (mem : row ∈ rowsOf w.ledger c.request.sourceId)
      (lower : c.request.sourceSequence < row.sourceSequence)
      (new : ∀ row ∈ rowsOf w.ledger c.request.sourceId, row.sourceSequence ≠ c.request.sourceSequence)
  | oversized (maxBytes : ℕ) (limit : maxBytesByType overrides c.request.evidenceType = some maxBytes)
      (large : maxBytes < (contents c.stream).length)

theorem admissible_eq_ok {d : Domain} {r : AcquisitionRequest} (admitted : admissible d r = .ok ()) :
    r.caseId ∈ d.cases ∧ (∀ sessionId, given r.sessionId = some sessionId → (sessionId, r.caseId) ∈ d.sessions) ∧
      ∀ serial, given r.sourceCertificateSerial = some serial →
        ∃ agent, (d.agents.find? fun agent => agent.agentId = r.sourceId) = some agent ∧
          agent.status = "ACTIVE" ∧ agent.certificateSerial = serial := by
  simp only [admissible, bind_eq_ok, require_eq_ok, decide_eq_true_eq] at admitted
  obtain ⟨-, known, _, session, certificate⟩ := admitted
  refine ⟨known, ?_, ?_⟩
  · intro sessionId named
    rw [admitSession, named] at session
    simpa only [require_eq_ok, decide_eq_true_eq] using session
  · intro serial named
    rw [authenticate, named] at certificate
    simpa [require_eq_ok, Option.any_eq_true] using certificate

theorem start_of_refused {w : World} {i : ℕ} {c : Call} (idle : w.active i = none)
    (free : w.holder c.request.sourceId = none) (refused : Refused overrides w c) :
    ∃ e, start sha256 overrides w i c = answered w c (.error e) := by
  cases ready : prepare sha256 overrides c with
  | error e => exact ⟨e, start_of_error idle ready⟩
  | ok p =>
    obtain ⟨rfl, -, -, -, maxBytes, limit, fits⟩ := prepare_eq_ok ready
    have raises : ∃ e, check w.domain w.ledger p = .error e := by
      cases admitted : admissible w.domain p.call.request with
      | error e => exact ⟨e, by rw [check, admitted]; rfl⟩
      | ok u =>
        obtain ⟨known, session, certificate⟩ := admissible_eq_ok admitted
        cases refused with
        | unknownCase unknown => exact absurd known unknown
        | foreignSession sessionId named foreign => exact absurd (session sessionId named) foreign
        | wrongCertificate serial named wrong =>
          obtain ⟨agent, found, active, same⟩ := certificate serial named
          exact absurd same (wrong agent found active)
        | oversized maxBytes' limit' large =>
          rw [limit, Option.some.injEq] at limit'
          omega
        | lowerSequence row mem lower new =>
          have none : (rowsOf w.ledger p.call.request.sourceId).find? (fun row =>
              row.sourceSequence = p.call.request.sourceSequence) = none := by
            rw [List.find?_eq_none]
            intro row' listed same
            exact new row' listed (of_decide_eq_true same)
          have behind : ¬ maxSequence w.ledger p.call.request.sourceId < p.call.request.sourceSequence := by
            have reached := le_maxSequence mem
            omega
          refine ⟨⟨.source, "source sequence is replayed or out of order"⟩, ?_⟩
          rw [check, admitted]
          simp only [none, behind, decide_false, require_false, bind, Except.bind]
    obtain ⟨e, raised⟩ := raises
    exact ⟨e, start_of_check idle free ready (raised.trans rfl)⟩

def SameRequest (row : EvidenceRow) (r : AcquisitionRequest) : Prop :=
  row.caseId = r.caseId ∧ row.sessionId = r.sessionId ∧ row.evidenceType = r.evidenceType

theorem sameEvidence_iff {row : EvidenceRow} {c : Call} {p : Prepared} {bytes : Bytes}
    (ready : prepare sha256 overrides c = .ok p) (digest : row.sha256 = sha256 bytes)
    (size : row.sizeBytes = bytes.length)
    (collision : sha256 (contents c.stream) = sha256 bytes → contents c.stream = bytes) :
    sameEvidence row p = true ↔ SameRequest row c.request ∧ contents c.stream = bytes := by
  obtain ⟨rfl, -, size', digest', -⟩ := prepare_eq_ok ready
  rw [sameEvidence, digest, size, size', digest']
  simp only [Bool.and_eq_true, decide_eq_true_eq, SameRequest]
  constructor
  · rintro ⟨⟨⟨⟨case', session⟩, type⟩, digests⟩, -⟩
    exact ⟨⟨case', session, type⟩, collision digests.symm⟩
  · rintro ⟨⟨case', session, type⟩, rfl⟩
    exact ⟨⟨⟨⟨case', session⟩, type⟩, rfl⟩, rfl⟩

theorem start_of_replay {w : World} (sound : Sound sha256 w) {i : ℕ} {c : Call} {row : EvidenceRow}
    (idle : w.active i = none) (free : w.holder c.request.sourceId = none)
    (mem : row ∈ w.ledger.rows.rows) (source : row.sourceId = c.request.sourceId)
    (sequence : row.sourceSequence = c.request.sourceSequence) :
    ∃ result, start sha256 overrides w i c = answered w c result := by
  cases ready : prepare sha256 overrides c with
  | error e => exact ⟨_, start_of_error idle ready⟩
  | ok p =>
    obtain ⟨rfl, -⟩ := prepare_eq_ok ready
    have checked := check_replay sound mem source sequence
    cases admitted : admissible w.domain p.call.request with
    | error e =>
      rw [admitted] at checked
      exact ⟨.error e, start_of_check idle free ready (checked.trans rfl)⟩
    | ok u =>
      rw [admitted] at checked
      cases same : sameEvidence row p with
      | true =>
        rw [same] at checked
        exact ⟨.ok row.record, start_of_check idle free ready (checked.trans rfl)⟩
      | false =>
        rw [same] at checked
        exact ⟨.error _, start_of_check idle free ready (checked.trans rfl)⟩

/-- In every state that acquisitions reach the ledger keeps its promises; a replay
writes nothing, is answered with its row where it repeats it, and with a source
error where it does not, once it is past the checks before; a refused call writes
nothing. -/
theorem acquisitions_sound {w₀ : World} (start : Start w₀) (events : List Event) :
    let w := run (step sha256 overrides bucket) w₀ events
    Sound sha256 w ∧
    ∀ i c, w.active i = none → w.holder c.request.sourceId = none →
      (∀ row ∈ w.ledger.rows.rows, row.sourceId = c.request.sourceId →
        row.sourceSequence = c.request.sourceSequence →
        (∃ result, step sha256 overrides bucket w (.start i c) = answered w c result) ∧
        ∀ p bytes, prepare sha256 overrides c = .ok p → admissible w.domain c.request = .ok () →
          w.objects.find row.location = some ⟨row.location, bytes⟩ →
          (SameRequest row c.request ∧ contents c.stream = bytes →
            step sha256 overrides bucket w (.start i c) = answered w c (.ok row.record)) ∧
          (¬ (SameRequest row c.request ∧ contents c.stream = bytes) →
            (sha256 (contents c.stream) = sha256 bytes → contents c.stream = bytes) →
            step sha256 overrides bucket w (.start i c) = answered w c (.error ⟨.source,
              "source sequence replayed with different evidence metadata or bytes"⟩))) ∧
      (Refused overrides w c →
        ∃ e, step sha256 overrides bucket w (.start i c) = answered w c (.error e)) := by
  intro w
  have inv : Inv sha256 overrides w := inv_run start events
  have sound : Sound sha256 w := inv.toSound
  refine ⟨sound, fun i c idle free => ⟨?_, start_of_refused idle free⟩⟩
  intro row mem source sequence
  refine ⟨start_of_replay sound idle free mem source sequence, ?_⟩
  intro p bytes ready admitted found
  obtain ⟨bytes', found', digest, size⟩ := sound.backed row mem
  rw [found, Option.some.injEq, StoredObject.mk.injEq] at found'
  obtain ⟨-, rfl⟩ := found'
  obtain ⟨rfl, -⟩ := prepare_eq_ok ready
  have checked := check_replay sound mem source sequence
  rw [admitted] at checked
  constructor
  · intro same
    have equal : sameEvidence row p = true :=
      (sameEvidence_iff ready digest size fun _ => same.2).mpr same
    rw [equal] at checked
    exact start_of_check idle free ready (checked.trans rfl)
  · intro different collision
    have unequal : sameEvidence row p = false := by
      rw [← Bool.not_eq_true, sameEvidence_iff ready digest size collision]
      exact different
    rw [unequal] at checked
    exact start_of_check idle free ready (checked.trans rfl)

end

/-! One screenshot of two bytes. -/

def sampleSha256 (bytes : Bytes) : String :=
  if bytes = [104, 105] then "8f434346648f6b96df89dda901c5176b10a6d83961dd3c1ac88b59b2dc327aa4" else ""

def sampleRequest (caseId : String) : AcquisitionRequest where
  caseId
  sessionId := none
  evidenceType := "SCREENSHOT"
  sourceId := "agent-1"
  sourceSequence := 1
  sourceCertificateSerial := none
  relatedEventIds := []
  acquisitionTime := 1714557600
  originalFilename := none
  mediaType := "image/png"
  collectionMethod := "AGENT"
  classification := "EVIDENCE"
  metadata := []
  requiredForExport := true

def sampleCall (caseId : String) : Call where
  request := sampleRequest caseId
  stream := [[104], [105]]
  actor := "agent-1"
  correlationId := "01HX3QK7Z0000000000000C0RR"
  evidenceId := "01HX3QK7Z0000000000000EVDA"
  eventId := "01HX3QK7Z0000000000000EVTA"
  storedTime := 1714557601

def sampleWorld : World where
  domain := ⟨["01HX3QK7Z0000000000000CASE"], [], []⟩
  ledger := ⟨.empty, [], .empty⟩
  objects := .empty
  holder := fun _ => none
  active := fun _ => none
  log := []

def sampleRun : List Event := [.start 0 (sampleCall "01HX3QK7Z0000000000000CASE"), .put 0 "1", .commit 0]

theorem sampleRun_sound :
    (run (step sampleSha256 [] "evidence") sampleWorld sampleRun).ledger.rows.rows.length = 1 ∧
    Sound sampleSha256 (run (step sampleSha256 [] "evidence") sampleWorld sampleRun) := by
  have start : Start sampleWorld := ⟨rfl, rfl, fun _ => rfl, fun _ => rfl⟩
  exact ⟨by decide +kernel, (acquisitions_sound start sampleRun).1⟩

/-- A replay that names a case nobody knows is answered for the case. -/
theorem replay_unknown_case :
    let w := run (step sampleSha256 [] "evidence") sampleWorld sampleRun
    (w.ledger.rows.rows.map fun row => (row.sourceId, row.sourceSequence)) = [("agent-1", 1)] ∧
    (step sampleSha256 [] "evidence" w (.start 0 (sampleCall "01HX3QK7Z0000000000000NVNE"))).log.getLast?.map
      (fun entry => match entry.2 with
        | .ok _ => none
        | .error e => some e) = some (some ⟨.evidence, "unknown case"⟩) := by
  decide +kernel

end Mirage.EvidenceLedger
