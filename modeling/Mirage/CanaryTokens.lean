import Mirage.CanarySequences

/-! What callbacks leave behind, in any order of their statements: the rows of a token for
one use, of a token that is no longer good, and of a request id, and what is written with
each row. -/

namespace Mirage.CanaryTokens
open EventRun EvidenceAcquisition CanaryConcurrency CanarySequences

def Unused (t : Token) : Prop := t.expectedUsage = .oneTime → t.status ≠ .used

structure Usable (tokens : List Token) (r : Callback) (t : Token) : Prop where
  mem : t ∈ tokens
  hash : t.publicTokenHash = r.publicTokenHash
  unrevoked : t.revokedAt = none ∧ t.status ≠ .revoked
  unexpired : t.status ≠ .expired
  early : ∃ time, r.callbackTime = some time ∧ time < t.expiresAt

def Calls (r : Callback) (t : Token) (c : Call) : Prop :=
  ∃ time sequence, r.callbackTime = some time ∧ c = callbackCall t time sequence r

def Reached (r : Callback) (t : Token) : Phase → Prop
  | .checked => Unused t
  | .allocated c _ | .acquired c _ | .written c _ => Unused t ∧ Calls r t c
  | _ => True

def Bound (tokens : List Token) (r : Callback) (x : Transaction) : Prop :=
  x.phase = .opened ∨ x.phase.isOver ∨ ∃ t, x.token = some t ∧ Usable tokens r t ∧ Reached r t x.phase

structure Locking (Known : Callback → Prop) (w : World) : Prop where
  ids : (w.tokens.map (·.tokenId)).Nodup
  hashes : (w.tokens.map (·.publicTokenHash)).Nodup
  known : ∀ (i : ℕ) (x : Transaction) (r : Callback), w.transactions[i]? = some x → x.job = .callback r → Known r
  bound : ∀ (i : ℕ) (x : Transaction) (r : Callback), w.transactions[i]? = some x → x.job = .callback r →
    Bound w.tokens r x
  owner : ∀ (i j : ℕ) (x y : Transaction) (id : String), w.transactions[i]? = some x → w.transactions[j]? = some y →
    x.holdsToken = some id → y.holdsToken = some id → i = j

theorem updateToken_map {β : Type} {tokens : List Token} {id : String} {f : Token → Token} (g : Token → β)
    (keeps : ∀ t, g (f t) = g t) : (updateToken tokens id f).map g = tokens.map g := by
  rw [updateToken, List.map_map]
  refine List.map_congr_left fun t _ => ?_
  simp only [Function.comp_apply]
  split
  · exact keeps t
  · rfl

theorem mem_updateToken_other {tokens : List Token} {id : String} {f : Token → Token} {t : Token} (mem : t ∈ tokens)
    (other : t.tokenId ≠ id) : t ∈ updateToken tokens id f :=
  List.mem_map.mpr ⟨t, mem, if_neg other⟩

theorem mem_updateToken {tokens : List Token} {id : String} {f : Token → Token} {t : Token}
    (mem : t ∈ updateToken tokens id f) :
    ∃ before ∈ tokens, t = before ∧ before.tokenId ≠ id ∨ t = f before ∧ before.tokenId = id := by
  obtain ⟨before, listed, rfl⟩ := List.mem_map.mp mem
  split
  · rename_i own
    exact ⟨before, listed, .inr ⟨rfl, own⟩⟩
  · rename_i other
    exact ⟨before, listed, .inl ⟨rfl, other⟩⟩

section
variable {Known : Callback → Prop} {w w' : World} {i : ℕ} {x x' : Transaction}

theorem unowned {id : String} (free : tokenLocked w id = false) (found : w.transactions[i]? = some x) :
    x.holdsToken ≠ some id := by
  intro holds
  rw [tokenLocked, ← Bool.not_eq_true, List.any_eq_true] at free
  exact free ⟨x, List.mem_of_getElem? found, by simp [holds]⟩

theorem locking_put (good : Locking Known w) (found : w.transactions[i]? = some x) (job : x'.job = x.job)
    (bound : ∀ r, x.job = .callback r → Bound w.tokens r x')
    (takes : ∀ id, x'.holdsToken = some id → x.holdsToken = some id ∨ tokenLocked w id = false)
    (transactions : w'.transactions = w.transactions.set i x') (tokens : w'.tokens = w.tokens) : Locking Known w' := by
  refine ⟨by rw [tokens]; exact good.ids, by rw [tokens]; exact good.hashes, ?_, ?_, ?_⟩
  · rw [transactions]
    intro j y r foundY jobY
    rcases set_cases foundY with ⟨-, rfl⟩ | ⟨-, before⟩
    · exact good.known i x r found (job ▸ jobY)
    · exact good.known j y r before jobY
  · rw [transactions, tokens]
    intro j y r foundY jobY
    rcases set_cases foundY with ⟨-, rfl⟩ | ⟨-, before⟩
    · exact bound r (job ▸ jobY)
    · exact good.bound j y r before jobY
  · have other (j : ℕ) (y : Transaction) (id : String) (before : w.transactions[j]? = some y)
        (holds : x'.holdsToken = some id) (holdsY : y.holdsToken = some id) : i = j := by
      rcases takes id holds with held | free
      · exact good.owner i j x y id found before held holdsY
      · exact absurd holdsY (unowned free before)
    rw [transactions]
    intro j k y z id foundY foundZ holdsY holdsZ
    rcases set_cases foundY with ⟨rfl, rfl⟩ | ⟨-, beforeY⟩ <;> rcases set_cases foundZ with ⟨rfl, rfl⟩ | ⟨-, beforeZ⟩
    · rfl
    · exact other k z id beforeZ holdsY holdsZ
    · exact (other j y id beforeY holdsZ holdsY).symm
    · exact good.owner j k y z id beforeY beforeZ holdsY holdsZ

theorem locking_over (good : Locking Known w) (found : w.transactions[i]? = some x)
    (transactions : w'.transactions = w.transactions.set i { x with phase := .over }) (tokens : w'.tokens = w.tokens) :
    Locking Known w' := by
  have free (id : String) : Transaction.holdsToken { x with phase := .over } ≠ some id := by
    simp [Transaction.holdsToken, Phase.isOver]
  exact locking_put good found (show Transaction.job { x with phase := .over } = x.job from rfl)
    (fun _ _ => .inr (.inl rfl)) (fun id holds => absurd holds (free id)) transactions tokens

theorem usable_mono {tokens tokens' : List Token} {r : Callback} {t : Token} (usable : Usable tokens r t)
    (mem : t ∈ tokens') : Usable tokens' r t := { usable with mem }

theorem locking_update (good : Locking Known w) {id : String} {f : Token → Token}
    (free : ∀ (j : ℕ) (y : Transaction), w.transactions[j]? = some y → y.holdsToken ≠ some id)
    (keepsId : ∀ t, (f t).tokenId = t.tokenId) (keepsHash : ∀ t, (f t).publicTokenHash = t.publicTokenHash)
    (transactions : w'.transactions = w.transactions) (tokens : w'.tokens = updateToken w.tokens id f) :
    Locking Known w' := by
  refine ⟨?_, ?_, by rw [transactions]; exact good.known, ?_, by rw [transactions]; exact good.owner⟩
  · rw [tokens, updateToken_map _ keepsId]
    exact good.ids
  · rw [tokens, updateToken_map _ keepsHash]
    exact good.hashes
  · rw [transactions, tokens]
    intro j y r foundY jobY
    rcases good.bound j y r foundY jobY with opened | ended | ⟨t, holds, usable, reached⟩
    · exact .inl opened
    · exact .inr (.inl ended)
    · by_cases ended : y.phase.isOver
      · exact .inr (.inl ended)
      · refine .inr (.inr ⟨t, holds, usable_mono usable (mem_updateToken_other usable.mem fun own => ?_), reached⟩)
        refine free j y foundY ?_
        rw [Transaction.holdsToken, if_neg ended, holds, Option.map_some, own]

theorem locking_issue (good : Locking Known w) {token : Token}
    (newId : ∀ other ∈ w.tokens, other.tokenId ≠ token.tokenId)
    (newHash : ∀ other ∈ w.tokens, other.publicTokenHash ≠ token.publicTokenHash)
    (transactions : w'.transactions = w.transactions) (tokens : w'.tokens = w.tokens ++ [token]) : Locking Known w' := by
  refine ⟨?_, ?_, by rw [transactions]; exact good.known, ?_, by rw [transactions]; exact good.owner⟩
  · rw [tokens, List.map_append]
    refine List.nodup_append.mpr ⟨good.ids, List.nodup_singleton _, fun id old id' new => ?_⟩
    obtain ⟨other, mem, rfl⟩ := List.mem_map.mp old
    rw [List.mem_singleton.mp new]
    exact newId other mem
  · rw [tokens, List.map_append]
    refine List.nodup_append.mpr ⟨good.hashes, List.nodup_singleton _, fun hash old hash' new => ?_⟩
    obtain ⟨other, mem, rfl⟩ := List.mem_map.mp old
    rw [List.mem_singleton.mp new]
    exact newHash other mem
  · rw [transactions, tokens]
    intro j y r foundY jobY
    rcases good.bound j y r foundY jobY with opened | ended | ⟨t, holds, usable, reached⟩
    · exact .inl opened
    · exact .inr (.inl ended)
    · exact .inr (.inr ⟨t, holds, usable_mono usable (List.mem_append_left _ usable.mem), reached⟩)

theorem bound_token (good : Locking Known w) (found : w.transactions[i]? = some x) {r : Callback}
    (job : x.job = .callback r) (opened : x.phase ≠ .opened) (under : x.phase.isOver = false) :
    ∃ t, x.token = some t ∧ Usable w.tokens r t ∧ Reached r t x.phase := by
  rcases good.bound i x r found job with same | ended | bound
  · exact absurd same opened
  · rw [under] at ended
    cases ended
  · exact bound

theorem same_token (good : Locking Known w) {t u : Token} (mem : t ∈ w.tokens) (mem' : u ∈ w.tokens)
    (same : t.publicTokenHash = u.publicTokenHash) : t = u :=
  List.inj_on_of_nodup_map good.hashes mem mem' same

end

structure Tables (w : World) : Prop where
  oneTime : ∀ t ∈ w.tokens, t.expectedUsage = .oneTime →
    w.callbacks.countP (fun row => row.tokenId = t.tokenId) ≤ 1
  requests : (w.callbacks.map (·.collectorRequestId)).Nodup
  evidence : (w.callbacks.map (·.evidenceId)).Nodup
  acquired : ∀ row ∈ w.callbacks, ∃ e ∈ w.ledger.rows.rows, e.evidenceId = row.evidenceId ∧
    e.evidenceType = "CANARY_CALLBACK" ∧ ∃ t ∈ w.tokens, t.tokenId = row.tokenId ∧ e.caseId = t.caseId
  announced : ∀ row ∈ w.callbacks, w.events.countP (fun event => event.callbackId = row.callbackId) = 1

/-- And what keeps it so: each row has its event, and a token for one use without a row is the only one that is
still ACTIVE. -/
structure Kept (w : World) : Prop extends Tables w where
  callbackIds : (w.callbacks.map (·.callbackId)).Nodup
  events : w.events.map (·.callbackId) = w.callbacks.map (·.callbackId)
  active : ∀ t ∈ w.tokens, t.expectedUsage = .oneTime → t.status = .active →
    w.callbacks.countP (fun row => row.tokenId = t.tokenId) = 0

section
variable {w w' : World}

theorem kept_update (kept : Kept w) {id : String} {f : Token → Token} (keepsId : ∀ t, (f t).tokenId = t.tokenId)
    (keepsCase : ∀ t, (f t).caseId = t.caseId) (keepsUsage : ∀ t, (f t).expectedUsage = t.expectedUsage)
    (ends : ∀ t, (f t).status = .active → t.status = .active) (tokens : w'.tokens = updateToken w.tokens id f)
    (callbacks : w'.callbacks = w.callbacks) (events : w'.events = w.events) (ledger : w'.ledger = w.ledger) :
    Kept w' := by
  refine ⟨⟨?_, by rw [callbacks]; exact kept.requests, by rw [callbacks]; exact kept.evidence, ?_,
    by rw [callbacks, events]; exact kept.announced⟩, by rw [callbacks]; exact kept.callbackIds,
    by rw [events, callbacks]; exact kept.events, ?_⟩
  · rw [tokens, callbacks]
    intro t mem usage
    obtain ⟨before, listed, ⟨rfl, -⟩ | ⟨rfl, -⟩⟩ := mem_updateToken mem
    · exact kept.oneTime _ listed usage
    · rw [keepsId]
      exact kept.oneTime before listed (keepsUsage before ▸ usage)
  · rw [tokens, callbacks, ledger]
    intro row mem
    obtain ⟨e, stored, own, kind, t, listed, same, case_⟩ := kept.acquired row mem
    refine ⟨e, stored, own, kind, _, List.mem_map_of_mem listed, ?_, ?_⟩
    · split
      · rw [keepsId, same]
      · exact same
    · split
      · rw [keepsCase, case_]
      · exact case_
  · rw [tokens, callbacks]
    intro t mem usage status
    obtain ⟨before, listed, ⟨rfl, -⟩ | ⟨rfl, -⟩⟩ := mem_updateToken mem
    · exact kept.active _ listed usage status
    · rw [keepsId]
      exact kept.active before listed (keepsUsage before ▸ usage) (ends before status)

theorem kept_issue (kept : Kept w) {token : Token} (newId : ∀ other ∈ w.tokens, other.tokenId ≠ token.tokenId)
    (tokens : w'.tokens = w.tokens ++ [token])
    (callbacks : w'.callbacks = w.callbacks) (events : w'.events = w.events) (ledger : w'.ledger = w.ledger) :
    Kept w' := by
  have none : w.callbacks.countP (fun row => row.tokenId = token.tokenId) = 0 := by
    rw [List.countP_eq_zero]
    intro row mem
    obtain ⟨-, -, -, -, t, listed, same, -⟩ := kept.acquired row mem
    simpa [← same] using newId t listed
  refine ⟨⟨?_, by rw [callbacks]; exact kept.requests, by rw [callbacks]; exact kept.evidence, ?_,
    by rw [callbacks, events]; exact kept.announced⟩, by rw [callbacks]; exact kept.callbackIds,
    by rw [events, callbacks]; exact kept.events, ?_⟩
  · rw [tokens, callbacks]
    intro t mem usage
    rcases List.mem_append.mp mem with old | new
    · exact kept.oneTime t old usage
    · rw [List.mem_singleton.mp new, none]
      exact Nat.zero_le 1
  · rw [tokens, callbacks, ledger]
    intro row mem
    obtain ⟨e, stored, own, kind, t, listed, rest⟩ := kept.acquired row mem
    exact ⟨e, stored, own, kind, t, List.mem_append_left _ listed, rest⟩
  · rw [tokens, callbacks]
    intro t mem usage status
    rcases List.mem_append.mp mem with old | new
    · exact kept.active t old usage status
    · rw [List.mem_singleton.mp new]
      exact none

theorem kept_ledger (kept : Kept w) (tokens : w'.tokens = w.tokens) (callbacks : w'.callbacks = w.callbacks)
    (events : w'.events = w.events) (grows : ∀ e ∈ w.ledger.rows.rows, e ∈ w'.ledger.rows.rows) : Kept w' := by
  refine ⟨⟨by rw [tokens, callbacks]; exact kept.oneTime, by rw [callbacks]; exact kept.requests,
    by rw [callbacks]; exact kept.evidence, ?_, by rw [callbacks, events]; exact kept.announced⟩,
    by rw [callbacks]; exact kept.callbackIds, by rw [events, callbacks]; exact kept.events,
    by rw [tokens, callbacks]; exact kept.active⟩
  rw [callbacks, tokens]
  intro row mem
  obtain ⟨e, stored, rest⟩ := kept.acquired row mem
  exact ⟨e, grows e stored, rest⟩

end

/-! The evidence of the callbacks under way. -/

section
variable (sha256 : Bytes → String) (Known : Callback → Prop)

def Foreign (r : Callback) (e : EvidenceRow) : Prop :=
  ∃ other, Known other ∧ e.sha256 = sha256 other.body ∧ other.publicTokenHash ≠ r.publicTokenHash

/-- What has been committed since a callback computed its sequence is for other tokens, so it inserts a
row of its own. -/
def Evident (w : World) (r : Callback) : Phase → Prop
  | .allocated _ seen => ∀ e ∈ (rowsOf w.ledger canarySource).drop seen, Foreign sha256 Known r e
  | .acquired c evidence => ∃ p, evidence = .inserted p ∧ p.call = c ∧ p.sha256 = sha256 r.body
  | .written c evidence => (∃ p, evidence = .inserted p ∧ p.call = c ∧ p.sha256 = sha256 r.body) ∧
      ∃ id, r.collectorRequestId = some id ∧ ∀ row ∈ w.callbacks, row.collectorRequestId ≠ id ∧ row.callbackId ≠ r.callbackId
  | _ => True

def UnderWay (w : World) : Prop :=
  ∀ (i : ℕ) (x : Transaction) (r : Callback), w.transactions[i]? = some x → x.job = .callback r →
    Evident sha256 Known w r x.phase

end

section
variable {sha256 : Bytes → String} {Known : Callback → Prop} {w w' : World} {i : ℕ} {x x' : Transaction}

theorem underWay_put (good : UnderWay sha256 Known w) (job : x'.job = x.job)
    (evident : ∀ r, x.job = .callback r → Evident sha256 Known w r x'.phase)
    (transactions : w'.transactions = w.transactions.set i x') (ledger : w'.ledger = w.ledger)
    (callbacks : w'.callbacks = w.callbacks) : UnderWay sha256 Known w' := by
  have same (r : Callback) (phase : Phase) : Evident sha256 Known w' r phase = Evident sha256 Known w r phase := by
    unfold Evident
    rw [ledger, callbacks]
  intro j y r foundY jobY
  rw [transactions] at foundY
  rw [same]
  rcases set_cases foundY with ⟨-, rfl⟩ | ⟨-, before⟩
  · exact evident r (job ▸ jobY)
  · exact good j y r before jobY

theorem underWay_frame (good : UnderWay sha256 Known w) (transactions : w'.transactions = w.transactions)
    (ledger : w'.ledger = w.ledger) (callbacks : w'.callbacks = w.callbacks) : UnderWay sha256 Known w' := by
  intro j y r foundY jobY
  rw [transactions] at foundY
  have before := good j y r foundY jobY
  unfold Evident at before ⊢
  rw [ledger, callbacks]
  exact before

theorem underWay_over (good : UnderWay sha256 Known w)
    (transactions : w'.transactions = w.transactions.set i { x with phase := .over }) (ledger : w'.ledger = w.ledger)
    (callbacks : w'.callbacks = w.callbacks) : UnderWay sha256 Known w' :=
  underWay_put good (show Transaction.job { x with phase := .over } = x.job from rfl) (fun _ _ => trivial)
    transactions ledger callbacks

end

structure Answered (w : World) : Prop where
  once : w.answers.Pairwise (·.1 ≠ ·.1)
  ended : ∀ i answer, (i, answer) ∈ w.answers → ∃ x, w.transactions[i]? = some x ∧ x.phase.isOver

section
variable {w w' : World} {i : ℕ} {x x' : Transaction}

theorem answered_put (good : Answered w) (found : w.transactions[i]? = some x) (under : x.phase.isOver = false)
    (transactions : w'.transactions = w.transactions.set i x') (answers : w'.answers = w.answers) : Answered w' := by
  refine ⟨by rw [answers]; exact good.once, ?_⟩
  rw [answers, transactions]
  intro j answer mem
  obtain ⟨y, foundY, ended⟩ := good.ended j answer mem
  refine ⟨y, ?_, ended⟩
  rw [List.getElem?_set_ne]
  · exact foundY
  · rintro rfl
    rw [found] at foundY
    cases foundY
    rw [under] at ended
    cases ended

theorem answered_finish (good : Answered w) (found : w.transactions[i]? = some x) (under : x.phase.isOver = false)
    {answer : Answer} (transactions : w'.transactions = w.transactions.set i { x with phase := .over })
    (answers : w'.answers = w.answers ++ [(i, answer)]) : Answered w' := by
  have bound := (List.getElem?_eq_some_iff.mp found).1
  have mine : w'.transactions[i]? = some { x with phase := .over } := by simp [transactions, bound]
  have other (j : ℕ) (answer' : Answer) (mem : (j, answer') ∈ w.answers) : j ≠ i := by
    rintro rfl
    obtain ⟨y, foundY, ended⟩ := good.ended j answer' mem
    rw [found] at foundY
    cases foundY
    rw [under] at ended
    cases ended
  refine ⟨?_, ?_⟩
  · rw [answers]
    refine List.pairwise_append.mpr ⟨good.once, List.pairwise_singleton _ _, ?_⟩
    rintro ⟨j, answer'⟩ mem new isNew
    rw [List.mem_singleton.mp isNew]
    exact other j answer' mem
  · rw [answers]
    intro j answer' mem
    rcases List.mem_append.mp mem with before | new
    · obtain ⟨y, foundY, ended⟩ := good.ended j answer' before
      refine ⟨y, ?_, ended⟩
      rw [transactions, List.getElem?_set_ne fun same => other j answer' before same.symm]
      exact foundY
    · cases List.mem_singleton.mp new
      exact ⟨_, mine, rfl⟩

end

/-! What one step does to the tables. -/

/-- A callback is committed: its row, its event and its evidence, for a token that is still good. -/
structure Created (w w' : World) (i : ℕ) : Prop where
  row : ∃ row event e t, w'.callbacks = w.callbacks ++ [row] ∧ w'.events = w.events ++ [event] ∧
    w'.ledger.rows.rows = w.ledger.rows.rows ++ [e] ∧ event.callbackId = row.callbackId ∧
    e.evidenceId = row.evidenceId ∧ e.evidenceType = "CANARY_CALLBACK" ∧ e.caseId = t.caseId ∧
    t ∈ w.tokens ∧ row.tokenId = t.tokenId ∧ t.revokedAt = none ∧ t.status ≠ .revoked ∧ t.status ≠ .expired ∧
    row.callbackTime < t.expiresAt
  answered : w'.answers = w.answers ++ [(i, .done)]

structure Completed (w w' : World) (i : ℕ) : Prop where
  callbacks : w'.callbacks = w.callbacks
  events : w'.events = w.events
  answered : w'.answers = w.answers ++ [(i, .done)]

structure Unchanged (w w' : World) : Prop where
  callbacks : w'.callbacks = w.callbacks
  events : w'.events = w.events
  ledger : w'.ledger = w.ledger

theorem unchanged_refl (w : World) : Unchanged w w := ⟨rfl, rfl, rfl⟩

def callOf : Phase → Option Call
  | .allocated c _ | .acquired c _ | .written c _ => some c
  | _ => none

def Sourced (w : World) : Prop :=
  ∀ (i : ℕ) (x : Transaction) (c : Call), w.transactions[i]? = some x → callOf x.phase = some c →
    c.request.sourceId = x.job.source

structure Inv (sha256 : Bytes → String) (Known : Callback → Prop) (w : World) : Prop where
  sequenced : Sequenced w
  locking : Locking Known w
  kept : Kept w
  underWay : UnderWay sha256 Known w
  answered : Answered w
  sourced : Sourced w

section
variable {sha256 : Bytes → String} {Known : Callback → Prop} {w w' : World} {i : ℕ} {x x' : Transaction}

theorem sourced_put (good : Sourced w) (sourced : ∀ c, callOf x'.phase = some c → c.request.sourceId = x'.job.source)
    (transactions : w'.transactions = w.transactions.set i x') : Sourced w' := by
  intro j y c foundY has
  rw [transactions] at foundY
  rcases set_cases foundY with ⟨-, rfl⟩ | ⟨-, before⟩
  · exact sourced c has
  · exact good j y c before has

theorem inv_put (inv : Inv sha256 Known w) (found : w.transactions[i]? = some x) (under : x.phase.isOver = false)
    (job : x'.job = x.job) (sequenced : Sequenced (w.put i x'))
    (bound : ∀ r, x.job = .callback r → Bound w.tokens r x')
    (takes : ∀ id, x'.holdsToken = some id → x.holdsToken = some id ∨ tokenLocked w id = false)
    (evident : ∀ r, x.job = .callback r → Evident sha256 Known w r x'.phase)
    (sourced : ∀ c, callOf x'.phase = some c → c.request.sourceId = x'.job.source) :
    Inv sha256 Known (w.put i x') where
  sequenced := sequenced
  locking := locking_put inv.locking found job bound takes rfl rfl
  kept := kept_ledger inv.kept rfl rfl rfl fun _ mem => mem
  underWay := underWay_put inv.underWay job evident rfl rfl rfl
  answered := answered_put inv.answered found under rfl rfl
  sourced := sourced_put inv.sourced sourced rfl

theorem sourced_over (good : Sourced w) (transactions : w'.transactions = w.transactions.set i { x with phase := .over }) :
    Sourced w' :=
  sourced_put good (show ∀ c, callOf Phase.over = some c → c.request.sourceId = x.job.source from fun _ has => (by cases has))
    transactions

theorem inv_finish (inv : Inv sha256 Known w) (found : w.transactions[i]? = some x) (under : x.phase.isOver = false)
    (answer : Answer) : Inv sha256 Known (w.finish i x answer) where
  sequenced := sequenced_over inv.sequenced found rfl rfl
  locking := locking_over inv.locking found rfl rfl
  kept := kept_ledger inv.kept rfl rfl rfl fun _ mem => mem
  underWay := underWay_over inv.underWay rfl rfl rfl
  answered := answered_finish inv.answered found under rfl rfl
  sourced := sourced_over inv.sourced rfl

theorem inv_update (inv : Inv sha256 Known w) {id : String} {f : Token → Token} (free : tokenLocked w id = false)
    (keepsId : ∀ t, (f t).tokenId = t.tokenId) (keepsHash : ∀ t, (f t).publicTokenHash = t.publicTokenHash)
    (keepsCase : ∀ t, (f t).caseId = t.caseId) (keepsUsage : ∀ t, (f t).expectedUsage = t.expectedUsage)
    (ends : ∀ t, (f t).status = .active → t.status = .active) :
    Inv sha256 Known { w with tokens := updateToken w.tokens id f } where
  sequenced := sequenced_frame inv.sequenced rfl rfl
  locking := locking_update inv.locking (fun _ _ foundY => unowned free foundY) keepsId keepsHash rfl rfl
  kept := kept_update inv.kept keepsId keepsCase keepsUsage ends rfl rfl rfl rfl
  underWay := underWay_frame inv.underWay rfl rfl rfl
  answered := ⟨inv.answered.once, inv.answered.ended⟩
  sourced := inv.sourced

theorem inv_lockToken (inv : Inv sha256 Known w) (found : w.transactions[i]? = some x) {r : Callback}
    (job : x.job = .callback r) (opened : x.phase = .opened) :
    Inv sha256 Known (lockToken w i x r) ∧ Unchanged w (lockToken w i x r) := by
  have under : x.phase.isOver = false := by rw [opened]; rfl
  unfold lockToken
  split
  · exact ⟨inv_finish inv found under _, rfl, rfl, rfl⟩
  rename_i token known
  have mem := List.mem_of_find?_eq_some known
  have hash := List.find?_some known
  rw [decide_eq_true_eq] at hash
  split
  · exact ⟨inv, unchanged_refl w⟩
  rename_i free
  have free := Bool.of_not_eq_true free
  split
  · exact ⟨inv_finish inv found under _, rfl, rfl, rfl⟩
  rename_i unrevoked
  split
  · exact ⟨inv_finish inv found under _, rfl, rfl, rfl⟩
  rename_i time timed
  split
  · have updated := inv_update inv (f := fun t => { t with status := .expired }) free (fun _ => rfl) (fun _ => rfl)
      (fun _ => rfl) (fun _ => rfl) (fun _ ends => (by cases ends))
    exact ⟨inv_finish updated found under _, rfl, rfl, rfl⟩
  · rename_i unexpired
    simp only [Bool.or_eq_true, decide_eq_true_eq, not_or] at unrevoked unexpired
    have usable : Usable w.tokens r token :=
      ⟨mem, hash, ⟨by simpa using unrevoked.1, unrevoked.2⟩, unexpired.2, time, timed, by omega⟩
    have sequenced : Sequenced (w.put i { x with token := some token, phase := .locked }) :=
      sequenced_put inv.sequenced found
        (show Fits w.ledger { x with token := some token, phase := .locked } from trivial)
        (fun _ holds => (by cases holds)) rfl rfl
    refine ⟨inv_put inv found under rfl sequenced (fun r' job' => ?_) (fun id holds => ?_) (fun _ _ => trivial)
      (fun _ has => (by cases has)), rfl, rfl, rfl⟩
    · cases job.symm.trans job'
      exact .inr (.inr ⟨token, rfl, usable, trivial⟩)
    · cases holds
      exact .inr free

theorem inv_goesOn (inv : Inv sha256 Known w) (found : w.transactions[i]? = some x) {phase : Phase}
    (opened : x.phase ≠ .opened) (under : x.phase.isOver = false) (notOver : phase.isOver = false)
    (sequenced : Sequenced (w.put i { x with phase }))
    (reached : ∀ r t, x.job = .callback r → x.token = some t → Usable w.tokens r t → Reached r t x.phase → Reached r t phase)
    (evident : ∀ r, x.job = .callback r → Evident sha256 Known w r phase)
    (sourced : ∀ c, callOf phase = some c → c.request.sourceId = x.job.source) :
    Inv sha256 Known (w.put i { x with phase }) := by
  refine inv_put inv found under rfl sequenced (fun r job => ?_) (fun id holds => ?_) evident sourced
  · obtain ⟨t, token, usable, before⟩ := bound_token inv.locking found job opened under
    exact .inr (.inr ⟨t, token, usable, reached r t job token usable before⟩)
  · left
    rw [Transaction.holdsToken, if_neg (by rw [under]; decide)]
    rwa [Transaction.holdsToken, if_neg (by rw [notOver]; decide)] at holds

theorem inv_checkReplay (inv : Inv sha256 Known w) (found : w.transactions[i]? = some x) {r : Callback} {token : Token}
    (holds : x.token = some token) (locked : x.phase = .locked) :
    Inv sha256 Known (checkReplay w i x r token) ∧ Unchanged w (checkReplay w i x r token) := by
  have under : x.phase.isOver = false := by rw [locked]; rfl
  unfold checkReplay
  split
  · exact ⟨inv_finish inv found under _, rfl, rfl, rfl⟩
  split
  · exact ⟨inv_finish inv found under _, rfl, rfl, rfl⟩
  · rename_i unused
    have sequenced : Sequenced (w.put i { x with phase := .checked }) :=
      sequenced_put inv.sequenced found (show Fits w.ledger { x with phase := .checked } from trivial)
        (fun _ holds => (by cases holds)) rfl rfl
    refine ⟨inv_goesOn inv found (by rw [locked]; exact fun same => (by cases same)) under rfl sequenced
      (fun _ t _ token' _ _ => ?_) (fun _ _ => trivial) (fun _ has => (by cases has)), rfl, rfl, rfl⟩
    cases holds.symm.trans token'
    intro usage used
    exact unused (by simp [usage, used])

theorem inv_allocate (inv : Inv sha256 Known w) (found : w.transactions[i]? = some x) :
    Inv sha256 Known (allocate w i x) ∧ Unchanged w (allocate w i x) := by
  have sequenced := sequenced_allocate inv.sequenced found
  unfold allocate at sequenced ⊢
  dsimp only at sequenced ⊢
  split at sequenced
  · rename_i r token job holds checked
    split at sequenced
    · rename_i time timed
      have under : x.phase.isOver = false := by rw [checked]; rfl
      have source : x.job.source = canarySource := by rw [job]; rfl
      refine ⟨inv_goesOn inv found (by rw [checked]; exact fun same => (by cases same)) under rfl sequenced
        (fun r' t job' token' _ before => ?_) (fun r' _ => ?_) (fun c has => ?_), rfl, rfl, rfl⟩
      · cases job.symm.trans job'
        cases holds.symm.trans token'
        rw [checked] at before
        exact ⟨before, time, _, timed, rfl⟩
      · intro e mem
        rw [source, List.drop_length] at mem
        cases mem
      · cases has
        exact source.symm
    · exact ⟨inv, unchanged_refl w⟩
  · rename_i r job opened
    have under : x.phase.isOver = false := by rw [opened]; rfl
    have source : x.job.source = reportSource := by rw [job]; rfl
    refine ⟨inv_put inv found under rfl sequenced (fun r' job' => ?_) (fun id holds => .inl ?_) (fun r' job' => ?_)
      (fun c has => ?_), rfl, rfl, rfl⟩
    · rw [job] at job'
      cases job'
    · rwa [Transaction.holdsToken, opened]
    · rw [job] at job'
      cases job'
    · cases has
      exact source.symm
  · exact ⟨inv, unchanged_refl w⟩

theorem contents_singleton (bytes : Bytes) : contents [bytes] = bytes := by
  by_cases empty : bytes = []
  · simp [contents, empty]
  · simp [contents, empty]

theorem check_eq_some {d : Domain} {l : Ledger} {p : Prepared} {record : EvidenceRecord}
    (passed : check d l p = .ok (some record)) :
    ∃ row ∈ rowsOf l p.call.request.sourceId, row.sourceSequence = p.call.request.sourceSequence ∧ sameEvidence row p := by
  rw [check, RowLocks.bind_eq_ok] at passed
  obtain ⟨-, -, passed⟩ := passed
  split at passed
  · rename_i row known
    have at_ := List.find?_some known
    rw [decide_eq_true_eq] at at_
    simp only [RowLocks.bind_eq_ok, RowLocks.require_eq_ok] at passed
    obtain ⟨-, same, -⟩ := passed
    exact ⟨row, List.mem_of_find?_eq_some known, at_, same⟩
  · simp only [RowLocks.bind_eq_ok] at passed
    obtain ⟨-, -, passed⟩ := passed
    cases passed

def Told (sha256 : Bytes → String) (Known : Callback → Prop) : Prop :=
  ∀ r other, Known r → Known other → sha256 r.body = sha256 other.body → r.publicTokenHash = other.publicTokenHash

theorem inv_acquire (inv : Inv sha256 Known w) (told : Told sha256 Known) (overrides : List (String × ℕ))
    (found : w.transactions[i]? = some x) {c : Call} {seen : ℕ} (allocated : x.phase = .allocated c seen) :
    Inv sha256 Known (acquire sha256 overrides w i x c) ∧ Unchanged w (acquire sha256 overrides w i x c) := by
  have under : x.phase.isOver = false := by rw [allocated]; rfl
  have source := inv.sourced i x c found (by rw [allocated]; rfl)
  have computed : Computed w.ledger c seen := by
    have fits := inv.sequenced.fits i x found
    rw [Fits, allocated] at fits
    exact fits
  have calls (r : Callback) (job : x.job = .callback r) : c.stream = [r.body] := by
    obtain ⟨t, -, -, reached⟩ := bound_token inv.locking found job (by rw [allocated]; exact fun same => (by cases same)) under
    rw [allocated] at reached
    obtain ⟨-, time, sequence, -, rfl⟩ := reached
    rfl
  have goesOn {evidence : Acquired} (sequenced : Sequenced (w.put i { x with phase := .acquired c evidence }))
      (evident : ∀ r, x.job = .callback r → Evident sha256 Known w r (.acquired c evidence)) :
      Inv sha256 Known (w.put i { x with phase := .acquired c evidence }) := by
    refine inv_goesOn inv found (by rw [allocated]; exact fun same => (by cases same)) under rfl sequenced
      (fun r t _ _ _ before => ?_) evident (fun c' has => ?_)
    · rw [allocated] at before
      exact before
    · cases has
      exact source
  have sequenced := sequenced_acquire sha256 overrides inv.sequenced found allocated
  revert sequenced
  unfold acquire
  split
  · exact fun _ => ⟨inv, unchanged_refl w⟩
  split
  · exact fun _ => ⟨inv_finish inv found under _, rfl, rfl, rfl⟩
  rename_i p prepared
  obtain ⟨rfl, -, -, digest, -⟩ := prepare_eq_ok prepared
  split <;> intro sequenced
  · exact ⟨inv_finish inv found under _, rfl, rfl, rfl⟩
  · rename_i record passed
    refine ⟨goesOn sequenced fun r job => ?_, rfl, rfl, rfl⟩
    -- the row with this sequence is for another token, so it has another digest
    obtain ⟨row, mem, at_, same⟩ := check_eq_some passed
    have later : row ∈ (rowsOf w.ledger p.call.request.sourceId).drop seen := by
      rw [← List.take_append_drop seen (rowsOf w.ledger p.call.request.sourceId)] at mem
      rcases List.mem_append.mp mem with before | after
      · have below := lt_nextSequence before
        rw [← computed.next, at_] at below
        exact absurd below (lt_irrefl _)
      · exact after
    have own : p.call.request.sourceId = canarySource := by rw [source, job]; rfl
    have evident := inv.underWay i x r found job
    rw [allocated] at evident
    rw [own] at later
    obtain ⟨other, known, hashed, apart⟩ := evident row later
    simp only [sameEvidence, Bool.and_eq_true, decide_eq_true_eq] at same
    rw [digest, calls r job, contents_singleton, hashed] at same
    exact absurd (told other r known (inv.locking.known i x r found job) same.1.2) apart
  · refine ⟨goesOn sequenced fun r job => ⟨p, rfl, rfl, ?_⟩, rfl, rfl, rfl⟩
    rw [digest, calls r job, contents_singleton]

theorem inv_write (inv : Inv sha256 Known w) (found : w.transactions[i]? = some x) {c : Call} {evidence : Acquired}
    (acquired : x.phase = .acquired c evidence) :
    Inv sha256 Known (write w i x c evidence) ∧ Unchanged w (write w i x c evidence) := by
  have under : x.phase.isOver = false := by rw [acquired]; rfl
  have source := inv.sourced i x c found (by rw [acquired]; rfl)
  have goesOn (sequenced : Sequenced (w.put i { x with phase := .written c evidence }))
      (evident : ∀ r, x.job = .callback r → Evident sha256 Known w r (.written c evidence)) :
      Inv sha256 Known (w.put i { x with phase := .written c evidence }) := by
    refine inv_goesOn inv found (by rw [acquired]; exact fun same => (by cases same)) under rfl sequenced
      (fun r t _ _ _ before => ?_) evident (fun c' has => ?_)
    · rw [acquired] at before
      exact before
    · cases has
      exact source
  have sequenced := sequenced_write inv.sequenced found acquired
  revert sequenced
  unfold write
  split
  · rename_i r job
    intro sequenced
    refine ⟨goesOn sequenced fun r' job' => ?_, rfl, rfl, rfl⟩
    rw [job] at job'
    cases job'
  · rename_i r job
    split
    · exact fun _ => ⟨inv_finish inv found under _, rfl, rfl, rfl⟩
    · rename_i id requested
      split
      · exact fun _ => ⟨inv_finish inv found under _, rfl, rfl, rfl⟩
      · rename_i fresh
        intro sequenced
        refine ⟨goesOn sequenced fun r' job' => ?_, rfl, rfl, rfl⟩
        cases job.symm.trans job'
        have evident := inv.underWay i x r found job
        rw [acquired] at evident
        refine ⟨evident, id, requested, fun row mem => ⟨fun same => fresh ?_, fun same => fresh ?_⟩⟩
        · exact List.any_eq_true.mpr ⟨row, mem, by simp [same]⟩
        · exact List.any_eq_true.mpr ⟨row, mem, by simp [same]⟩

theorem announced_of_events {w : World} (ids : (w.callbacks.map (·.callbackId)).Nodup)
    (events : w.events.map (·.callbackId) = w.callbacks.map (·.callbackId)) :
    ∀ row ∈ w.callbacks, w.events.countP (fun event => event.callbackId = row.callbackId) = 1 := by
  intro row mem
  have once : (w.events.map (·.callbackId)).count row.callbackId = 1 := by
    rw [events]
    exact List.count_eq_one_of_mem ids (List.mem_map_of_mem mem)
  rw [List.count, List.countP_map] at once
  rw [← once]
  refine List.countP_congr fun event _ => ?_
  simp

theorem kept_commit (kept : Kept w) {r : Callback} {t : Token} (row : CallbackRow) (event : CallbackEvent) {e : EvidenceRow}
    (usable : Usable w.tokens r t) (unused : Unused t) (ids : (w.tokens.map (·.tokenId)).Nodup)
    (own : row.tokenId = t.tokenId) (announced : event.callbackId = row.callbackId)
    (fresh : ∀ other ∈ w.callbacks, other.collectorRequestId ≠ row.collectorRequestId ∧ other.callbackId ≠ row.callbackId)
    (newEvidence : e.evidenceId ∉ w.ledger.rows.rows.map EvidenceRow.evidenceId) (linked : e.evidenceId = row.evidenceId)
    (kind : e.evidenceType = "CANARY_CALLBACK") (case_ : e.caseId = t.caseId)
    (tokens : w'.tokens = updateToken w.tokens t.tokenId (usedToken r))
    (callbacks : w'.callbacks = w.callbacks ++ [row]) (events : w'.events = w.events ++ [event])
    (ledger : w'.ledger.rows.rows = w.ledger.rows.rows ++ [e]) : Kept w' := by
  have only {before : Token} (mem : before ∈ w.tokens) (same : before.tokenId = t.tokenId) : before = t :=
    List.inj_on_of_nodup_map ids mem usable.mem same
  have active (usage : t.expectedUsage = .oneTime) : t.status = .active := by
    have unused := unused usage
    have unrevoked := usable.unrevoked.2
    have unexpired := usable.unexpired
    cases status : t.status <;> simp_all
  have counted (id : String) : w'.callbacks.countP (fun row => row.tokenId = id) =
      w.callbacks.countP (fun row => row.tokenId = id) + if t.tokenId = id then 1 else 0 := by
    rw [callbacks, List.countP_append, List.countP_singleton, own]
    simp
  have callbackIds : (w'.callbacks.map (·.callbackId)).Nodup := by
    rw [callbacks, List.map_append]
    refine List.nodup_append.mpr ⟨kept.callbackIds, List.nodup_singleton _, fun id old id' new => ?_⟩
    obtain ⟨other, mem, rfl⟩ := List.mem_map.mp old
    rw [List.mem_singleton.mp new]
    exact (fresh other mem).2
  have paired : w'.events.map (·.callbackId) = w'.callbacks.map (·.callbackId) := by
    rw [events, callbacks, List.map_append, List.map_append, kept.events]
    simp [announced]
  refine ⟨⟨?_, ?_, ?_, ?_, announced_of_events callbackIds paired⟩, callbackIds, paired, ?_⟩
  · rw [tokens]
    intro t' mem usage
    rw [counted]
    obtain ⟨before, listed, ⟨rfl, other⟩ | ⟨rfl, same⟩⟩ := mem_updateToken mem
    · rw [if_neg (Ne.symm other)]
      exact kept.oneTime _ listed usage
    · cases only listed same
      have nothing := kept.active t listed usage (active usage)
      show w.callbacks.countP (fun row => row.tokenId = t.tokenId) + (if t.tokenId = t.tokenId then 1 else 0) ≤ 1
      rw [nothing, if_pos rfl]
  · rw [callbacks, List.map_append]
    refine List.nodup_append.mpr ⟨kept.requests, List.nodup_singleton _, fun id old id' new => ?_⟩
    obtain ⟨other, mem, rfl⟩ := List.mem_map.mp old
    rw [List.mem_singleton.mp new]
    exact (fresh other mem).1
  · rw [callbacks, List.map_append]
    refine List.nodup_append.mpr ⟨kept.evidence, List.nodup_singleton _, fun id old id' new => ?_⟩
    obtain ⟨other, mem, rfl⟩ := List.mem_map.mp old
    have isNew : id' = row.evidenceId := List.mem_singleton.mp new
    rw [isNew, ← linked]
    intro same
    obtain ⟨e', stored, linked', -⟩ := kept.acquired other mem
    exact newEvidence (same ▸ linked' ▸ List.mem_map_of_mem stored)
  · rw [callbacks, ledger, tokens]
    intro other mem
    rcases List.mem_append.mp mem with old | new
    · obtain ⟨e', stored, linked', kind', t', listed, same, case'⟩ := kept.acquired other old
      refine ⟨e', List.mem_append_left _ stored, linked', kind', _, List.mem_map_of_mem listed, ?_, ?_⟩
      · split
        · exact same
        · exact same
      · split
        · exact case'
        · exact case'
    · rw [List.mem_singleton.mp new]
      refine ⟨e, List.mem_append_right _ (List.mem_singleton_self e), linked, kind, usedToken r t,
        List.mem_map.mpr ⟨t, usable.mem, if_pos rfl⟩, own.symm, case_⟩
  · rw [tokens]
    intro t' mem usage status
    rw [counted]
    obtain ⟨before, listed, ⟨rfl, other⟩ | ⟨rfl, same⟩⟩ := mem_updateToken mem
    · rw [if_neg (Ne.symm other)]
      exact kept.active _ listed usage status
    · have usage' : before.expectedUsage = .oneTime := usage
      simp [usedToken, usage'] at status

theorem underWay_commit (inv : Inv sha256 Known w) (found : w.transactions[i]? = some x) (news : List EvidenceRow)
    (grown : rowsOf w'.ledger canarySource = rowsOf w.ledger canarySource ++ news)
    (foreign : ∀ (j : ℕ) (y : Transaction) (r : Callback), j ≠ i → w.transactions[j]? = some y → y.job = .callback r →
      y.phase ≠ .opened → y.phase.isOver = false → ∀ e ∈ news, Foreign sha256 Known r e)
    (callbacks : w'.callbacks = w.callbacks ∨ x.holdsSource = some canarySource)
    (transactions : w'.transactions = w.transactions.set i { x with phase := .over }) : UnderWay sha256 Known w' := by
  intro j y r foundY jobY
  rw [transactions] at foundY
  rcases set_cases foundY with ⟨-, rfl⟩ | ⟨other, before⟩
  · trivial
  have evident := inv.underWay j y r before jobY
  have source := inv.sourced j y
  rw [jobY] at source
  cases phase : y.phase with
  | allocated c seen =>
    have bound : seen ≤ (rowsOf w.ledger canarySource).length := by
      have fits := inv.sequenced.fits j y before
      rw [Fits, phase] at fits
      have own : c.request.sourceId = canarySource := source c before (by rw [phase]; rfl)
      have counted := fits.bound
      rwa [own] at counted
    rw [phase] at evident
    intro e mem
    rw [grown, List.drop_append_of_le_length bound] at mem
    rcases List.mem_append.mp mem with old | new
    · exact evident e old
    · exact foreign j y r other before jobY (by rw [phase]; exact fun same => (by cases same)) (by rw [phase]; rfl) e new
  | acquired c evidence =>
    rw [phase] at evident
    exact evident
  | written c evidence =>
    rw [phase] at evident
    rcases callbacks with same | holds
    · refine ⟨evident.1, ?_⟩
      rw [same]
      exact evident.2
    · have own := source c before (by rw [phase]; rfl)
      have holdsY : y.holdsSource = some canarySource := by
        rw [Transaction.holdsSource, phase]
        exact congrArg some own
      exact absurd (inv.sequenced.exclusive j i y x _ before found holdsY holds) other
  | _ => trivial

theorem inv_commit_callback (inv : Inv sha256 Known w) (found : w.transactions[i]? = some x) {r : Callback}
    (job : x.job = .callback r) {c : Call} {evidence : Acquired} (written : x.phase = .written c evidence)
    (location : Location) :
    Inv sha256 Known (commit w i x c evidence location) ∧
      (Unchanged w (commit w i x c evidence location) ∨ Created w (commit w i x c evidence location) i) := by
  have under : x.phase.isOver = false := by rw [written]; rfl
  obtain ⟨t, token, usable, reached⟩ :=
    bound_token inv.locking found job (by rw [written]; exact fun same => (by cases same)) under
  rw [written] at reached
  obtain ⟨unused, time, sequence, timed, call⟩ := reached
  have evident := inv.underWay i x r found job
  rw [written] at evident
  obtain ⟨⟨p, rfl, own, digest⟩, id, requested, fresh⟩ := evident
  unfold commit
  cases stored : Acquired.store w.ledger location (.inserted p) with
  | none => exact ⟨inv_finish inv found under _, .inl ⟨rfl, rfl, rfl⟩⟩
  | some ledger =>
    simp only [job, token, timed, requested]
    obtain ⟨newEvidence, grown, -, -⟩ := insertAll_eq_some stored
    have source : (newRow p location).sourceId = canarySource := by rw [newRow_sourceId, own, call]; rfl
    have holds : x.holdsSource = some canarySource := by
      rw [Transaction.holdsSource, written, call]
      rfl
    have holdsToken : x.holdsToken = some t.tokenId := by
      rw [Transaction.holdsToken, if_neg (by rw [under]; decide), token, Option.map_some]
    have released : Locking Known (w.finish i x .done) := locking_over inv.locking found rfl rfl
    refine ⟨⟨?_, ?_, ?_, ?_, ?_, ?_⟩, .inr ⟨⟨callbackRow t time id c (.inserted p) r, callbackEvent t c r, newRow p location, t,
      rfl, rfl, grown, rfl, ?_, ?_, ?_, usable.mem, rfl, usable.unrevoked.1, usable.unrevoked.2, usable.unexpired, ?_⟩, rfl⟩⟩
    · exact sequenced_commit inv.sequenced found written stored rfl
    · refine locking_update released (f := usedToken r) (fun j y foundY holdsY => ?_) (fun _ => rfl) (fun _ => rfl)
        rfl rfl
      rcases set_cases foundY with ⟨-, rfl⟩ | ⟨other, before⟩
      · simp [Transaction.holdsToken, Phase.isOver] at holdsY
      · exact other (inv.locking.owner j i y x _ before found holdsY holdsToken)
    · exact kept_commit inv.kept (callbackRow t time id c (.inserted p) r) (callbackEvent t c r) usable unused
        inv.locking.ids rfl rfl fresh newEvidence
        (by rw [newRow_evidenceId, own]; rfl) (by rw [call] at own; simp [newRow, own, callbackCall])
        (by rw [call] at own; simp [newRow, own, callbackCall]) rfl rfl rfl grown
    · refine underWay_commit inv found [newRow p location] ?_ (fun j y r' other before jobY opened underY e mem => ?_)
        (.inr holds) rfl
      · rw [EvidenceLedger.rowsOf_append grown, if_pos source]
      · rw [List.mem_singleton.mp mem]
        refine ⟨r, inv.locking.known i x r found job, digest, fun same => other ?_⟩
        -- one token for both, and its row has one owner
        obtain ⟨t', token', usable', -⟩ := bound_token inv.locking before jobY opened underY
        have one : t' = t := same_token inv.locking usable'.mem usable.mem
          (usable'.hash.trans (same.symm.trans usable.hash.symm))
        refine inv.locking.owner j i y x t.tokenId before found ?_ holdsToken
        rw [Transaction.holdsToken, if_neg (by rw [underY]; decide), token', Option.map_some, one]
    · exact answered_finish inv.answered found under rfl rfl
    · exact sourced_over inv.sourced rfl
    · rw [newRow_evidenceId, own]
      rfl
    · rw [call] at own
      simp [newRow, own, callbackCall]
    · rw [call] at own
      simp [newRow, own, callbackCall]
    · obtain ⟨time', timed', early⟩ := usable.early
      rw [timed] at timed'
      cases timed'
      exact early

theorem inv_commit_completion (inv : Inv sha256 Known w) (found : w.transactions[i]? = some x) {r : Completion}
    (job : x.job = .completion r) {c : Call} {evidence : Acquired} (written : x.phase = .written c evidence)
    (location : Location) :
    Inv sha256 Known (commit w i x c evidence location) ∧
      (Unchanged w (commit w i x c evidence location) ∨ Completed w (commit w i x c evidence location) i) := by
  have under : x.phase.isOver = false := by rw [written]; rfl
  have behind : Behind w.ledger c evidence := by
    have fits := inv.sequenced.fits i x found
    rw [Fits, written] at fits
    exact fits
  have source : c.request.sourceId = reportSource := by
    rw [inv.sourced i x c found (by rw [written]; rfl), job]
    rfl
  unfold commit
  cases stored : evidence.store w.ledger location with
  | none => exact ⟨inv_finish inv found under _, .inl ⟨rfl, rfl, rfl⟩⟩
  | some ledger =>
    simp only [job]
    have grown : rowsOf ledger canarySource = rowsOf w.ledger canarySource ++ [] ∧
        ∀ e ∈ w.ledger.rows.rows, e ∈ ledger.rows.rows := by
      obtain rfl | ⟨p, rfl, rfl, grown⟩ := store_eq_some behind stored
      · exact ⟨(List.append_nil _).symm, fun _ mem => mem⟩
      · refine ⟨?_, fun e mem => ?_⟩
        · rw [EvidenceLedger.rowsOf_append grown, if_neg]
          rw [newRow_sourceId, source]
          decide
        · rw [grown]
          exact List.mem_append_left _ mem
    refine ⟨⟨?_, ?_, ?_, ?_, ?_, ?_⟩, .inr ⟨rfl, rfl, rfl⟩⟩
    · exact sequenced_commit inv.sequenced found written stored rfl
    · exact locking_over inv.locking found rfl rfl
    · exact kept_ledger inv.kept rfl rfl rfl grown.2
    · exact underWay_commit inv found [] grown.1 (fun _ _ _ _ _ _ _ _ _ mem => (by cases mem)) (.inl rfl) rfl
    · exact answered_finish inv.answered found under rfl rfl
    · exact sourced_over inv.sourced rfl

def Effect (w w' : World) (a : Action) : Prop :=
  Unchanged w w' ∨ ∃ i location, a = .commit i location ∧ (Created w w' i ∨ Completed w w' i)

theorem inv_advance (inv : Inv sha256 Known w) (told : Told sha256 Known) (overrides : List (String × ℕ))
    (found : w.transactions[i]? = some x) {a : Action} (own : a.transaction? = some i) :
    Inv sha256 Known (advance sha256 overrides w i x a) ∧ Effect w (advance sha256 overrides w i x a) a := by
  have unchanged {after : World} (both : Inv sha256 Known after ∧ Unchanged w after) :
      Inv sha256 Known after ∧ Effect w after a := ⟨both.1, .inl both.2⟩
  cases a with
  | lockToken =>
    refine unchanged ?_
    simp only [advance]
    split
    · exact inv_lockToken inv found ‹_› ‹_›
    · exact ⟨inv, unchanged_refl w⟩
  | checkReplay =>
    refine unchanged ?_
    simp only [advance]
    split
    · exact inv_checkReplay inv found ‹_› ‹_›
    · exact ⟨inv, unchanged_refl w⟩
  | allocate => exact unchanged (inv_allocate inv found)
  | acquire =>
    refine unchanged ?_
    simp only [advance]
    split
    · exact inv_acquire inv told overrides found ‹_›
    · exact ⟨inv, unchanged_refl w⟩
  | write =>
    refine unchanged ?_
    simp only [advance]
    split
    · exact inv_write inv found ‹_›
    · exact ⟨inv, unchanged_refl w⟩
  | commit j location =>
    cases own
    simp only [advance]
    split
    · rename_i c evidence written
      cases job : x.job with
      | callback r =>
        obtain ⟨after, same | created⟩ := inv_commit_callback inv found job written location
        · exact ⟨after, .inl same⟩
        · exact ⟨after, .inr ⟨i, location, rfl, .inl created⟩⟩
      | completion r =>
        obtain ⟨after, same | completed⟩ := inv_commit_completion inv found job written location
        · exact ⟨after, .inl same⟩
        · exact ⟨after, .inr ⟨i, location, rfl, .inr completed⟩⟩
    · exact ⟨inv, .inl (unchanged_refl w)⟩
  | fail =>
    refine unchanged ?_
    simp only [advance]
    split
    · exact ⟨inv, unchanged_refl w⟩
    · exact ⟨inv_finish inv found (Bool.of_not_eq_true ‹_›) _, rfl, rfl, rfl⟩
  | _ => cases own

theorem inv_issueToken (inv : Inv sha256 Known w) (token : Token) :
    Inv sha256 Known (issueToken w token) ∧ Unchanged w (issueToken w token) := by
  unfold issueToken
  split
  · exact ⟨inv, unchanged_refl w⟩
  · rename_i new
    let issued : Token := { token with revokedAt := none, status := .active, classificationStatus := none }
    have apart : ∀ other ∈ w.tokens, other.tokenId ≠ issued.tokenId ∧ other.publicTokenHash ≠ issued.publicTokenHash := by
      intro other mem
      constructor
      · exact fun same => new (List.any_eq_true.mpr ⟨other, mem, by simp [same, issued]⟩)
      · exact fun same => new (List.any_eq_true.mpr ⟨other, mem, by simp [same, issued]⟩)
    exact ⟨⟨sequenced_frame inv.sequenced rfl rfl,
      locking_issue inv.locking (fun other mem => (apart other mem).1)
        (fun other mem => (apart other mem).2) rfl rfl,
      kept_issue inv.kept (fun other mem => (apart other mem).1) rfl rfl rfl rfl,
      underWay_frame inv.underWay rfl rfl rfl, ⟨inv.answered.once, inv.answered.ended⟩, inv.sourced⟩, rfl, rfl, rfl⟩

theorem inv_revokeToken (inv : Inv sha256 Known w) (caseId tokenId : String) (now : Int) :
    Inv sha256 Known (revokeToken w caseId tokenId now) ∧ Unchanged w (revokeToken w caseId tokenId now) := by
  unfold revokeToken
  split
  · exact ⟨inv, unchanged_refl w⟩
  · refine ⟨inv_update inv (Bool.of_not_eq_true ‹_›) (fun t => ?_) (fun t => ?_) (fun t => ?_) (fun t => ?_)
      (fun t active => ?_), rfl, rfl, rfl⟩
    · split <;> rfl
    · split <;> rfl
    · split <;> rfl
    · split <;> rfl
    · split at active
      · cases active
      · exact active

theorem inv_request (inv : Inv sha256 Known w) {job : Job} (known : ∀ r, job = .callback r → Known r) :
    Inv sha256 Known { w with transactions := w.transactions ++ [⟨job, none, .opened⟩] } := by
  refine ⟨sequenced_step sha256 [] inv.sequenced (.request job), ⟨inv.locking.ids, inv.locking.hashes, ?_, ?_, ?_⟩,
    kept_ledger inv.kept rfl rfl rfl fun _ mem => mem, ?_, ⟨inv.answered.once, ?_⟩, ?_⟩
  · intro j y r foundY jobY
    rcases concat_cases foundY with before | ⟨-, rfl⟩
    · exact inv.locking.known j y r before jobY
    · exact known r jobY
  · intro j y r foundY jobY
    rcases concat_cases foundY with before | ⟨-, rfl⟩
    · exact inv.locking.bound j y r before jobY
    · exact .inl rfl
  · intro j k y z id foundY foundZ holdsY holdsZ
    rcases concat_cases foundY with beforeY | ⟨-, rfl⟩
    · rcases concat_cases foundZ with beforeZ | ⟨-, rfl⟩
      · exact inv.locking.owner j k y z id beforeY beforeZ holdsY holdsZ
      · cases holdsZ
    · cases holdsY
  · intro j y r foundY jobY
    rcases concat_cases foundY with before | ⟨-, rfl⟩
    · exact inv.underWay j y r before jobY
    · trivial
  · intro j answer mem
    obtain ⟨y, before, ended⟩ := inv.answered.ended j answer mem
    exact ⟨y, concat_old before, ended⟩
  · intro j y c foundY has
    rcases concat_cases foundY with before | ⟨-, rfl⟩
    · exact inv.sourced j y c before has
    · cases has

theorem step_eq_advance (overrides : List (String × ℕ)) {a : Action} (own : a.transaction? = some i)
    (found : w.transactions[i]? = some x) : step sha256 overrides w a = advance sha256 overrides w i x a := by
  cases a with
  | lockToken | checkReplay | allocate | acquire | write | commit | fail =>
    cases own
    simp only [step, Action.transaction?, found, Option.elim]
  | _ => cases own

theorem step_eq_self (overrides : List (String × ℕ)) {a : Action} (own : a.transaction? = some i)
    (unknown : w.transactions[i]? = none) : step sha256 overrides w a = w := by
  cases a with
  | lockToken | checkReplay | allocate | acquire | write | commit | fail =>
    cases own
    simp only [step, Action.transaction?, unknown, Option.elim]
  | _ => cases own

theorem inv_step (inv : Inv sha256 Known w) (told : Told sha256 Known) (overrides : List (String × ℕ)) {a : Action}
    (known : ∀ r, a = .request (.callback r) → Known r) :
    Inv sha256 Known (step sha256 overrides w a) ∧ Effect w (step sha256 overrides w a) a := by
  cases own : a.transaction? with
  | some i =>
    cases found : w.transactions[i]? with
    | some x =>
      rw [step_eq_advance overrides own found]
      exact inv_advance inv told overrides found own
    | none =>
      rw [step_eq_self overrides own found]
      exact ⟨inv, .inl (unchanged_refl w)⟩
  | none =>
    cases a with
    | issueToken token =>
      obtain ⟨after, same⟩ := inv_issueToken inv token
      exact ⟨after, .inl same⟩
    | revokeToken caseId tokenId now =>
      obtain ⟨after, same⟩ := inv_revokeToken inv caseId tokenId now
      exact ⟨after, .inl same⟩
    | surroundings domain =>
      exact ⟨⟨sequenced_frame inv.sequenced rfl rfl,
        ⟨inv.locking.ids, inv.locking.hashes, inv.locking.known, inv.locking.bound, inv.locking.owner⟩,
        kept_ledger inv.kept rfl rfl rfl fun _ mem => mem, underWay_frame inv.underWay rfl rfl rfl,
        ⟨inv.answered.once, inv.answered.ended⟩, inv.sourced⟩, .inl ⟨rfl, rfl, rfl⟩⟩
    | request job =>
      exact ⟨inv_request inv fun r same => known r (congrArg Action.request same), .inl ⟨rfl, rfl, rfl⟩⟩
    | _ => cases own

end

structure Opening (w : World) : Prop where
  tokens : w.tokens = []
  callbacks : w.callbacks = []
  events : w.events = []
  transactions : w.transactions = []
  answers : w.answers = []

theorem inv_opening {sha256 : Bytes → String} {Known : Callback → Prop} {w : World} (opening : Opening w) :
    Inv sha256 Known w := by
  obtain ⟨tokens, callbacks, events, transactions, answers⟩ := opening
  have nobody {i : ℕ} {x : Transaction} : w.transactions[i]? ≠ some x := by
    rw [transactions]
    exact fun same => (by cases same)
  refine ⟨⟨fun _ _ found => absurd found nobody, fun _ _ _ _ _ found => absurd found nobody⟩,
    ⟨by rw [tokens]; exact List.nodup_nil, by rw [tokens]; exact List.nodup_nil, fun _ _ _ found => absurd found nobody,
      fun _ _ _ found => absurd found nobody, fun _ _ _ _ _ found => absurd found nobody⟩,
    ⟨⟨?_, ?_, ?_, ?_, ?_⟩, ?_, ?_, ?_⟩, fun _ _ _ found => absurd found nobody, ⟨?_, ?_⟩,
    fun _ _ _ found => absurd found nobody⟩
  · rw [tokens]
    exact fun _ mem => (by cases mem)
  · rw [callbacks]
    exact List.nodup_nil
  · rw [callbacks]
    exact List.nodup_nil
  · rw [callbacks]
    exact fun _ mem => (by cases mem)
  · rw [callbacks]
    exact fun _ mem => (by cases mem)
  · rw [callbacks]
    exact List.nodup_nil
  · rw [callbacks, events]
    rfl
  · rw [tokens]
    exact fun _ mem => (by cases mem)
  · rw [answers]
    exact List.Pairwise.nil
  · rw [answers]
    exact fun _ _ mem => (by cases mem)

section
variable {sha256 : Bytes → String} {overrides : List (String × ℕ)} {w : World} {actions : List Action}

def Requested (actions : List Action) (r : Callback) : Prop := .request (.callback r) ∈ actions

theorem inv_run (opening : Opening w) (told : Told sha256 (Requested actions)) :
    Throughout (step sha256 overrides) (Inv sha256 (Requested actions)) w actions := by
  refine throughout_of_along (I := Inv sha256 (Requested actions))
    (fun _ _ inv known => (inv_step inv told overrides known).1) (fun _ inv => inv) (inv_opening opening)
    (along_of_forall fun _ a mem => ?_)
  rintro r rfl
  exact mem

/-- In every order of the statements the tables keep their promises and a request is answered once. A
step leaves the callbacks, their events and the evidence as they are, unless it commits a request, which is
answered with success then; a callback is created for a token that is good at that moment, with
its evidence and its event. -/
theorem canary_tokens_kept (opening : Opening w) (told : Told sha256 (Requested actions)) :
    Throughout (step sha256 overrides) (fun w => Tables w ∧ w.answers.Pairwise (·.1 ≠ ·.1)) w actions ∧
      ∀ front a, front ++ [a] <+: actions →
        Effect (run (step sha256 overrides) w front) (run (step sha256 overrides) w (front ++ [a])) a := by
  have invs : Throughout (step sha256 overrides) (Inv sha256 (Requested actions)) w actions := inv_run opening told
  rw [throughout_iff_front] at invs ⊢
  refine ⟨fun front reached => ⟨(invs front reached).kept.toTables, (invs front reached).answered.once⟩, ?_⟩
  intro front a reached
  rw [run_append]
  refine (inv_step (invs front ((List.prefix_append front [a]).trans reached)) told overrides ?_).2
  rintro r rfl
  exact reached.subset (List.mem_append_right _ (List.mem_singleton_self _))

end

/-! Two tokens for one use, and a callback for each. -/

def sampleBody (requestId token signature : String) : Bytes :=
  ("\x7b\"payload\":\x7b\"callback_time\":\"2024-05-01T10:00:00Z\",\"collector_request_id\":\"" ++ requestId ++
    "\",\"public_token\":\"" ++ token ++ "\"\x7d,\"signature\":\"" ++ signature ++ "\"\x7d").toList.map
    fun c => c.toNat.toUInt8

def firstBody : Bytes :=
  sampleBody "request-1" "canary-token-one-0001" "e96eb095cb2bbfef302cccef52fbb7857790e898d62c4d6f91aeebc0680cc362"

def secondBody : Bytes :=
  sampleBody "request-2" "canary-token-two-0002" "70beef827f9153fc6867a44caeb4f29bb948e27c9e65b233bfaed9caf5d2b24f"

def sampleSha256 (bytes : Bytes) : String :=
  if bytes = firstBody then "220ca1cf176abfdcdbd777c54c5c6f7394df5f7160b51a8755511a023ad49ba9"
  else if bytes = secondBody then "b3ad7121c408bdc8abde40a49ef0f8bf71110b17ea669684acd6c665119d8480"
  else ""

def sampleToken (tokenId publicTokenHash : String) : Token where
  tokenId
  publicTokenHash
  caseId := "01HX3QK7Z0000000000000CASE"
  artifactId := "01HX3QK7Z0000000000000ART1"
  expiresAt := 1714644000
  revokedAt := none
  expectedUsage := .oneTime
  status := .active
  classificationStatus := none

def firstToken : Token :=
  sampleToken "01HX3QK7Z0000000000000TKN1" "d0945dbaf58dc856993e4a70cc1f84faf9e2804b73fb32354a22219671fd4038"

def secondToken : Token :=
  sampleToken "01HX3QK7Z0000000000000TKN2" "ac700d4e983de9515dabd9a5f5d59f5fe61e53b2f08051ec3b76f105d2c568e9"

def sampleCallback (publicTokenHash requestId : String) (body : Bytes) (callbackId eventId evidenceId createdId : String) :
    Callback where
  publicTokenHash
  callbackTime := some 1714557600
  collectorRequestId := some requestId
  body
  classification := .externalCallback
  ruleVersion := Canary.ruleVersion
  callbackId
  callbackEventId := eventId
  correlationId := createdId
  evidenceId
  eventId := createdId
  storedTime := 1714557601

def firstCallback : Callback :=
  sampleCallback firstToken.publicTokenHash "request-1" firstBody "01HX3QK7Z0000000000000CB01"
    "01HX3QK7Z0000000000000EVT1" "01HX3QK7Z0000000000000EVD1" "01HX3QK7Z0000000000000CRE1"

def secondCallback : Callback :=
  sampleCallback secondToken.publicTokenHash "request-2" secondBody "01HX3QK7Z0000000000000CB02"
    "01HX3QK7Z0000000000000EVT2" "01HX3QK7Z0000000000000EVD2" "01HX3QK7Z0000000000000CRE2"

def sampleWorld : World where
  domain := ⟨["01HX3QK7Z0000000000000CASE"], [], []⟩
  tokens := []
  callbacks := []
  events := []
  ledger := ⟨.empty, [], .empty⟩
  transactions := []
  answers := []

def sampleLocation (key : String) : Location := ⟨"evidence", key, "1"⟩

def sampleActions : List Action :=
  [.issueToken firstToken, .issueToken secondToken, .request (.callback firstCallback), .request (.callback firstCallback),
    .lockToken 0, .lockToken 1, .checkReplay 0, .allocate 0, .acquire 0, .write 0,
    .commit 0 (sampleLocation "cases/01HX3QK7Z0000000000000CASE/raw/01HX3QK7Z0000000000000EVD1"),
    .lockToken 1, .checkReplay 1, .request (.callback secondCallback), .lockToken 2, .checkReplay 2]

theorem toList_spelled {s : String} {cs : List Char} (spelled : s = String.ofList cs) : s.toList = cs := by
  rw [spelled, String.toList_ofList]

theorem bodies_apart : firstBody ≠ secondBody := by
  intro same
  simp only [firstBody, secondBody, sampleBody, String.toList_append, List.map_append, List.append_assoc] at same
  have behind := List.append_cancel_left same
  have requests := (List.append_inj behind (by decide +kernel)).1
  revert requests
  decide +kernel

theorem sampleRun_answers :
    (run (step sampleSha256 []) sampleWorld sampleActions).callbacks.map (·.callbackId) =
        ["01HX3QK7Z0000000000000CB01"] ∧
      (run (step sampleSha256 []) sampleWorld sampleActions).answers =
        [(0, .done), (1, .http 409 "callback replay detected")] := by
  delta sampleSha256
  simp only [sampleActions, firstCallback, secondCallback, sampleCallback, firstBody, secondBody, sampleBody,
    String.toList_append]
  rw [toList_spelled (s := "request-1") rfl, toList_spelled (s := "request-2") rfl,
    toList_spelled (s := "canary-token-one-0001") rfl, toList_spelled (s := "canary-token-two-0002") rfl,
    toList_spelled (s := "e96eb095cb2bbfef302cccef52fbb7857790e898d62c4d6f91aeebc0680cc362") rfl,
    toList_spelled (s := "70beef827f9153fc6867a44caeb4f29bb948e27c9e65b233bfaed9caf5d2b24f") rfl,
    toList_spelled (s := "\x7b\"payload\":\x7b\"callback_time\":\"2024-05-01T10:00:00Z\",\"collector_request_id\":\"") rfl,
    toList_spelled (s := "\",\"public_token\":\"") rfl, toList_spelled (s := "\"\x7d,\"signature\":\"") rfl,
    toList_spelled (s := "\"\x7d") rfl]
  decide +kernel

theorem sampleRun_kept :
    let w := run (step sampleSha256 []) sampleWorld sampleActions
    (w.callbacks.map (·.callbackId) = ["01HX3QK7Z0000000000000CB01"] ∧
      w.answers = [(0, .done), (1, .http 409 "callback replay detected")]) ∧
    Throughout (step sampleSha256 []) (fun w => Tables w ∧ w.answers.Pairwise (·.1 ≠ ·.1)) sampleWorld sampleActions := by
  refine ⟨sampleRun_answers, (canary_tokens_kept (by constructor <;> rfl) ?_).1⟩
  have known (r : Callback) (requested : Requested sampleActions r) : r = firstCallback ∨ r = secondCallback := by
    simpa [Requested, sampleActions] using requested
  have apart : sampleSha256 firstCallback.body ≠ sampleSha256 secondCallback.body := by
    simp only [firstCallback, secondCallback, sampleCallback]
    rw [sampleSha256, if_pos rfl, sampleSha256, if_neg bodies_apart.symm, if_pos rfl]
    simp only [ne_eq, String.reduceEq, not_false_eq_true]
  intro r other knownR knownOther same
  rcases known r knownR with rfl | rfl <;> rcases known other knownOther with rfl | rfl
  · rfl
  · exact absurd same apart
  · exact absurd same.symm apart
  · rfl

end Mirage.CanaryTokens
