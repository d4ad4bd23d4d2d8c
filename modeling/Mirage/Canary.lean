import Mirage.IpAddress
import Mirage.SignedPackage

/-! Where a canary callback came from: `resolve_callback_source` and
`classify_callback` of canary.py over a list of infrastructure sources, and the
endpoint that ingests signed callbacks with the sources it selects. -/

namespace Mirage.Canary
open PythonText IpAddress

inductive Classification where
  | unknownSourceCallback
  | inSandboxCallback
  | securityScannerCallback
  | externalCallback
  deriving DecidableEq

def internalCategories : List String :=
  ["SANDBOX_ENI", "ENDPOINT_ENI", "MIRAGE_PROXY", "NGINX_BROKER", "SSH_BASTION", "RD_GATEWAY", "NAT",
    "VPN_EGRESS", "TEST_INFRASTRUCTURE"]

def scannerCategories : List String :=
  ["SECURITY_SCANNER", "EMAIL_SCANNER", "AV_GATEWAY", "BROWSER_SECURITY_SCANNER"]

def ruleVersion : String := "1.0"

/-- A row of infrastructure_sources: the column of the range is of type CIDR, and
the one of the confidence holds numbers between 0 and 1. -/
structure InfrastructureSource (τ : Type) where
  sourceId : String
  cidr : Network
  category : String
  validFrom : τ
  validUntil : Option τ
  confidence : ℚ
  trustedProxy : Bool

structure CallbackClassification where
  classification : Classification
  confidence : ℚ
  networkIndicator : Option Text
  uncertainty : String
  analystReviewRequired : Bool
  ruleVersion : String := Canary.ruleVersion

section
variable {τ : Type} [LinearOrder τ]

namespace InfrastructureSource

def contains (source : InfrastructureSource τ) (address : Address) : Bool := source.cidr.contains address

def validAt (source : InfrastructureSource τ) (at_ : τ) : Bool :=
  source.validFrom ≤ at_ && source.validUntil.all fun until_ => at_ < until_

end InfrastructureSource

def matchingSources (address : Address) (at_ : τ) (sources : List (InfrastructureSource τ)) :
    List (InfrastructureSource τ) :=
  sources.filter fun source => source.validAt at_ && source.contains address

def forwardedTokens (forwardedFor : Text) : List Text :=
  ((forwardedFor.splitOn (ofChar ',')).map SignedPackage.strip).filter fun token => token ≠ []

def ipAddresses : List Text → Option (List Address)
  | [] => some []
  | token :: rest => do
    let address ← ipAddress token
    let more ← ipAddresses rest
    return address :: more

def peerIsTrustedProxy (peer : Address) (at_ : τ) (sources : List (InfrastructureSource τ)) : Bool :=
  (matchingSources peer at_ sources).any fun source => source.trustedProxy

def resolveCallbackSource (peerIp : Text) (forwardedFor : Option Text) (callbackTime : τ)
    (sources : List (InfrastructureSource τ)) : Except Raised (Text × Bool) :=
  match ipAddress peerIp with
  | none => .error .valueError
  | some peer =>
    let header := forwardedFor.getD []
    if header = [] || !peerIsTrustedProxy peer callbackTime sources then .ok (str peer, false)
    else
      match ipAddresses (forwardedTokens header) with
      | none => .ok (str peer, true)
      | some [] => .ok (str peer, true)
      | some (first :: more) =>
        .ok (str first, 1 < ((first :: more).map str).dedup.length)

def maxConfidence (sources : List (InfrastructureSource τ)) : ℚ :=
  ((sources.map fun source => source.confidence).max?).getD 0

def anyOf (categories : List String) (sources : List (InfrastructureSource τ)) : Bool :=
  sources.any fun source => source.category ∈ categories

def classifyCallback (sourceIp : Text) (callbackTime : τ) (sources : List (InfrastructureSource τ))
    (forwardingConflict : Bool) : CallbackClassification :=
  match ipAddress sourceIp with
  | none =>
    { classification := .unknownSourceCallback
      confidence := 0
      networkIndicator := none
      uncertainty := "invalid source address"
      analystReviewRequired := true }
  | some address =>
    let found := matchingSources address callbackTime sources
    if forwardingConflict || anyOf internalCategories found && anyOf scannerCategories found then
      { classification := .unknownSourceCallback
        confidence := 1 / 4
        networkIndicator := none
        uncertainty := "conflicting forwarding or infrastructure-source signals"
        analystReviewRequired := true }
    else if anyOf internalCategories found then
      { classification := .inSandboxCallback
        confidence := maxConfidence found
        networkIndicator := none
        uncertainty := "controlled Mirage infrastructure; never an attacker location"
        analystReviewRequired := false }
    else if anyOf scannerCategories found then
      { classification := .securityScannerCallback
        confidence := maxConfidence found
        networkIndicator := none
        uncertainty := "configured security scanner; no attacker attribution"
        analystReviewRequired := false }
    else if !found.isEmpty then
      { classification := .unknownSourceCallback
        confidence := maxConfidence found
        networkIndicator := none
        uncertainty := "source matched an unclassified infrastructure range"
        analystReviewRequired := true }
    -- Any time: here the records are the stale ones.
    else if sources.any fun source => source.contains address then
      { classification := .unknownSourceCallback
        confidence := 1 / 4
        networkIndicator := none
        uncertainty := "source matches only stale infrastructure records; analyst review required"
        analystReviewRequired := true }
    else
      { classification := .externalCallback
        confidence := 3 / 4
        networkIndicator := some (str address)
        uncertainty := "network indicator only; VPN, proxy, NAT, and shared-network uncertainty applies"
        analystReviewRequired := false }

def attributed (peerIp : Text) (forwardedFor : Option Text) (callbackTime : τ)
    (sources : List (InfrastructureSource τ)) : Except Raised (Text × CallbackClassification) := do
  let (resolvedIp, conflict) ← resolveCallbackSource peerIp forwardedFor callbackTime sources
  return (resolvedIp, classifyCallback resolvedIp callbackTime sources conflict)

def Trusted (peerIp : Text) (at_ : τ) (sources : List (InfrastructureSource τ)) : Prop :=
  ∃ peer, ipAddress peerIp = some peer ∧
    ∃ source ∈ sources, source.validAt at_ ∧ source.contains peer ∧ source.trustedProxy

theorem peerIsTrustedProxy_iff {peer : Address} {at_ : τ} {sources : List (InfrastructureSource τ)} :
    peerIsTrustedProxy peer at_ sources = true ↔
      ∃ source ∈ sources, source.validAt at_ ∧ source.contains peer ∧ source.trustedProxy := by
  rw [peerIsTrustedProxy, List.any_eq_true]
  constructor
  · rintro ⟨source, mem, trusted⟩
    obtain ⟨listed, both⟩ := List.mem_filter.mp mem
    rw [Bool.and_eq_true] at both
    exact ⟨source, listed, both.1, both.2, trusted⟩
  · rintro ⟨source, listed, valid, inside, trusted⟩
    refine ⟨source, List.mem_filter.mpr ⟨listed, ?_⟩, trusted⟩
    rw [valid, inside]
    rfl

theorem resolve_of_untrusted {peerIp : Text} {at_ : τ} {sources : List (InfrastructureSource τ)}
    (untrusted : ¬Trusted peerIp at_ sources) (forwardedFor : Option Text) :
    resolveCallbackSource peerIp forwardedFor at_ sources = resolveCallbackSource peerIp none at_ sources := by
  unfold resolveCallbackSource
  cases parsed : ipAddress peerIp with
  | none => rfl
  | some peer =>
    have distrusted : peerIsTrustedProxy peer at_ sources = false := by
      rw [← Bool.not_eq_true, peerIsTrustedProxy_iff]
      exact fun trusted => untrusted ⟨peer, parsed, trusted⟩
    simp only [distrusted, Bool.not_false, Bool.or_true, if_true]

theorem ipAddresses_none {tokens : List Text} {token : Text} (mem : token ∈ tokens)
    (invalid : ipAddress token = none) : ipAddresses tokens = none := by
  induction tokens with
  | nil => cases mem
  | cons head rest ih =>
    rw [ipAddresses]
    rcases List.mem_cons.mp mem with rfl | later
    · rw [invalid]
      rfl
    · rw [ih later]
      cases ipAddress head <;> rfl

theorem mem_ipAddresses {tokens : List Text} {addresses : List Address} (parsed : ipAddresses tokens = some addresses)
    {token : Text} {address : Address} (mem : token ∈ tokens) (valid : ipAddress token = some address) :
    address ∈ addresses := by
  induction tokens generalizing addresses with
  | nil => cases mem
  | cons head rest ih =>
    rw [ipAddresses] at parsed
    cases first : ipAddress head with
    | none =>
      rw [first] at parsed
      cases parsed
    | some a =>
      cases others : ipAddresses rest with
      | none =>
        rw [first, others] at parsed
        cases parsed
      | some more =>
        rw [first, others] at parsed
        cases parsed
        rcases List.mem_cons.mp mem with rfl | later
        · rw [valid] at first
          cases first
          exact List.mem_cons_self
        · exact List.mem_cons_of_mem _ (ih others later)

theorem one_lt_dedup {α : Type} [DecidableEq α] {xs : List α} {x y : α} (memX : x ∈ xs) (memY : y ∈ xs)
    (different : x ≠ y) : 1 < xs.dedup.length := by
  by_contra few
  have inX := List.mem_dedup.mpr memX
  have inY := List.mem_dedup.mpr memY
  match xs.dedup, inX, inY, few with
  | [z], inX, inY, _ =>
    rw [List.mem_singleton] at inX inY
    exact different (inX.trans inY.symm)
  | _ :: _ :: rest, _, _, few =>
    rw [List.length_cons, List.length_cons] at few
    omega

def Disputed (forwardedFor : Text) : Prop :=
  (∃ token ∈ forwardedTokens forwardedFor, ipAddress token = none) ∨
  ∃ token ∈ forwardedTokens forwardedFor, ∃ other ∈ forwardedTokens forwardedFor, ∃ a b,
    ipAddress token = some a ∧ ipAddress other = some b ∧ a ≠ b

theorem forwardedTokens_nil : forwardedTokens [] = [] := by decide

theorem resolve_of_disputed {peerIp forwardedFor : Text} {at_ : τ} {sources : List (InfrastructureSource τ)}
    (trusted : Trusted peerIp at_ sources) (disputed : Disputed forwardedFor) :
    ∃ resolvedIp, resolveCallbackSource peerIp (some forwardedFor) at_ sources = .ok (resolvedIp, true) := by
  obtain ⟨peer, parsed, proxy⟩ := trusted
  have held : forwardedFor ≠ [] := by
    rintro rfl
    rcases disputed with ⟨token, mem, _⟩ | ⟨token, mem, _⟩ <;>
      · rw [forwardedTokens_nil] at mem
        cases mem
  unfold resolveCallbackSource
  simp only [parsed, Option.getD_some, held, decide_false, peerIsTrustedProxy_iff.mpr proxy, Bool.not_true,
    Bool.or_false, Bool.false_eq_true, if_false]
  cases forwarded : ipAddresses (forwardedTokens forwardedFor) with
  | none => exact ⟨_, rfl⟩
  | some addresses =>
    cases addresses with
    | nil => exact ⟨_, rfl⟩
    | cons first more =>
      refine ⟨str first, congrArg Except.ok (Prod.ext rfl (decide_eq_true ?_))⟩
      rcases disputed with ⟨token, mem, invalid⟩ | ⟨token, mem, other, mem', a, b, valid, valid', different⟩
      · rw [ipAddresses_none mem invalid] at forwarded
        cases forwarded
      · have listed := mem_ipAddresses forwarded mem valid
        have listed' := mem_ipAddresses forwarded mem' valid'
        exact one_lt_dedup (List.mem_map_of_mem listed) (List.mem_map_of_mem listed')
          (str_injective.ne different)

theorem classify_external_iff (sourceIp : Text) (at_ : τ) (sources : List (InfrastructureSource τ))
    (conflict : Bool) :
    (classifyCallback sourceIp at_ sources conflict).classification = .externalCallback ↔
      conflict = false ∧ ∃ address, ipAddress sourceIp = some address ∧
        ∀ source ∈ sources, source.contains address = false := by
  unfold classifyCallback
  cases parsed : ipAddress sourceIp with
  | none =>
    constructor
    · exact fun external => nomatch external
    · rintro ⟨_, _, found, _⟩
      cases found
  | some address =>
    simp only
    constructor
    · intro external
      split_ifs at external with disputed internal scanner found stale
      rw [Bool.or_eq_true, not_or, Bool.not_eq_true] at disputed
      refine ⟨disputed.1, address, rfl, fun source mem => ?_⟩
      rw [← Bool.not_eq_true]
      exact fun inside => stale (List.any_eq_true.mpr ⟨source, mem, inside⟩)
    · rintro ⟨calm, a, same, outside⟩
      cases same
      have unmatched : matchingSources address at_ sources = [] := by
        rw [matchingSources, List.filter_eq_nil_iff]
        intro source mem
        rw [outside source mem, Bool.and_false]
        exact Bool.false_ne_true
      have fresh : (sources.any fun source => source.contains address) = false :=
        List.any_eq_false.mpr fun source mem => by rw [outside source mem]; exact Bool.false_ne_true
      rw [unmatched, calm, fresh]
      rfl

theorem classify_indicator (sourceIp : Text) (at_ : τ) (sources : List (InfrastructureSource τ)) (conflict : Bool) :
    (classifyCallback sourceIp at_ sources conflict).networkIndicator.isSome = true ↔
      (classifyCallback sourceIp at_ sources conflict).classification = .externalCallback := by
  unfold classifyCallback
  cases ipAddress sourceIp with
  | none => exact ⟨fun given => (nomatch given), fun external => (nomatch external)⟩
  | some address =>
    simp only
    split_ifs <;> simp only [Option.isSome_none, Option.isSome_some, Bool.false_eq_true]

theorem classify_conflict (sourceIp : Text) (at_ : τ) (sources : List (InfrastructureSource τ)) :
    (classifyCallback sourceIp at_ sources true).classification = .unknownSourceCallback := by
  unfold classifyCallback
  cases ipAddress sourceIp <;> rfl

theorem matchingSources_perm {sources others : List (InfrastructureSource τ)} (perm : sources.Perm others)
    (address : Address) (at_ : τ) :
    (matchingSources address at_ sources).Perm (matchingSources address at_ others) := perm.filter _

theorem any_perm {α : Type} {xs ys : List α} (perm : xs.Perm ys) (p : α → Bool) : xs.any p = ys.any p := by
  rw [Bool.eq_iff_iff, List.any_eq_true, List.any_eq_true]
  simp only [perm.mem_iff]

theorem max_perm {xs ys : List ℚ} (perm : xs.Perm ys) : xs.max? = ys.max? := by
  cases largest : ys.max? with
  | none => rw [List.max?_eq_none_iff.mp largest] at perm; rw [perm.eq_nil]; rfl
  | some m =>
    rw [List.max?_eq_some_iff] at largest ⊢
    exact ⟨perm.mem_iff.mpr largest.1, fun b mem => largest.2 b (perm.mem_iff.mp mem)⟩

omit [LinearOrder τ] in
theorem anyOf_perm {sources others : List (InfrastructureSource τ)} (perm : sources.Perm others)
    (categories : List String) : anyOf categories sources = anyOf categories others := any_perm perm _

omit [LinearOrder τ] in
theorem maxConfidence_perm {sources others : List (InfrastructureSource τ)} (perm : sources.Perm others) :
    maxConfidence sources = maxConfidence others := by
  rw [maxConfidence, max_perm (perm.map _), maxConfidence]

theorem resolve_perm {sources others : List (InfrastructureSource τ)} (perm : sources.Perm others)
    (peerIp : Text) (forwardedFor : Option Text) (at_ : τ) :
    resolveCallbackSource peerIp forwardedFor at_ sources = resolveCallbackSource peerIp forwardedFor at_ others := by
  have trust : ∀ peer, peerIsTrustedProxy peer at_ sources = peerIsTrustedProxy peer at_ others := fun peer =>
    any_perm (matchingSources_perm perm peer at_) _
  unfold resolveCallbackSource
  simp only [trust]

theorem classify_perm {sources others : List (InfrastructureSource τ)} (perm : sources.Perm others)
    (sourceIp : Text) (at_ : τ) (conflict : Bool) :
    classifyCallback sourceIp at_ sources conflict = classifyCallback sourceIp at_ others conflict := by
  unfold classifyCallback
  cases ipAddress sourceIp with
  | none => rfl
  | some address =>
    have found := matchingSources_perm perm address at_
    simp only [anyOf_perm found, any_perm perm, maxConfidence_perm found, found.isEmpty_eq]

structure Unsteered (sources : List (InfrastructureSource τ)) (at_ : τ) : Prop where
  untrusted : ∀ peerIp, ¬Trusted peerIp at_ sources → ∀ forwardedFor other,
    attributed peerIp forwardedFor at_ sources = attributed peerIp other at_ sources
  disputed : ∀ peerIp forwardedFor, Trusted peerIp at_ sources → Disputed forwardedFor →
    ∃ resolvedIp classified, attributed peerIp (some forwardedFor) at_ sources = .ok (resolvedIp, classified) ∧
      classified.classification = .unknownSourceCallback
  unordered : ∀ others, sources.Perm others → ∀ peerIp forwardedFor,
    attributed peerIp forwardedFor at_ sources = attributed peerIp forwardedFor at_ others
  indicated : ∀ sourceIp conflict,
    (classifyCallback sourceIp at_ sources conflict).networkIndicator.isSome = true ↔
      (classifyCallback sourceIp at_ sources conflict).classification = .externalCallback
  /-- Another source of an internal category, wherever it stands among them, that
  contains the address to be classified. -/
  internal : ∀ added others, added.category ∈ internalCategories → others.Perm (added :: sources) →
    ∀ sourceIp address conflict, ipAddress sourceIp = some address → added.contains address →
      (classifyCallback sourceIp at_ others conflict).classification ≠ .externalCallback
  internalRun : ∀ added others, added.category ∈ internalCategories → others.Perm (added :: sources) →
    ∀ peerIp forwardedFor resolvedIp classified address,
      attributed peerIp forwardedFor at_ others = .ok (resolvedIp, classified) →
      ipAddress resolvedIp = some address → added.contains address →
      classified.classification ≠ .externalCallback

theorem attributed_eq_ok {peerIp : Text} {forwardedFor : Option Text} {at_ : τ}
    {sources : List (InfrastructureSource τ)} {resolvedIp : Text} {classified : CallbackClassification} :
    attributed peerIp forwardedFor at_ sources = .ok (resolvedIp, classified) ↔
      ∃ conflict, resolveCallbackSource peerIp forwardedFor at_ sources = .ok (resolvedIp, conflict) ∧
        classified = classifyCallback resolvedIp at_ sources conflict := by
  unfold attributed
  cases resolveCallbackSource peerIp forwardedFor at_ sources with
  | error exc => exact ⟨fun done => (nomatch done), fun ⟨_, done, _⟩ => (nomatch done)⟩
  | ok resolved =>
    obtain ⟨ip, conflict⟩ := resolved
    constructor
    · intro done
      cases done
      exact ⟨conflict, rfl, rfl⟩
    · rintro ⟨_, same, rfl⟩
      cases same
      rfl

theorem classify_covered {sources : List (InfrastructureSource τ)} {source : InfrastructureSource τ}
    (mem : source ∈ sources) {sourceIp : Text} {address : Address} (parsed : ipAddress sourceIp = some address)
    (inside : source.contains address = true) (at_ : τ) (conflict : Bool) :
    (classifyCallback sourceIp at_ sources conflict).classification ≠ .externalCallback := by
  rw [Ne, classify_external_iff]
  rintro ⟨_, other, parsed', outside⟩
  rw [parsed] at parsed'
  cases parsed'
  rw [outside source mem] at inside
  cases inside

/-- Senders that are not trusted do not steer the attribution, and those that are
only by naming one address. -/
theorem attribution_unsteered (sources : List (InfrastructureSource τ)) (at_ : τ) : Unsteered sources at_ where
  untrusted peerIp distrusted forwardedFor other := by
    rw [attributed, attributed, resolve_of_untrusted distrusted forwardedFor, resolve_of_untrusted distrusted other]
  disputed peerIp forwardedFor trusted disputed := by
    obtain ⟨resolvedIp, resolved⟩ := resolve_of_disputed trusted disputed
    exact ⟨resolvedIp, _, attributed_eq_ok.mpr ⟨true, resolved, rfl⟩, classify_conflict resolvedIp at_ sources⟩
  unordered others perm peerIp forwardedFor := by
    rw [attributed, attributed, resolve_perm perm]
    simp only [classify_perm perm]
  indicated sourceIp conflict := classify_indicator sourceIp at_ sources conflict
  internal added others _ perm sourceIp address conflict parsed inside :=
    classify_covered (perm.mem_iff.mpr List.mem_cons_self) parsed inside at_ conflict
  internalRun added others _ perm peerIp forwardedFor resolvedIp classified address done parsed inside := by
    obtain ⟨conflict, _, rfl⟩ := attributed_eq_ok.mp done
    exact classify_covered (perm.mem_iff.mpr List.mem_cons_self) parsed inside at_ conflict

end

end Mirage.Canary
