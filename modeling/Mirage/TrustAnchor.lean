import Mirage.SignedPackage

/-! What trust_anchor.py promises of the keys that it resolves, and where it
breaks the promise: a revocation list that is no JSON, or no list of texts, counts
as an empty one. -/

namespace Mirage.TrustAnchor
open PythonText Raw RowLocks SignedPackage

section
variable (lib : Platform)

def storeOf (trust : Trust) : TrustStore := trust.store (resolveTrustStoreDir trust)

def Lists (file : Except Raised Text) : Prop :=
  ∃ content, ∃ prints : List Text, file = .ok content ∧
    JsonLoads.loadsText lib.toInterpreter content = .ok (.arr (prints.map .str))

def Revokes (store : TrustStore) (print : Text) : Prop :=
  ∃ content items, store.revoked = some (.ok content) ∧
    JsonLoads.loadsText lib.toInterpreter content = .ok (.arr items) ∧ .str print ∈ items

def OwnCopy (store : TrustStore) (embedded : Option ByteArray) (key : ByteArray) : Prop :=
  ∃ keys carried, loadTrustStore store = .ok keys ∧ embedded = some carried ∧ key ∈ keys ∧
    fingerprint lib key = fingerprint lib carried

def Closed (resolved : Except Raised TrustResolution) : Prop :=
  ∀ resolution, resolved = .ok resolution → resolution.keyBytes = none

structure Trustworthy (explicitKey : Option ByteArray) (trust : Trust) (embedded : Option ByteArray) :
    Prop where
  external : ∀ resolution key, resolveTrustedKey lib explicitKey trust embedded = .ok resolution →
    resolution.keyBytes = some key →
      explicitKey = some key ∨ explicitKey = none ∧ OwnCopy lib (storeOf trust) embedded key
  independent : explicitKey.isSome = true → ∀ other,
    resolveTrustedKey lib explicitKey trust other = resolveTrustedKey lib explicitKey trust embedded
  revocable : explicitKey = none → ∀ resolution key,
    resolveTrustedKey lib explicitKey trust embedded = .ok resolution →
      resolution.keyBytes = some key → ¬ Revokes lib (storeOf trust) (fingerprint lib key)
  closed : explicitKey = none → ∀ file, (storeOf trust).revoked = some file → ¬ Lists lib file →
    Closed (resolveTrustedKey lib explicitKey trust embedded)

/-- The revocation list is readable text, but no JSON or no list of texts, and
what there is of it does not name the fingerprint. -/
def Ignored (content print : Text) : Prop :=
  match JsonLoads.loadsText lib.toInterpreter content with
  | .error exc => exc.kind = .jsonDecodeError
  | .ok payload => (∀ prints : List Text, payload ≠ .arr (prints.map .str)) ∧
      print ∉ revokedNames lib payload

def FailsOpen (explicitKey : Option ByteArray) (trust : Trust) (embedded : Option ByteArray) : Prop :=
  explicitKey = none ∧ ∃ key content, OwnCopy lib (storeOf trust) embedded key ∧
    (storeOf trust).revoked = some (.ok content) ∧ Ignored lib content (fingerprint lib key)

end

section
variable {lib : Platform} {trust : Trust} {embedded : Option ByteArray}

/-- A store-based resolution gives a key exactly if the store has a copy and the
revocation list, as it is read, does not name it. -/
theorem resolved_iff {key : ByteArray} :
    (∃ resolution, resolveTrustedKey lib none trust embedded = .ok resolution ∧
      resolution.keyBytes = some key) ↔
    ∃ keys revoked carried, loadTrustStore (storeOf trust) = .ok keys ∧
      loadRevoked lib (storeOf trust) = .ok revoked ∧ embedded = some carried ∧
      fingerprint lib carried ∉ revoked ∧ trustedKey lib keys (fingerprint lib carried) = some key := by
  constructor
  · rintro ⟨resolution, resolved, found⟩
    unfold resolveTrustedKey at resolved
    simp only at resolved
    rw [bind_eq_ok] at resolved
    obtain ⟨keys, loaded, resolved⟩ := resolved
    split at resolved
    next =>
      cases resolved
      cases found
    next =>
      cases embedded with
      | none =>
        cases resolved
        cases found
      | some carried =>
        obtain ⟨revoked, listed, valid, known, _⟩ := resolveEmbedded_eq_ok resolved found
        exact ⟨keys, revoked, carried, loaded, listed, rfl, valid, known⟩
  · rintro ⟨keys, revoked, carried, loaded, listed, rfl, valid, known⟩
    have stored : keys ≠ [] := List.ne_nil_of_mem (trustedKey_eq_some known).1
    refine ⟨⟨some key, some (fingerprint lib carried), some .trustStore, []⟩, ?_, rfl⟩
    unfold storeOf at loaded listed
    simp only [resolveTrustedKey, loaded, ok_bind, stored, if_false, resolveEmbedded, listed, valid, known]
    rfl

theorem trustedKey_of_mem (lib : Platform) {keys : List ByteArray} {key : ByteArray} (mem : key ∈ keys) :
    ∃ own, trustedKey lib keys (fingerprint lib key) = some own := by
  cases known : trustedKey lib keys (fingerprint lib key) with
  | some own => exact ⟨own, rfl⟩
  | none =>
    rw [trustedKey, List.find?_eq_none] at known
    have absent := known key (List.mem_reverse.mpr mem)
    simp at absent

theorem mem_revokedNames {items : List Raw} {print : Text} (listed : .str print ∈ items) :
    print ∈ revokedNames lib (.arr items) :=
  List.mem_map.mpr ⟨.str print, listed, rfl⟩

theorem loadRevoked_eq_ok {store : TrustStore} {file : Except Raised Text} {revoked : List Text}
    (present : store.revoked = some file) : loadRevoked lib store = .ok revoked ↔
      ∃ content, file = .ok content ∧
        ((∃ payload, JsonLoads.loadsText lib.toInterpreter content = .ok payload ∧
          revoked = revokedNames lib payload) ∨
        ∃ exc, JsonLoads.loadsText lib.toInterpreter content = .error exc ∧
          exc.kind = .jsonDecodeError ∧ revoked = []) := by
  rw [loadRevoked, present]
  simp only
  rw [bind_eq_ok]
  refine exists_congr fun content => and_congr_right fun _ => ?_
  cases JsonLoads.loadsText lib.toInterpreter content with
  | ok payload =>
    simp only [Except.ok.injEq, exists_eq_left', reduceCtorEq, false_and, exists_false, or_false]
    constructor
    · intro same
      cases same
      rfl
    · rintro rfl
      rfl
  | error exc =>
    simp only [reduceCtorEq, false_and, exists_false, false_or, Except.error.injEq, exists_eq_left']
    split
    next invalid =>
      constructor
      · intro same
        cases same
        exact ⟨invalid, rfl⟩
      · rintro ⟨_, rfl⟩
        rfl
    next other => exact iff_of_false nofun fun h => other h.1

theorem external {explicitKey : Option ByteArray} {resolution : TrustResolution} {key : ByteArray}
    (resolved : resolveTrustedKey lib explicitKey trust embedded = .ok resolution)
    (found : resolution.keyBytes = some key) :
    explicitKey = some key ∨ explicitKey = none ∧ OwnCopy lib (storeOf trust) embedded key := by
  cases (resolveTrustedKey_sound resolved found).1 with
  | explicit given => exact .inl given
  | stored none keys revoked carried loaded listed named mem same valid =>
    exact .inr ⟨none, keys, carried, loaded, named, mem, same⟩

theorem revocable {resolution : TrustResolution} {key : ByteArray}
    (resolved : resolveTrustedKey lib none trust embedded = .ok resolution)
    (found : resolution.keyBytes = some key) : ¬ Revokes lib (storeOf trust) (fingerprint lib key) := by
  rintro ⟨content, items, present, loaded, named⟩
  obtain ⟨keys, revoked, carried, _, listed, _, valid, known⟩ := resolved_iff.mp ⟨resolution, resolved, found⟩
  rw [← (trustedKey_eq_some known).2] at valid
  obtain ⟨content', same, cases⟩ := (loadRevoked_eq_ok present).mp listed
  cases same
  rcases cases with ⟨payload, loaded', rfl⟩ | ⟨exc, invalid, _⟩
  · cases loaded.symm.trans loaded'
    exact valid (mem_revokedNames named)
  · cases loaded.symm.trans invalid

/-- A list that cannot be read as one of fingerprints closes the store, unless it
is ignored. -/
theorem closed_of_not_open (apart : ¬ FailsOpen lib none trust embedded) {file : Except Raised Text}
    (present : (storeOf trust).revoked = some file) (unlisted : ¬ Lists lib file) :
    Closed (resolveTrustedKey lib none trust embedded) := by
  intro resolution resolved
  by_contra given
  obtain ⟨key, found⟩ := Option.ne_none_iff_exists'.mp given
  obtain ⟨keys, revoked, carried, loaded, listed, named, valid, known⟩ :=
    resolved_iff.mp ⟨resolution, resolved, found⟩
  obtain ⟨mem, same⟩ := trustedKey_eq_some known
  obtain ⟨content, rfl, cases⟩ := (loadRevoked_eq_ok present).mp listed
  refine apart ⟨rfl, key, content, ⟨keys, carried, loaded, named, mem, same⟩, present, ?_⟩
  rw [same]
  rcases cases with ⟨payload, parsed, rfl⟩ | ⟨exc, parsed, invalid, _⟩
  · rw [Ignored, parsed]
    refine ⟨?_, valid⟩
    rintro prints rfl
    exact unlisted ⟨content, prints, rfl, parsed⟩
  · rw [Ignored, parsed]
    exact invalid

theorem not_closed_of_open (fails : FailsOpen lib none trust embedded) :
    ∃ file, (storeOf trust).revoked = some file ∧ ¬ Lists lib file ∧
      ¬ Closed (resolveTrustedKey lib none trust embedded) := by
  obtain ⟨_, key, content, ⟨keys, carried, loaded, named, mem, same⟩, present, ignored⟩ := fails
  refine ⟨.ok content, present, ?_, fun closed => ?_⟩
  · rintro ⟨content', prints, same, parsed⟩
    cases same
    rw [Ignored, parsed] at ignored
    exact ignored.1 prints rfl
  · obtain ⟨own, known⟩ := trustedKey_of_mem lib mem
    have listed : ∃ revoked, loadRevoked lib (storeOf trust) = .ok revoked ∧
        fingerprint lib key ∉ revoked := by
      cases parsed : JsonLoads.loadsText lib.toInterpreter content with
      | ok payload =>
        rw [Ignored, parsed] at ignored
        exact ⟨_, (loadRevoked_eq_ok present).mpr ⟨content, rfl, .inl ⟨payload, parsed, rfl⟩⟩, ignored.2⟩
      | error exc =>
        rw [Ignored, parsed] at ignored
        exact ⟨[], (loadRevoked_eq_ok present).mpr ⟨content, rfl, .inr ⟨exc, parsed, ignored, rfl⟩⟩,
          List.not_mem_nil⟩
    obtain ⟨revoked, listed, valid⟩ := listed
    rw [same] at known valid
    obtain ⟨resolution, resolved, found⟩ :=
      resolved_iff.mpr ⟨keys, revoked, carried, loaded, listed, named, valid, known⟩
    rw [closed resolution resolved] at found
    cases found

end

/-- The promise is kept exactly where no revocation list is ignored. -/
theorem trustworthy_iff (lib : Platform) (explicitKey : Option ByteArray) (trust : Trust)
    (embedded : Option ByteArray) :
    Trustworthy lib explicitKey trust embedded ↔ ¬ FailsOpen lib explicitKey trust embedded := by
  constructor
  · intro trustworthy fails
    cases fails.1
    obtain ⟨file, present, unlisted, opened⟩ := not_closed_of_open fails
    exact opened (trustworthy.closed rfl file present unlisted)
  · intro apart
    refine ⟨fun _ _ => external, ?_, ?_, ?_⟩
    · intro given other
      obtain ⟨key, rfl⟩ := Option.isSome_iff_exists.mp given
      rfl
    · rintro rfl resolution key resolved found
      exact revocable resolved found
    · rintro rfl file present unlisted
      exact closed_of_not_open apart present unlisted

/-! A store of one key whose revocation list was truncated to nothing. -/

def emptyPlatform : Platform := tablePlatform [] fun _ _ _ => false

def sampleKey : ByteArray := "release signer".toUTF8

def truncatedStore : Trust := ⟨none, none, fun _ => ⟨true, [.ok sampleKey], some (.ok [])⟩⟩

/-- The store still gives its key, though its revocation list cannot be read. -/
theorem truncated_list_ignored : ¬ Trustworthy emptyPlatform none truncatedStore (some sampleKey) := by
  intro trustworthy
  have parsed : ∃ exc, JsonLoads.loadsText emptyPlatform.toInterpreter [] = .error exc ∧
      exc.kind = .jsonDecodeError := ⟨_, rfl, rfl⟩
  obtain ⟨exc, parsed, invalid⟩ := parsed
  have unlisted : ¬ Lists emptyPlatform (.ok []) := by
    rintro ⟨content, prints, same, loaded⟩
    cases same
    cases parsed.symm.trans loaded
  have listed : loadRevoked emptyPlatform (storeOf truncatedStore) = .ok [] :=
    (loadRevoked_eq_ok rfl).mpr ⟨[], rfl, .inr ⟨exc, parsed, invalid, rfl⟩⟩
  obtain ⟨own, known⟩ := trustedKey_of_mem emptyPlatform (List.mem_singleton_self sampleKey)
  obtain ⟨resolution, resolved, found⟩ := resolved_iff.mpr
    ⟨[sampleKey], [], sampleKey, rfl, listed, rfl, List.not_mem_nil, known⟩
  have none := trustworthy.closed rfl (.ok []) rfl unlisted resolution resolved
  rw [none] at found
  cases found

end Mirage.TrustAnchor
