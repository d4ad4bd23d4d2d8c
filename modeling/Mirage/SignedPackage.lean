import Mirage.JsonLoads
import Mirage.RowLocks
import Mathlib

/-! Signed ZIP packages as their verifiers see them, and the external trust anchor of
trust_anchor.py. -/

namespace Mirage.SignedPackage
open PythonText Raw RowLocks

/-! What Python's libraries are asked for. -/

/-- Hashing and RSA of `cryptography`, and what `json`, `int` and `repr` take
from the interpreter. -/
structure Platform extends JsonLoads.Interpreter where
  sha256 : ByteArray → ByteArray
  Key : Type
  loadPemPublicKey : ByteArray → Except Raised Key
  isRsa : Key → Bool
  /-- RSA-PSS with SHA-256 on a digest. -/
  verifyPss : Key → ByteArray → ByteArray → Except Raised Unit
  printable : CodePoint → Bool
  intOfText : Text → Option Int

def hexOf (bytes : List UInt8) : Text :=
  bytes.flatMap fun b => [ofChar (Json.hexDigit (b.toNat / 16)), ofChar (Json.hexDigit (b.toNat % 16))]

def hexDigest (lib : Platform) (bytes : ByteArray) : Text := hexOf (lib.sha256 bytes).data.toList

def decodeUtf8 (bytes : ByteArray) : Except Raised Text :=
  (String.fromUTF8? bytes).elim (.error .unicodeDecodeError) fun s => .ok (text s)

def isWhitespace (p : CodePoint) : Bool :=
  between '\t' '\r' p || p.val ∈ [0x1C, 0x1D, 0x1E, 0x1F, 0x20, 0x85, 0xA0, 0x1680, 0x2028, 0x2029,
    0x202F, 0x205F, 0x3000] || 0x2000 ≤ p.val && p.val ≤ 0x200A

def strip (t : Text) : Text :=
  ((t.dropWhile isWhitespace).reverse.dropWhile isWhitespace).reverse

def dictGet (value : Raw) (name : String) : Except Raised (Option Raw) :=
  match value with
  | .obj members => .ok (member (text name) members)
  | _ => .error .attributeError

def isText (t : Text) : Option Raw → Bool
  | some (.str s) => s = t
  | _ => false

def canonical (value : Raw) : Except Raised ByteArray :=
  (canonicalJsonBytes value).elim (.error .unicodeEncodeError) .ok

structure Member where
  name : Text
  content : Except Raised ByteArray

abbrev Archive := List Member

/-- What opening the package gives. -/
abbrev Package := Except Raised Archive

def names (archive : Archive) : List Text := archive.map Member.name

/-- `zf.read(name)`: of several members of a name the last one. -/
def read (archive : Archive) (name : Text) : Except Raised ByteArray :=
  match archive.reverse.find? fun m => m.name = name with
  | some m => m.content
  | none => .error .keyError

def written (members : List (Text × ByteArray)) : Archive :=
  members.map fun m => ⟨m.1, .ok m.2⟩

/-! Errors are texts; a check adds its text or nothing. -/

def check (passed : Bool) (message : Text) : List Text := if passed then [] else [message]

def sortedNames (names : List Text) : List Text := names.dedup.insertionSort (· ≤ ·)

def each (message : String) (names : List Text) : List Text :=
  (sortedNames names).map fun name => text message ++ name

def without (names others : List Text) : List Text := names.filter fun name => name ∉ others

def collect {α : Type} (f : α → Except Raised (List Text)) : List α → Except Raised (List Text)
  | [] => .ok []
  | x :: xs => do
    let errors ← f x
    let more ← collect f xs
    return errors ++ more

/-- A directory of trusted keys: the contents of its `*.pem` files in path
order, and the text of `revoked.json` where there is one. -/
structure TrustStore where
  isDirectory : Bool
  pemFiles : List (Except Raised ByteArray)
  revoked : Option (Except Raised Text)

/-- Where trusted keys are looked for: the directory that the caller names, the
one that the environment names, and what the directories hold. -/
structure Trust where
  trustStoreDir : Option Text
  environment : Option Text
  store : Text → TrustStore

def defaultTrustStoreDir : Text := text "/etc/mirage/trust/release-keys"

def resolveTrustStoreDir (trust : Trust) : Text :=
  trust.trustStoreDir.getD (trust.environment.elim defaultTrustStoreDir fun dir =>
    if dir = [] then defaultTrustStoreDir else dir)

def readAll : List (Except Raised ByteArray) → Except Raised (List ByteArray)
  | [] => .ok []
  | file :: rest => do
    let data ← file
    let more ← readAll rest
    return data :: more

section
variable (lib : Platform)

def fingerprint (key : ByteArray) : Text := hexDigest lib key

/-- `_load_trust_store`: the keys whose last fingerprint counts. -/
def loadTrustStore (store : TrustStore) : Except Raised (List ByteArray) :=
  if store.isDirectory then readAll store.pemFiles else .ok []

def trustedKey (keys : List ByteArray) (print : Text) : Option ByteArray :=
  keys.reverse.find? fun key => fingerprint lib key = print

def revokedNames : Raw → List Text
  | .arr items => items.map (strOf lib.printable)
  | _ => []

def loadRevoked (store : TrustStore) : Except Raised (List Text) :=
  match store.revoked with
  | none => .ok []
  | some file => do
    let content ← file
    match JsonLoads.loadsText lib.toInterpreter content with
    | .ok payload => return revokedNames lib payload
    | .error exc => if exc.kind = .jsonDecodeError then return [] else .error exc

inductive KeySource where
  | explicitKey
  | trustStore
  deriving DecidableEq

structure TrustResolution where
  keyBytes : Option ByteArray
  fingerprint : Option Text
  source : Option KeySource
  errors : List Text

def noAnchor (dir : Text) : Text :=
  text "no external trust anchor configured: pass --trusted-public-key, or populate a trust store directory ("
    ++ dir ++ text ") with trusted public keys — a package's own embedded key is never trusted by default"

def resolveEmbedded (store : TrustStore) (keys : List ByteArray) (embedded : ByteArray) :
    Except Raised TrustResolution := do
  let print := fingerprint lib embedded
  let revoked ← loadRevoked lib store
  if print ∈ revoked then return ⟨none, some print, none, [text "signer key is revoked: " ++ print]⟩
  else match trustedKey lib keys print with
    | none => return ⟨none, some print, none,
        [text "signer key fingerprint is not in the trusted store: " ++ print]⟩
    | some key => return ⟨some key, some print, some .trustStore, []⟩

def resolveTrustedKey (explicitKey : Option ByteArray) (trust : Trust)
    (embedded : Option ByteArray) : Except Raised TrustResolution :=
  match explicitKey with
  | some key => .ok ⟨some key, some (fingerprint lib key), some .explicitKey, []⟩
  | none => do
    let store := trust.store (resolveTrustStoreDir trust)
    let keys ← loadTrustStore store
    if keys = [] then return ⟨none, none, none, [noAnchor (resolveTrustStoreDir trust)]⟩
    else match embedded with
      | none => return ⟨none, none, none,
          [text "package has no signer key to match against the trust store"]⟩
      | some embedded => resolveEmbedded lib store keys embedded

def readIfPresent (archive : Archive) (name : Text) : Except Raised (Option ByteArray) :=
  if name ∈ names archive then (read archive name).map some else .ok none

def rsaErrors (key message : ByteArray) (signature : Except Raised ByteArray)
    (notRsa mismatch : String) : Except Raised (List Text) := do
  let key ← lib.loadPemPublicKey key
  if !lib.isRsa key then return [text notRsa]
  else
    match signature >>= lib.verifyPss key (lib.sha256 message) with
    | .ok _ => return []
    | .error exc => if exc.kind = .invalidSignature then return [text mismatch] else .error exc

def resolvedErrors (archive : Archive) (resolution : TrustResolution) (message : ByteArray)
    (signatureName : Text) (notRsa mismatch missing : String) : Except Raised (List Text) :=
  match resolution.keyBytes with
  | some key => rsaErrors lib key message (read archive signatureName) notRsa mismatch
  | none => .ok [text missing]

def fileErrors (archive : Archive) (file : Text × Raw) : Except Raised (List Text) :=
  if file.1 ∉ names archive then .ok [text "missing file: " ++ file.1]
  else do
    let data ← read archive file.1
    let sha256 ← dictGet file.2 "sha256"
    let size ← dictGet file.2 "size_bytes"
    return check (isText (hexDigest lib data) sha256) (text "hash mismatch: " ++ file.1) ++
      check (size.any (equals (.int data.size))) (text "size mismatch: " ++ file.1)

end

/-! A check without errors has passed. -/

@[simp] theorem check_eq_nil {passed : Bool} {message : Text} :
    check passed message = [] ↔ passed = true := by
  cases passed <;> simp [check]

@[simp] theorem each_eq_nil {message : String} {found : List Text} :
    each message found = [] ↔ found = [] := by
  rw [each, List.map_eq_nil_iff, sortedNames, ← List.length_eq_zero_iff, List.length_insertionSort,
    List.length_eq_zero_iff, List.dedup_eq_nil]

@[simp] theorem without_eq_nil {found others : List Text} :
    without found others = [] ↔ ∀ name ∈ found, name ∈ others := by
  simp [without]

theorem collect_eq_nil {α : Type} {f : α → Except Raised (List Text)} {items : List α} :
    collect f items = .ok [] ↔ ∀ x ∈ items, f x = .ok [] := by
  induction items with
  | nil => simp [collect]
  | cons x xs ih =>
    rw [collect, List.forall_mem_cons, ← ih]
    cases f x with
    | error exc => simp [bind, Except.bind]
    | ok errors =>
      cases collect f xs with
      | error exc => simp [bind, Except.bind]
      | ok more => simp [bind, Except.bind, pure, Except.pure]

theorem isText_iff {t : Text} {value : Option Raw} :
    isText t value = true ↔ value = some (.str t) := by
  unfold isText
  split <;> simp_all

theorem dictGet_eq_ok {value : Raw} {name : String} {found : Option Raw} :
    dictGet value name = .ok found ↔
      ∃ members, value = .obj members ∧ member (text name) members = found := by
  cases value <;> simp [dictGet]

theorem canonical_eq_ok {value : Raw} {bytes : ByteArray} :
    canonical value = .ok bytes ↔ canonicalJsonBytes value = some bytes := by
  unfold canonical
  cases canonicalJsonBytes value <;> simp

theorem mem_names {archive : Archive} {name : Text} :
    name ∈ names archive ↔ ∃ m ∈ archive, m.name = name := by
  rw [names, List.mem_map]

theorem mem_names_of_read {archive : Archive} {name : Text} {data : ByteArray}
    (found : read archive name = .ok data) : name ∈ names archive := by
  unfold read at found
  split at found
  next m at_ =>
    have same := List.find?_some at_
    exact mem_names.mpr ⟨m, List.mem_reverse.mp (List.mem_of_find?_eq_some at_), by simpa using same⟩
  next => cases found

theorem hexDigit_injective : ∀ m < 16, ∀ n < 16, ofChar (Json.hexDigit m) = ofChar (Json.hexDigit n) → m = n := by
  decide

theorem hexOf_injective : Function.Injective hexOf := by
  intro a b same
  induction a generalizing b with
  | nil =>
    cases b with
    | nil => rfl
    | cons y ys => cases same
  | cons x xs ih =>
    cases b with
    | nil => cases same
    | cons y ys =>
      simp only [hexOf, List.flatMap_cons, List.cons_append, List.nil_append, List.cons.injEq] at same
      obtain ⟨high, low, rest⟩ := same
      have bound : ∀ c : UInt8, c.toNat < 256 := fun c => c.toNat_lt
      have high := hexDigit_injective _ (by have := bound x; omega) _ (by have := bound y; omega) high
      have low := hexDigit_injective _ (by omega) _ (by omega) low
      have head : x = y := UInt8.toNat_inj.mp (by omega)
      rw [head, ih rest]

theorem hexDigest_injective {lib : Platform} (injective : Function.Injective lib.sha256) :
    Function.Injective (hexDigest lib) := by
  intro a b same
  exact injective (ByteArray.ext (Array.toList_inj.mp (hexOf_injective same)))

theorem decodeUtf8_toUTF8 (s : String) : decodeUtf8 s.toUTF8 = .ok (text s) := by
  rw [decodeUtf8, JsonLoads.fromUTF8?_toUTF8, Option.elim_some]

theorem names_written (members : List (Text × ByteArray)) :
    names (written members) = members.map Prod.fst := by
  rw [names, written, List.map_map]
  rfl

theorem read_written {members : List (Text × ByteArray)} (unique : (members.map Prod.fst).Nodup)
    {name : Text} {data : ByteArray} (mem : (name, data) ∈ members) :
    read (written members) name = .ok data := by
  have listed : (⟨name, .ok data⟩ : Member) ∈ (written members).reverse :=
    List.mem_reverse.mpr (List.mem_map.mpr ⟨(name, data), mem, rfl⟩)
  unfold read
  cases found : (written members).reverse.find? fun m => m.name = name with
  | none =>
    have none := List.find?_eq_none.mp found _ listed
    simp at none
  | some m =>
    have same : m.name = name := by simpa using List.find?_some found
    obtain ⟨⟨other, content⟩, memOther, rfl⟩ :=
      List.mem_map.mp (List.mem_reverse.mp (List.mem_of_find?_eq_some found))
    have one := List.inj_on_of_nodup_map unique memOther mem same
    cases one
    rfl

theorem readIfPresent_written {members : List (Text × ByteArray)} (unique : (members.map Prod.fst).Nodup)
    (name : Text) : ∃ found, readIfPresent (written members) name = .ok found := by
  rw [readIfPresent]
  split
  next present =>
    rw [names_written, List.mem_map] at present
    obtain ⟨m, mem, rfl⟩ := present
    rw [read_written unique mem]
    exact ⟨_, rfl⟩
  next => exact ⟨_, rfl⟩

theorem trustedKey_eq_some {lib : Platform} {keys : List ByteArray} {print : Text} {key : ByteArray}
    (found : trustedKey lib keys print = some key) : key ∈ keys ∧ fingerprint lib key = print :=
  ⟨List.mem_reverse.mp (List.mem_of_find?_eq_some found), by simpa using List.find?_some found⟩

/-- The key that a signature was checked with: the explicit one, or one of the
trust store whose fingerprint is not revoked and is that of the embedded key. -/
inductive Trusted (lib : Platform) (explicitKey : Option ByteArray) (trust : Trust)
    (embedded : Option ByteArray) (key : ByteArray) : Prop where
  | explicit (given : explicitKey = some key)
  | stored (none : explicitKey = none) (keys : List ByteArray) (revoked : List Text)
    (carried : ByteArray)
    (loaded : loadTrustStore (trust.store (resolveTrustStoreDir trust)) = .ok keys)
    (listed : loadRevoked lib (trust.store (resolveTrustStoreDir trust)) = .ok revoked)
    (named : embedded = some carried) (mem : key ∈ keys)
    (same : fingerprint lib key = fingerprint lib carried) (valid : fingerprint lib key ∉ revoked)

theorem resolveEmbedded_eq_ok {lib : Platform} {store : TrustStore} {keys : List ByteArray}
    {embedded key : ByteArray} {resolution : TrustResolution}
    (resolved : resolveEmbedded lib store keys embedded = .ok resolution)
    (found : resolution.keyBytes = some key) :
    ∃ revoked, loadRevoked lib store = .ok revoked ∧ fingerprint lib embedded ∉ revoked ∧
      trustedKey lib keys (fingerprint lib embedded) = some key ∧
      resolution = ⟨some key, some (fingerprint lib embedded), some .trustStore, []⟩ := by
  rw [resolveEmbedded, bind_eq_ok] at resolved
  obtain ⟨revoked, loaded, resolved⟩ := resolved
  split at resolved
  next =>
    cases resolved
    cases found
  next valid =>
    split at resolved
    next =>
      cases resolved
      cases found
    next stored known =>
      cases resolved
      cases found
      exact ⟨revoked, loaded, valid, known, rfl⟩

theorem resolveTrustedKey_sound {lib : Platform} {explicitKey : Option ByteArray} {trust : Trust}
    {embedded : Option ByteArray} {resolution : TrustResolution} {key : ByteArray}
    (resolved : resolveTrustedKey lib explicitKey trust embedded = .ok resolution)
    (found : resolution.keyBytes = some key) :
    Trusted lib explicitKey trust embedded key ∧
      resolution.fingerprint = some (fingerprint lib key) ∧ resolution.errors = [] := by
  unfold resolveTrustedKey at resolved
  split at resolved
  next given =>
    cases resolved
    cases found
    exact ⟨.explicit rfl, rfl, rfl⟩
  next =>
    rw [bind_eq_ok] at resolved
    obtain ⟨keys, loaded, resolved⟩ := resolved
    split at resolved
    next =>
      cases resolved
      cases found
    next =>
      split at resolved
      next =>
        cases resolved
        cases found
      next carried =>
        obtain ⟨revoked, listed, valid, known, rfl⟩ := resolveEmbedded_eq_ok resolved found
        obtain ⟨mem, same⟩ := trustedKey_eq_some known
        rw [← same] at valid
        exact ⟨.stored rfl keys revoked carried loaded listed rfl mem same valid, by rw [same], rfl⟩

theorem resolveTrustedKey_key {lib : Platform} {explicitKey : Option ByteArray} {trust : Trust}
    {embedded : Option ByteArray} {resolution : TrustResolution}
    (resolved : resolveTrustedKey lib explicitKey trust embedded = .ok resolution)
    (clean : resolution.errors = []) : ∃ key, resolution.keyBytes = some key := by
  unfold resolveTrustedKey at resolved
  split at resolved
  next => cases resolved; exact ⟨_, rfl⟩
  next =>
    rw [bind_eq_ok] at resolved
    obtain ⟨keys, _, resolved⟩ := resolved
    split at resolved
    next => cases resolved; cases clean
    next =>
      split at resolved
      next => cases resolved; cases clean
      next =>
        rw [resolveEmbedded, bind_eq_ok] at resolved
        obtain ⟨revoked, _, resolved⟩ := resolved
        split at resolved
        next => cases resolved; cases clean
        next =>
          split at resolved
          next => cases resolved; cases clean
          next => cases resolved; exact ⟨_, rfl⟩

theorem ok_bind {ε α β : Type} (a : α) (f : α → Except ε β) : (Except.ok a >>= f) = f a := rfl

def Stored (lib : Platform) (archive : Archive) (file : Text × Raw) : Prop :=
  ∃ detail data size, file.2 = .obj detail ∧ read archive file.1 = .ok data ∧
    member (text "sha256") detail = some (.str (hexDigest lib data)) ∧
    member (text "size_bytes") detail = some size ∧ equals (.int data.size) size = true

theorem fileErrors_eq_nil {lib : Platform} {archive : Archive} {file : Text × Raw} :
    fileErrors lib archive file = .ok [] ↔ Stored lib archive file := by
  constructor
  · intro clean
    unfold fileErrors at clean
    split at clean
    next => cases clean
    next =>
      rw [bind_eq_ok] at clean
      obtain ⟨data, dataRead, clean⟩ := clean
      rw [bind_eq_ok] at clean
      obtain ⟨digest, digestGet, clean⟩ := clean
      rw [bind_eq_ok] at clean
      obtain ⟨size, sizeGet, clean⟩ := clean
      have clean := Except.ok.inj clean
      rw [List.append_eq_nil_iff, check_eq_nil, check_eq_nil, isText_iff, Option.any_eq_true] at clean
      obtain ⟨known, value, found, same⟩ := clean
      obtain ⟨detail, form, digestFound⟩ := dictGet_eq_ok.mp digestGet
      obtain ⟨detail', form', sizeFound⟩ := dictGet_eq_ok.mp sizeGet
      cases form.symm.trans form'
      exact ⟨detail, data, value, form, dataRead, digestFound.trans known, sizeFound.trans found, same⟩
  · rintro ⟨detail, data, size, form, dataRead, digest, sizeFound, same⟩
    have present := mem_names_of_read dataRead
    rw [fileErrors, if_neg (not_not_intro present), dataRead, ok_bind, form]
    simp only [dictGet, digest, sizeFound, ok_bind, Option.any_some, same]
    rw [isText_iff.mpr rfl]
    rfl

theorem rsaErrors_eq_nil {lib : Platform} {key message : ByteArray} {signature : Except Raised ByteArray}
    {notRsa mismatch : String} : rsaErrors lib key message signature notRsa mismatch = .ok [] ↔
      ∃ loaded, lib.loadPemPublicKey key = .ok loaded ∧ lib.isRsa loaded = true ∧
        (signature >>= lib.verifyPss loaded (lib.sha256 message)) = .ok () := by
  rw [rsaErrors, bind_eq_ok]
  refine exists_congr fun loaded => and_congr_right fun _ => ?_
  cases rsa : lib.isRsa loaded with
  | false => simp [pure, Except.pure]
  | true =>
    simp only [Bool.not_true, Bool.false_eq_true, if_false, true_and]
    cases signature >>= lib.verifyPss loaded (lib.sha256 message) with
    | ok _ => simp [pure, Except.pure]
    | error exc =>
      simp only [reduceCtorEq, iff_false]
      split <;> simp [pure, Except.pure]

theorem resolvedErrors_eq_nil {lib : Platform} {archive : Archive} {resolution : TrustResolution}
    {message : ByteArray} {signatureName : Text} {notRsa mismatch missing : String} :
    resolvedErrors lib archive resolution message signatureName notRsa mismatch missing = .ok [] ↔
      ∃ key, resolution.keyBytes = some key ∧
        rsaErrors lib key message (read archive signatureName) notRsa mismatch = .ok [] := by
  unfold resolvedErrors
  split <;> simp_all

/-! A platform that knows the digests of some inputs. -/

def tableHash (table : List (ByteArray × List UInt8)) (bytes : ByteArray) : ByteArray :=
  match table.find? fun row => row.1 = bytes with
  | some row => row.2.toByteArray
  | none => (List.replicate 33 0 ++ bytes.data.toList).toByteArray

theorem toByteArray_injective {a b : List UInt8} (equal : a.toByteArray = b.toByteArray) : a = b := by
  rw [← List.toList_data_toByteArray (l := a), equal, List.toList_data_toByteArray]

theorem tableHash_injective {table : List (ByteArray × List UInt8)}
    (apart : (table.map Prod.snd).Nodup) (short : ∀ row ∈ table, row.2.length = 32) :
    Function.Injective (tableHash table) := by
  have other : ∀ row ∈ table, ∀ b : ByteArray, row.2 ≠ List.replicate 33 0 ++ b.data.toList := by
    intro row mem b same
    have lengths := congrArg List.length same
    rw [short row mem, List.length_append, List.length_replicate] at lengths
    omega
  intro a b equal
  unfold tableHash at equal
  split at equal
  next row foundA =>
    have memA := List.mem_of_find?_eq_some foundA
    split at equal
    next row' foundB =>
      have same := List.inj_on_of_nodup_map apart memA (List.mem_of_find?_eq_some foundB)
        (toByteArray_injective equal)
      have keyA := List.find?_some foundA
      have keyB := List.find?_some foundB
      rw [decide_eq_true_eq] at keyA keyB
      rw [← keyA, ← keyB, same]
    next => exact absurd (toByteArray_injective equal) (other row memA b)
  next =>
    split at equal
    next row foundB =>
      exact absurd (toByteArray_injective equal).symm (other row (List.mem_of_find?_eq_some foundB) a)
    next =>
      exact ByteArray.ext (Array.toList_inj.mp (List.append_cancel_left (toByteArray_injective equal)))

theorem tableHash_first (a : ByteArray) (x : List UInt8) (rest : List (ByteArray × List UInt8)) :
    tableHash ((a, x) :: rest) a = x.toByteArray := by
  rw [tableHash, List.find?_cons_of_pos (by simp)]

theorem tableHash_rest {a b : ByteArray} (other : a ≠ b) (x : List UInt8)
    (rest : List (ByteArray × List UInt8)) : tableHash ((a, x) :: rest) b = tableHash rest b := by
  rw [tableHash, List.find?_cons_of_neg (by simpa using other), tableHash]

def tablePlatform (table : List (ByteArray × List UInt8))
    (valid : ByteArray → ByteArray → ByteArray → Bool) : Platform where
  float _ := ("NaN", none)
  decodeOther _ := .error .unicodeDecodeError
  sha256 := tableHash table
  Key := ByteArray
  loadPemPublicKey := .ok
  isRsa _ := true
  verifyPss key digest signature :=
    if valid key digest signature then .ok () else .error ⟨.invalidSignature, text "InvalidSignature", []⟩
  printable _ := true
  intOfText _ := none

theorem tablePlatform_verify (table : List (ByteArray × List UInt8))
    {valid : ByteArray → ByteArray → ByteArray → Bool} {key digest signature : ByteArray} :
    (tablePlatform table valid).verifyPss key digest signature = .ok () ↔
      valid key digest signature = true := by
  change (if valid key digest signature = true then Except.ok () else _) = Except.ok () ↔ _
  split
  next known => simp [known]
  next other => simp [other]

end Mirage.SignedPackage
