import Mirage.AgentDatabase
import Mirage.EventRun
import Mathlib.Logic.Function.Basic

/-! `/route` of mirage-api's app.py with the in-memory cache of routing.py. -/

namespace Mirage.RouteAdmission
open EventRun AgentDatabase

def routeCacheTtl : Int := 1000000000

structure CacheEntry where
  target : String
  cachedAt : Int

/-- `RouteCache._entries`. -/
abbrev RouteCache := String → Option CacheEntry

/-- `RouteCache.get`: the target, and the entries without an expired one. -/
def RouteCache.get (cache : RouteCache) (now : Int) (matchKey : String) : Option String × RouteCache :=
  match cache matchKey with
  | none => (none, cache)
  | some entry =>
    if routeCacheTtl < now - entry.cachedAt then (none, Function.update cache matchKey none)
    else (some entry.target, cache)

def RouteCache.set (cache : RouteCache) (now : Int) (matchKey target : String) : RouteCache :=
  Function.update cache matchKey (some ⟨target, now⟩)

structure Request where
  proxyAuth : Option String
  clientSerial : Option String
  matchKey : String

/-- `require_client_certificate_serial`, where 401 is none. -/
def requireClientCertificateSerial (expectedProxySecret : String) (r : Request) : Option String :=
  match r.proxyAuth, r.clientSerial with
  | some secret, some serial =>
    if secret = "" || secret ≠ expectedProxySecret || serial = "" then none else some serial
  | _, _ => none

def admits (agents : List AgentRow) (serial : String) : Bool :=
  (agents.find? fun r => r.certificateSerial = serial).any fun r =>
    r.status = .active && (r.role = .brokerClient || r.role = .internalControl)

inductive Phase where
  | missed
  | checked
  | over

structure Pending where
  serial : String
  matchKey : String
  phase : Phase

structure Answer where
  serial : String
  matchKey : String
  upstream : String
  cached : Bool
  admitted : Bool

structure World where
  agents : List AgentRow
  cache : RouteCache
  now : Int
  pending : List Pending
  answers : List Answer

inductive Event where
  | request (r : Request)
  | check (i : ℕ)
  /-- `resolve_route` answered with this target, and its transaction is committed. -/
  | resolved (i : ℕ) (target : String)
  | fail (i : ℕ)
  | change (agents : List AgentRow)
  | tick (elapsed : ℕ)

section
variable (expectedProxySecret : String)

def start (agents : List AgentRow) : World := ⟨agents, fun _ => none, 0, [], []⟩

def answer (w : World) (serial matchKey upstream : String) (cached : Bool) : World :=
  { w with answers := w.answers ++ [⟨serial, matchKey, upstream, cached, admits w.agents serial⟩] }

def request (w : World) (r : Request) : World :=
  match requireClientCertificateSerial expectedProxySecret r with
  | none => w
  | some serial =>
    match w.cache.get w.now r.matchKey with
    | (some target, cache) => answer { w with cache } serial r.matchKey target true
    | (none, cache) => { w with cache, pending := w.pending ++ [⟨serial, r.matchKey, .missed⟩] }

def step (w : World) : Event → World
  | .request r => request expectedProxySecret w r
  | .check i => match w.pending[i]? with
    | some ⟨serial, matchKey, .missed⟩ =>
      let phase := if admits w.agents serial then Phase.checked else .over
      { w with pending := w.pending.set i ⟨serial, matchKey, phase⟩ }
    | _ => w
  | .resolved i target => match w.pending[i]? with
    | some ⟨serial, matchKey, .checked⟩ =>
      answer { w with
        pending := w.pending.set i ⟨serial, matchKey, .over⟩
        cache := w.cache.set w.now matchKey target } serial matchKey target false
    | _ => w
  | .fail i => match w.pending[i]? with
    | some p => { w with pending := w.pending.set i { p with phase := .over } }
    | none => w
  | .change agents => { w with agents }
  | .tick elapsed => { w with now := w.now + elapsed }

def OnlyActiveBrokers (w : World) : Prop := ∀ a ∈ w.answers, a.admitted = true

/-- A request that hits the cache comes from an active broker, and a caller that was checked still is one
when its route is resolved. -/
def admitted (w : World) : Event → Prop
  | .request r => ∀ serial target, requireClientCertificateSerial expectedProxySecret r = some serial →
      (w.cache.get w.now r.matchKey).1 = some target → admits w.agents serial = true
  | .resolved i _ => ∀ serial matchKey, w.pending[i]? = some ⟨serial, matchKey, .checked⟩ →
      admits w.agents serial = true
  | _ => True

end

section
variable {expectedProxySecret : String} {w : World}

theorem answer_exact (known : OnlyActiveBrokers w) (serial matchKey upstream : String) (cached : Bool) :
    OnlyActiveBrokers (answer w serial matchKey upstream cached) ↔ admits w.agents serial = true := by
  constructor
  · exact fun after => after _ (List.mem_append_right _ List.mem_cons_self)
  · intro active a mem
    rcases List.mem_append.mp mem with old | new
    · exact known a old
    · rw [List.mem_singleton.mp new]
      exact active

theorem request_exact (known : OnlyActiveBrokers w) (r : Request) :
    OnlyActiveBrokers (request expectedProxySecret w r) ↔ admitted expectedProxySecret w (.request r) := by
  rw [request, admitted]
  split
  · rename_i refused
    refine iff_of_true known fun serial target identified => ?_
    rw [refused] at identified
    cases identified
  rename_i serial identified
  split
  · rename_i target cache hit
    rw [answer_exact (w := { w with cache }) known]
    constructor
    · intro active serial' target' identified' _
      cases identified.symm.trans identified'
      exact active
    · exact fun ok => ok serial target identified (congrArg Prod.fst hit)
  · rename_i cache miss
    refine iff_of_true known fun serial' target _ hit => ?_
    rw [miss] at hit
    cases hit

theorem step_exact (known : OnlyActiveBrokers w) (e : Event) :
    OnlyActiveBrokers (step expectedProxySecret w e) ↔ admitted expectedProxySecret w e := by
  cases e with
  | request r => exact request_exact known r
  | check i =>
    refine iff_of_true ?_ trivial
    rw [step]
    split
    · exact known
    · exact known
  | resolved i target =>
    rw [step, admitted]
    split
    · rename_i serial matchKey checked
      rw [answer_exact (w := { w with
        pending := w.pending.set i ⟨serial, matchKey, .over⟩
        cache := w.cache.set w.now matchKey target }) known]
      constructor
      · intro active serial' matchKey' checked'
        cases checked.symm.trans checked'
        exact active
      · exact fun ok => ok serial matchKey checked
    · rename_i other
      exact iff_of_true known fun serial matchKey checked => absurd checked (other serial matchKey)
  | fail i =>
    refine iff_of_true ?_ trivial
    rw [step]
    split
    · exact known
    · exact known
  | change agents => exact iff_of_true known trivial
  | tick elapsed => exact iff_of_true known trivial

end

end Mirage.RouteAdmission
