import AuditGateway.Framework.Transition
import AuditGateway.Go.Strings

/-!
# The identity resolver and its caches

`Resolver.Resolve` of `internal/identity`: the snapshot of a token is taken from
Redis, then from the table `token_identity_cache`, and from the token database
if neither has it. A hit in one cache writes the snapshot to the other one
(`ChainCache.Get`), with a new expiry.

A call comes with what happens during each of its operations (`Tick`): the time
that passes, the entries that are evicted meanwhile, and whether the operation
fails, with or without its effect. `World.log` keeps the answers of the token
database and the writes to the caches, newest first.
-/

namespace AuditGateway.Identity

open AuditGateway.Framework

/-! ## Tokens and snapshots -/

structure NewAPIToken where
  tokenID : Int
  tokenName : String
  username : String
  tokenStatus : Int
  tokenGroup : String
  expiredTime : Int
  accessedTime : Int
  remainQuota : Int
  usedQuota : Int
  unlimitedQuota : Bool
  modelLimitsEnabled : Bool
  modelLimits : String
deriving DecidableEq, Repr

/-- The zero value. -/
def NewAPIToken.zero : NewAPIToken :=
  ⟨0, "", "", 0, "", 0, 0, 0, 0, false, false, ""⟩

inductive ResolutionStatus
  | resolved
  | dbError
  | notFound
deriving DecidableEq, Repr

inductive IdentityCacheStatus
  | hit
  | missDBLookup
  | cacheError
deriving DecidableEq, Repr

/-- A `Snapshot`; the fields it copies from the token are kept together. -/
structure Snapshot where
  tokenFingerprint : String
  fingerprintDisplay : String
  token : NewAPIToken
  resolutionStatus : ResolutionStatus
  identityCacheStatus : IdentityCacheStatus
deriving DecidableEq, Repr

/-! ## The caches -/

inductive Layer
  | redis
  | postgres
deriving DecidableEq, Repr

inductive CacheError
  | fingerprintRequired
  | unavailable
deriving DecidableEq, Repr

def redisIdentityKey (fingerprint : String) : Except CacheError String :=
  if Go.Text.trimSpace fingerprint = "" then .error .fingerprintRequired else .ok ("identity:" ++ fingerprint)

/-- The key under which a layer keeps the snapshot of a fingerprint. -/
def Layer.key : Layer → String → Except CacheError String
  | .redis, fingerprint => redisIdentityKey fingerprint
  | .postgres, fingerprint => .ok fingerprint

/-- What a layer makes of the snapshot it has kept: Redis keeps it whole, the table has no columns
for the two statuses. -/
def Layer.restore (fingerprint : String) : Layer → Snapshot → Snapshot
  | .redis, snapshot => snapshot
  | .postgres, snapshot =>
    { snapshot with
      tokenFingerprint := fingerprint
      resolutionStatus := .resolved
      identityCacheStatus := .hit }

/-- `15 * time.Minute`, in nanoseconds. -/
def defaultTTL : Int := 15 * 60 * 1000000000

structure Config where
  redisTTL : Int
  postgresTTL : Int
deriving DecidableEq, Repr

def Config.ttl (cfg : Config) (layer : Layer) : Int :=
  let ttl := match layer with
    | .redis => cfg.redisTTL
    | .postgres => cfg.postgresTTL
  if ttl ≤ 0 then defaultTTL else ttl

structure Entry where
  snapshot : Snapshot
  expiresAt : Int
deriving DecidableEq, Repr

/-- An answer of the token database, or a write to a cache. -/
inductive Event
  | lookup (time : Int) (canonicalKey fingerprint : String) (token : NewAPIToken)
  | write (time : Int) (layer : Layer) (snapshot : Snapshot)
deriving DecidableEq, Repr

structure World where
  now : Int
  store : Layer → String → Option Entry
  log : List Event

/-- How an operation ends: with its effect, or with an error, before or after it. -/
inductive Outcome
  | done
  | lost
  | unanswered
deriving DecidableEq, Repr

/-- What happens during an operation. -/
structure Tick where
  delay : Nat
  evicted : Layer → String → Bool
  outcome : Outcome

/-- The operations of a call; none of them is done twice. -/
inductive Operation
  | get (layer : Layer)
  | set (layer : Layer)
  | lookup
deriving DecidableEq, Repr

structure Call where
  canonicalKey : String
  fingerprintValue : String
  fingerprintDisplay : String
  tick : Operation → Tick
  /-- The token database at the time of the lookup. -/
  tokens : String → Option NewAPIToken

/-- Time passes, and entries are evicted. -/
def World.elapse (w : World) (tick : Tick) : World :=
  { w with
    now := w.now + tick.delay
    store := fun layer key => if tick.evicted layer key then none else w.store layer key }

/-- The snapshot under a key, unless it has expired. -/
def World.live (w : World) (layer : Layer) (key : String) : Option Snapshot :=
  match w.store layer key with
  | some entry => if w.now < entry.expiresAt then some entry.snapshot else none
  | none => none

def World.put (cfg : Config) (w : World) (layer : Layer) (key : String) (snapshot : Snapshot) : World :=
  { w with
    store := fun layer' key' =>
      if layer' = layer ∧ key' = key then some ⟨snapshot, w.now + cfg.ttl layer⟩ else w.store layer' key'
    log := .write w.now layer snapshot :: w.log }

section Resolve

variable (cfg : Config) (call : Call)

/-- `Get` of one cache. -/
def cacheGet (layer : Layer) (fingerprint : String) (w : World) :
    Except CacheError (Option Snapshot) × World :=
  match layer.key fingerprint with
  | .error e => (.error e, w)
  | .ok key =>
    let tick := call.tick (.get layer)
    let w := w.elapse tick
    match tick.outcome with
    | .done => (.ok ((w.live layer key).map (layer.restore fingerprint)), w)
    | _ => (.error .unavailable, w)

/-- `Set` of one cache. -/
def cacheSet (layer : Layer) (snapshot : Snapshot) (w : World) : Except CacheError Unit × World :=
  match layer.key snapshot.tokenFingerprint with
  | .error e => (.error e, w)
  | .ok key =>
    let tick := call.tick (.set layer)
    let w := w.elapse tick
    match tick.outcome with
    | .done => (.ok (), w.put cfg layer key snapshot)
    | .lost => (.error .unavailable, w)
    | .unanswered => (.error .unavailable, w.put cfg layer key snapshot)

/-- `ChainCache.Set`: all the layers are written, and the first error is returned. -/
def chainSet (snapshot : Snapshot) : List Layer → World → Except CacheError Unit × World
  | [], w => (.ok (), w)
  | layer :: layers, w =>
    let (result, w) := cacheSet cfg call layer snapshot w
    let (results, w) := chainSet snapshot layers w
    (result.bind fun _ => results, w)

/-- The loop of `ChainCache.Get`, over the layers that are left; a hit is written to all the other
layers of the chain, and their errors are dropped. -/
def chainGet (chain : List Layer) (fingerprint : String) :
    List Layer → Option CacheError → World → Except CacheError (Option Snapshot) × World
  | [], none, w => (.ok none, w)
  | [], some firstErr, w => (.error firstErr, w)
  | layer :: layers, firstErr, w =>
    match cacheGet call layer fingerprint w with
    | (.error e, w) => chainGet chain fingerprint layers (firstErr <|> some e) w
    | (.ok none, w) => chainGet chain fingerprint layers firstErr w
    | (.ok (some snapshot), w) =>
      (.ok (some snapshot), (chainSet cfg call snapshot (chain.filter (· ≠ layer)) w).2)

/-- The layers, in the order in which they are asked. -/
def caches : List Layer := [.redis, .postgres]

/-- `FindByCanonicalKey`. -/
def findByCanonicalKey (w : World) : Except ResolutionStatus NewAPIToken × World :=
  let tick := call.tick .lookup
  let w := w.elapse tick
  match tick.outcome, call.tokens call.canonicalKey with
  | .done, some token =>
    (.ok token, { w with log := .lookup w.now call.canonicalKey call.fingerprintValue token :: w.log })
  | .done, none => (.error .notFound, w)
  | _, _ => (.error .dbError, w)

/-- The part of `Resolve` after a miss: the token database is asked, and its answer is cached. -/
def resolveMiss (cacheStatus : IdentityCacheStatus) (w : World) : Snapshot × World :=
  match findByCanonicalKey call w with
  | (.error status, w) =>
    (⟨call.fingerprintValue, call.fingerprintDisplay, .zero, status, cacheStatus⟩, w)
  | (.ok token, w) =>
    let snapshot : Snapshot :=
      ⟨call.fingerprintValue, call.fingerprintDisplay, token, .resolved, cacheStatus⟩
    (snapshot, (chainSet cfg call snapshot caches w).2)

/-- `Resolver.Resolve`. -/
def resolve (w : World) : Snapshot × World :=
  match chainGet cfg call caches call.fingerprintValue caches none w with
  | (.ok (some cached), w) => ({ cached with identityCacheStatus := .hit }, w)
  | (.ok none, w) => resolveMiss cfg call .missDBLookup w
  | (.error _, w) => resolveMiss cfg call .cacheError w

end Resolve

end AuditGateway.Identity
