import Mathlib.Algebra.Order.Ring.Int
import AuditGateway.Identity.Resolver

/-!
# How old a cached identity can be

Every entry of a cache comes from a write of the log (`Sourced`), and expires its
TTL after that write. The data of a hit is therefore as old as the write was, and
at most one TTL older. `identity_staleness_bounded`: as long as what a cache serves is
at most the TTL of this cache old when it is written to the other one, a hit is at most
`R + P` old (`KeepsInTime`). Nothing in the code sees to that: a hit in one cache renews
the entry of the other (`alternating_hits_outlive`), and until it expires an entry is
served, however old it is (`live_entry_served`).
-/

namespace AuditGateway.Identity

open AuditGateway.Framework

variable {cfg : Config} {call : Call} {w w' : World}

/-! ## Answers of the token database -/

/-- The event is an answer with this data, not older than `since`. -/
def Event.Answers (fingerprint : String) (token : NewAPIToken) (since : Int) : Event → Prop
  | .lookup time _ fingerprint' token' => fingerprint' = fingerprint ∧ token' = token ∧ since ≤ time
  | .write .. => False

instance (fingerprint : String) (token : NewAPIToken) (since : Int) :
    DecidablePred (Event.Answers fingerprint token since)
  | .lookup .. => inferInstanceAs (Decidable (_ ∧ _))
  | .write .. => inferInstanceAs (Decidable False)

/-- The token database answered with this data at `since` or later. -/
def Answered (log : List Event) (fingerprint : String) (token : NewAPIToken) (since : Int) : Prop :=
  ∃ event ∈ log, event.Answers fingerprint token since

instance (log : List Event) (fingerprint : String) (token : NewAPIToken) (since : Int) :
    Decidable (Answered log fingerprint token since) :=
  inferInstanceAs (Decidable (∃ event ∈ log, _))

variable {fingerprint : String}

theorem Answered.mono {log log' : List Event} {token : NewAPIToken} {since since' : Int}
    (h : Answered log fingerprint token since) (hlog : log ⊆ log') (hsince : since' ≤ since) :
    Answered log' fingerprint token since' := by
  obtain ⟨event, hmem, hanswers⟩ := h
  refine ⟨event, hlog hmem, ?_⟩
  cases event with
  | lookup => exact ⟨hanswers.1, hanswers.2.1, hsince.trans hanswers.2.2⟩
  | write => exact hanswers

/-- The bound on the age of a hit. -/
def Config.bound (cfg : Config) : Int :=
  cfg.ttl .redis + cfg.ttl .postgres

/-- Every write is in time: before it, the token database answered with the data written, and the
entry does not outlive the bound from that answer on. -/
def WritesInTime (cfg : Config) : List Event → Prop
  | [] => True
  | .lookup .. :: log => WritesInTime cfg log
  | .write time layer snapshot :: log =>
    Answered log snapshot.tokenFingerprint snapshot.token (time + cfg.ttl layer - cfg.bound) ∧
      WritesInTime cfg log

variable {snapshot : Snapshot} {layer : Layer}

theorem WritesInTime.answered {log : List Event} {time : Int}
    (h : WritesInTime cfg log) (hmem : .write time layer snapshot ∈ log) :
    Answered log snapshot.tokenFingerprint snapshot.token (time + cfg.ttl layer - cfg.bound) := by
  induction log with
  | nil => cases hmem
  | cons event log ih =>
    have hlog : log ⊆ event :: log := List.subset_cons_self _ _
    obtain rfl | hmem' := List.mem_cons.1 hmem
    · exact h.1.mono hlog le_rfl
    · cases event with
      | lookup => exact (ih h hmem').mono hlog le_rfl
      | write => exact (ih h.2 hmem').mono hlog le_rfl

/-! ## What the operations do -/

/-- Every entry comes from a write, under the key of its fingerprint, and expires its TTL later. -/
def Sourced (cfg : Config) (w : World) : Prop :=
  ∀ layer key entry, w.store layer key = some entry →
    layer.key entry.snapshot.tokenFingerprint = .ok key ∧
      ∃ time, .write time layer entry.snapshot ∈ w.log ∧ entry.expiresAt = time + cfg.ttl layer

/-- The clock and the log go forward, and the entries keep their sources. -/
structure Evolves (cfg : Config) (w w' : World) : Prop where
  now : w.now ≤ w'.now
  log : w.log ⊆ w'.log
  sourced : Sourced cfg w → Sourced cfg w'

theorem Evolves.refl (w : World) : Evolves cfg w w :=
  ⟨le_rfl, List.Subset.refl _, id⟩

theorem Evolves.trans {w'' : World} (h : Evolves cfg w w') (h' : Evolves cfg w' w'') : Evolves cfg w w'' :=
  ⟨h.now.trans h'.now, List.Subset.trans h.log h'.log, h'.sourced ∘ h.sourced⟩

theorem elapse_evolves (cfg : Config) (w : World) (tick : Tick) : Evolves cfg w (w.elapse tick) := by
  refine ⟨?_, List.Subset.refl _, fun h layer key entry hentry => ?_⟩
  · simp [World.elapse]
  · simp only [World.elapse] at hentry
    split at hentry
    · cases hentry
    · exact h layer key entry hentry

theorem put_evolves {key : String} (w : World)
    (hkey : layer.key snapshot.tokenFingerprint = .ok key) :
    Evolves cfg w (w.put cfg layer key snapshot) := by
  refine ⟨le_rfl, List.subset_cons_self _ _, fun h layer' key' entry hentry => ?_⟩
  simp only [World.put] at hentry
  split at hentry
  next heq =>
    obtain ⟨rfl, rfl⟩ := heq
    obtain rfl := Option.some.inj hentry
    exact ⟨hkey, w.now, List.mem_cons_self, rfl⟩
  next =>
    obtain ⟨hkey', time, hmem, htime⟩ := h layer' key' entry hentry
    exact ⟨hkey', time, List.mem_cons_of_mem _ hmem, htime⟩

theorem cacheGet_evolves (cfg : Config) (call : Call) (layer : Layer) (fingerprint : String) (w : World) :
    Evolves cfg w (cacheGet call layer fingerprint w).2 ∧ (cacheGet call layer fingerprint w).2.log = w.log := by
  unfold cacheGet
  split
  · exact ⟨.refl w, rfl⟩
  · dsimp only
    split <;> exact ⟨elapse_evolves cfg w _, rfl⟩

theorem cacheSet_evolves (cfg : Config) (call : Call) (layer : Layer) (snapshot : Snapshot) (w : World) :
    Evolves cfg w (cacheSet cfg call layer snapshot w).2 := by
  unfold cacheSet
  split
  · exact .refl w
  next hkey =>
    dsimp only
    have helapse := elapse_evolves cfg w (call.tick (.set layer))
    split
    · exact helapse.trans (put_evolves _ hkey)
    · exact helapse
    · exact helapse.trans (put_evolves _ hkey)

theorem chainSet_evolves (cfg : Config) (call : Call) (snapshot : Snapshot) (layers : List Layer) (w : World) :
    Evolves cfg w (chainSet cfg call snapshot layers w).2 := by
  induction layers generalizing w with
  | nil => exact .refl w
  | cons layer layers ih => exact (cacheSet_evolves cfg call layer snapshot w).trans (ih _)

theorem findByCanonicalKey_evolves (cfg : Config) (call : Call) (w : World) :
    Evolves cfg w (findByCanonicalKey call w).2 := by
  have helapse := elapse_evolves cfg w (call.tick .lookup)
  unfold findByCanonicalKey
  dsimp only
  split
  · refine helapse.trans ⟨le_rfl, List.subset_cons_self _ _, fun h layer key entry hentry => ?_⟩
    obtain ⟨hkey, time, hmem, htime⟩ := h layer key entry hentry
    exact ⟨hkey, time, List.mem_cons_of_mem _ hmem, htime⟩
  · exact helapse
  · exact helapse

theorem resolveMiss_evolves (cfg : Config) (call : Call) (cacheStatus : IdentityCacheStatus) (w : World) :
    Evolves cfg w (resolveMiss cfg call cacheStatus w).2 := by
  have hfind := findByCanonicalKey_evolves cfg call w
  unfold resolveMiss
  split
  next heq => rwa [heq] at hfind
  next heq =>
    rw [heq] at hfind
    dsimp only at hfind ⊢
    exact hfind.trans (chainSet_evolves ..)

/-! ## Hits -/

theorem Layer.key_injective {a b key : String} (ha : layer.key a = .ok key)
    (hb : layer.key b = .ok key) : a = b := by
  cases layer with
  | redis =>
    simp only [Layer.key, redisIdentityKey] at ha hb
    split at ha <;> [cases ha; skip]
    split at hb <;> [cases hb; skip]
    have heq := congrArg String.toList (Except.ok.inj (ha.trans hb.symm))
    rw [String.toList_append, String.toList_append] at heq
    exact String.toList_inj.1 (List.append_cancel_left heq)
  | postgres =>
    simp only [Layer.key, Except.ok.injEq] at ha hb
    exact ha.trans hb.symm

theorem cacheGet_hit {w w₁ : World}
    (h : cacheGet call layer fingerprint w = (.ok (some snapshot), w₁)) :
    ∃ key entry, layer.key fingerprint = .ok key ∧ w₁.store layer key = some entry ∧
      w₁.now < entry.expiresAt ∧ snapshot = layer.restore fingerprint entry.snapshot := by
  unfold cacheGet at h
  split at h
  · cases h
  next key hkey =>
    dsimp only at h
    split at h
    · simp only [Prod.mk.injEq, Except.ok.injEq] at h
      obtain ⟨hlive, rfl⟩ := h
      obtain ⟨stored, hstored, rfl⟩ := Option.map_eq_some_iff.1 hlive
      unfold World.live at hstored
      split at hstored
      next entry hentry =>
        split at hstored
        next hnow =>
          obtain rfl := Option.some.inj hstored
          exact ⟨key, entry, hkey, hentry, hnow, rfl⟩
        · cases hstored
      · cases hstored
    · cases h

/-- What the caches serve to a call, and which of them, with the world after they have been read. -/
def served (call : Call) : List Layer → World → Option (Layer × Snapshot) × World
  | [], w => (none, w)
  | layer :: layers, w =>
    match cacheGet call layer call.fingerprintValue w with
    | (.ok (some snapshot), w) => (some (layer, snapshot), w)
    | (.ok none, w) | (.error _, w) => served call layers w

theorem served_evolves (cfg : Config) (call : Call) (layers : List Layer) (w : World) :
    Evolves cfg w (served call layers w).2 ∧ (served call layers w).2.log = w.log := by
  fun_induction served with
  | case1 w => exact ⟨.refl w, rfl⟩
  | case2 layer layers w snapshot w₁ hget =>
    have h := cacheGet_evolves cfg call layer call.fingerprintValue w
    rwa [hget] at h
  | case3 layer layers w w₁ hget ih | case4 layer layers w e w₁ hget ih =>
    have h := cacheGet_evolves cfg call layer call.fingerprintValue w
    rw [hget] at h
    exact ⟨h.1.trans ih.1, ih.2.trans h.2⟩

theorem served_hit {layers : List Layer} {w w₁ : World}
    (h : served call layers w = (some (layer, snapshot), w₁)) :
    ∃ key entry, layer.key call.fingerprintValue = .ok key ∧ w₁.store layer key = some entry ∧
      w₁.now < entry.expiresAt ∧ snapshot = layer.restore call.fingerprintValue entry.snapshot := by
  fun_induction served with
  | case1 => cases h
  | case2 layer' layers w snapshot' w₂ hget =>
    cases h
    exact cacheGet_hit hget
  | case3 layer layers w w₂ hget ih | case4 layer layers w e w₂ hget ih => exact ih h

theorem chainGet_served (cfg : Config) (call : Call) (chain layers : List Layer) (firstErr : Option CacheError)
    (w : World) :
    match served call layers w with
    | (some (layer, snapshot), w₁) => chainGet cfg call chain call.fingerprintValue layers firstErr w =
        (.ok (some snapshot), (chainSet cfg call snapshot (chain.filter (· ≠ layer)) w₁).2)
    | (none, w₁) => ∃ result, chainGet cfg call chain call.fingerprintValue layers firstErr w = (result, w₁) ∧
        ∀ snapshot, result ≠ .ok (some snapshot) := by
  induction layers generalizing firstErr w with
  | nil =>
    cases firstErr with
    | none => exact ⟨.ok none, rfl, fun _ h => by cases h⟩
    | some e => exact ⟨.error e, rfl, fun _ h => by cases h⟩
  | cons layer layers ih =>
    simp only [served, chainGet]
    cases hget : cacheGet call layer call.fingerprintValue w with
    | mk result w₁ =>
      obtain e | _ | snapshot := result
      · exact ih _ w₁
      · exact ih _ w₁
      · rfl

theorem resolveMiss_status (cacheStatus : IdentityCacheStatus) (w : World) :
    (resolveMiss cfg call cacheStatus w).1.identityCacheStatus = cacheStatus := by
  unfold resolveMiss
  split <;> rfl

theorem resolve_cases (cfg : Config) (call : Call) (w : World) :
    (∃ layer snapshot w₁, served call caches w = (some (layer, snapshot), w₁) ∧
      resolve cfg call w = ({ snapshot with identityCacheStatus := .hit },
        (chainSet cfg call snapshot (caches.filter (· ≠ layer)) w₁).2)) ∨
    ∃ w₁ status, served call caches w = (none, w₁) ∧ status ≠ .hit ∧
      resolve cfg call w = resolveMiss cfg call status w₁ := by
  have hget := chainGet_served cfg call caches caches none w
  unfold resolve
  cases hserved : served call caches w with
  | mk found w₁ =>
    rw [hserved] at hget
    obtain _ | ⟨layer, snapshot⟩ := found
    · obtain ⟨result, hresult, hnone⟩ := hget
      rw [hresult]
      obtain e | _ | snapshot := result
      · exact .inr ⟨w₁, .cacheError, rfl, nofun, rfl⟩
      · exact .inr ⟨w₁, .missDBLookup, rfl, nofun, rfl⟩
      · exact absurd rfl (hnone snapshot)
    · exact .inl ⟨layer, snapshot, w₁, rfl, by rw [hget]⟩

theorem resolve_evolves (cfg : Config) (call : Call) (w : World) : Evolves cfg w (resolve cfg call w).2 := by
  have hread := (served_evolves cfg call caches w).1
  obtain ⟨layer, snapshot, w₁, hserved, heq⟩ | ⟨w₁, status, hserved, -, heq⟩ := resolve_cases cfg call w
  · rw [hserved] at hread
    rw [heq]
    exact hread.trans (chainSet_evolves _ _ _ _ _)
  · rw [hserved] at hread
    rw [heq]
    exact hread.trans (resolveMiss_evolves _ _ _ _)

/-! ## Runs -/

/-- Time passes, or `Resolve` is called. -/
inductive Action
  | wait (delay : Nat)
  | resolve (call : Call)

def World.wait (w : World) (delay : Nat) : World :=
  { w with now := w.now + delay }

def act (cfg : Config) (w : World) : Action → World
  | .wait delay => w.wait delay
  | .resolve call => (resolve cfg call w).2

/-- Sequences of calls, from empty caches. -/
def resolverSystem (cfg : Config) : TransitionSystem World Action where
  init w := (∀ layer key, w.store layer key = none) ∧ w.log = []
  step w action := some (act cfg w action)

/-- The writes of a snapshot to some layers, from `now` on, are in time. -/
def SetsInTime (cfg : Config) (call : Call) (log : List Event) (snapshot : Snapshot) : List Layer → Int → Prop
  | [], _ => True
  | layer :: layers, now =>
    ((call.tick (.set layer)).outcome ≠ .lost → Answered log snapshot.tokenFingerprint snapshot.token
        (now + (call.tick (.set layer)).delay + cfg.ttl layer - cfg.bound)) ∧
      SetsInTime cfg call log snapshot layers (now + (call.tick (.set layer)).delay)

/-- What a cache serves is not too old to be written to the other one, and what the token database answers is not
too old when it is written to the caches. -/
def KeepsInTime (cfg : Config) (w : World) : Action → Prop
  | .wait _ => True
  | .resolve call =>
    match served call caches w with
    | (some (layer, snapshot), w₁) => SetsInTime cfg call w.log snapshot (caches.filter (· ≠ layer)) w₁.now
    | (none, _) =>
      ((call.tick (.set .redis)).outcome ≠ .lost → (call.tick (.set .redis)).delay ≤ cfg.ttl .postgres) ∧
        ((call.tick (.set .postgres)).outcome ≠ .lost →
          (call.tick (.set .redis)).delay + (call.tick (.set .postgres)).delay ≤ cfg.ttl .redis)

theorem cacheSet_log (cfg : Config) (call : Call) (layer : Layer) (snapshot : Snapshot) (w : World) :
    (cacheSet cfg call layer snapshot w).2.now ≤ w.now + (call.tick (.set layer)).delay ∧
      ((cacheSet cfg call layer snapshot w).2.log = w.log ∨ (call.tick (.set layer)).outcome ≠ .lost ∧
        (cacheSet cfg call layer snapshot w).2.log =
          .write (w.now + (call.tick (.set layer)).delay) layer snapshot :: w.log) := by
  unfold cacheSet
  split
  · exact ⟨by simp, .inl rfl⟩
  · dsimp only
    split
    next h => exact ⟨le_rfl, .inr ⟨by simp [h], rfl⟩⟩
    next => exact ⟨le_rfl, .inl rfl⟩
    next h => exact ⟨le_rfl, .inr ⟨by simp [h], rfl⟩⟩

theorem chainSet_inTime {log : List Event} {layers : List Layer} {now : Int} {w : World}
    (hsets : SetsInTime cfg call log snapshot layers now) (hnow : w.now ≤ now) (hlog : log ⊆ w.log)
    (h : WritesInTime cfg w.log) : WritesInTime cfg (chainSet cfg call snapshot layers w).2.log := by
  induction layers generalizing w now with
  | nil => exact h
  | cons layer layers ih =>
    obtain ⟨hnow', hwrite⟩ := cacheSet_log cfg call layer snapshot w
    refine ih (w := (cacheSet cfg call layer snapshot w).2) hsets.2 (by omega)
      (List.Subset.trans hlog (cacheSet_evolves cfg call layer snapshot w).log) ?_
    obtain heq | ⟨hlost, heq⟩ := hwrite
    · rwa [heq]
    · rw [heq]
      exact ⟨(hsets.1 hlost).mono hlog (by omega), h⟩

theorem resolveMiss_inTime {status : IdentityCacheStatus} {w : World}
    (hredis : (call.tick (.set .redis)).outcome ≠ .lost → (call.tick (.set .redis)).delay ≤ cfg.ttl .postgres)
    (hpostgres : (call.tick (.set .postgres)).outcome ≠ .lost →
      (call.tick (.set .redis)).delay + (call.tick (.set .postgres)).delay ≤ cfg.ttl .redis)
    (h : WritesInTime cfg w.log) : WritesInTime cfg (resolveMiss cfg call status w).2.log := by
  unfold resolveMiss findByCanonicalKey
  dsimp only
  split
  next heq =>
    split at heq <;> cases heq
    all_goals exact h
  next token w₁ heq =>
    split at heq <;> cases heq
    refine chainSet_inTime ⟨fun hlost => ?_, fun hlost => ?_, trivial⟩ le_rfl (List.Subset.refl _) h
    · have := hredis hlost
      exact ⟨_, List.mem_cons_self, rfl, rfl, by simp only [Config.bound]; omega⟩
    · have := hpostgres hlost
      exact ⟨_, List.mem_cons_self, rfl, rfl, by simp only [Config.bound]; omega⟩

theorem act_inTime {action : Action} (hok : KeepsInTime cfg w action) (h : WritesInTime cfg w.log) :
    WritesInTime cfg (act cfg w action).log := by
  cases action with
  | wait delay => exact h
  | resolve call =>
    have hlog := (served_evolves cfg call caches w).2
    have hcases := resolve_cases cfg call w
    rw [KeepsInTime] at hok
    rw [act]
    generalize resolve cfg call w = result at hcases ⊢
    obtain ⟨layer, snapshot, w₁, hserved, rfl⟩ | ⟨w₁, status, hserved, -, rfl⟩ := hcases
    · rw [hserved] at hok hlog
      dsimp only at hok hlog
      rw [← hlog] at hok h
      exact chainSet_inTime hok le_rfl (List.Subset.refl _) h
    · rw [hserved] at hok hlog
      dsimp only at hok hlog
      rw [← hlog] at h
      exact resolveMiss_inTime hok.1 hok.2 h

theorem act_sourced (h : Sourced cfg w) (action : Action) : Sourced cfg (act cfg w action) := by
  cases action with
  | wait delay => exact h
  | resolve call => exact (resolve_evolves cfg call w).sourced h

theorem reachable_sourced (hw : (resolverSystem cfg).ReachableBy (KeepsInTime cfg) w) :
    Sourced cfg w ∧ WritesInTime cfg w.log := by
  refine TransitionSystem.ReachableBy.induct (P := fun w => Sourced cfg w ∧ WritesInTime cfg w.log)
    (fun w hinit => ?_) (fun w action w' _ ih hok hstep => ?_) hw
  · obtain ⟨hempty, hlog⟩ := hinit
    rw [hlog]
    exact ⟨fun layer key entry hentry => (nomatch (hempty layer key).symm.trans hentry), trivial⟩
  · obtain rfl := Option.some.inj hstep
    exact ⟨act_sourced ih.1 action, act_inTime hok ih.2⟩

/-- In every run whose calls keep in time, the data of a cache hit was returned by the token
database at most the two TTLs before the hit. -/
theorem identity_staleness_bounded {cfg : Config} {w : World}
    (hR : 0 < cfg.redisTTL) (hP : 0 < cfg.postgresTTL)
    (hw : (resolverSystem cfg).ReachableBy (KeepsInTime cfg) w) (call : Call)
    (hhit : (resolve cfg call w).1.identityCacheStatus = .hit) :
    ∃ time, w.now ≤ time ∧ time ≤ (resolve cfg call w).2.now ∧
      Answered w.log call.fingerprintValue (resolve cfg call w).1.token
        (time - (cfg.redisTTL + cfg.postgresTTL)) := by
  obtain ⟨hsourced, hinTime⟩ := reachable_sourced hw
  obtain ⟨hev, hlog⟩ := served_evolves cfg call caches w
  obtain ⟨layer, snapshot, w₁, hserved, hresult⟩ | ⟨w₁, status, -, hstatus, hresult⟩ := resolve_cases cfg call w
  swap
  · rw [hresult, resolveMiss_status] at hhit
    exact absurd hhit hstatus
  rw [hserved] at hev hlog
  obtain ⟨key, entry, hkey, hstore, hnow, hsnapshot⟩ := served_hit hserved
  have hend : w₁.now ≤ (resolve cfg call w).2.now := by
    rw [hresult]
    exact (chainSet_evolves cfg call snapshot _ w₁).now
  obtain ⟨hentryKey, written, hwrite, hexpires⟩ := hev.sourced hsourced layer key entry hstore
  rw [← Layer.key_injective hentryKey hkey]
  have hanswered := hinTime.answered (hlog ▸ hwrite)
  have hbound : cfg.bound = cfg.redisTTL + cfg.postgresTTL := by
    simp [Config.bound, Config.ttl, hR.not_ge, hP.not_ge]
  have htoken : (resolve cfg call w).1.token = entry.snapshot.token := by
    rw [hresult, hsnapshot]
    cases layer <;> rfl
  refine ⟨w₁.now, hev.now, hend, ?_⟩
  rw [htoken]
  exact hanswered.mono (List.Subset.refl _) (by omega)

/-- A call for the fingerprint during which nothing passes; Redis fails if the table is to answer. -/
def askLayer (layer : Layer) (fingerprint : String) (tokens : String → Option NewAPIToken) : Call where
  canonicalKey := "sk-1"
  fingerprintValue := fingerprint
  fingerprintDisplay := "fp"
  tick op := ⟨0, fun _ _ => false, if op = .get .redis ∧ layer ≠ .redis then .lost else .done⟩
  tokens := tokens

theorem live_entry_served {key : String} {entry : Entry}
    (hkey : layer.key fingerprint = .ok key) (hstore : w.store layer key = some entry) (hlive : w.now < entry.expiresAt)
    (tokens : String → Option NewAPIToken) :
    (resolve cfg (askLayer layer fingerprint tokens) w).1 =
      { layer.restore fingerprint entry.snapshot with identityCacheStatus := .hit } := by
  cases layer with
  | redis => simp [resolve, caches, chainGet, cacheGet, hkey, askLayer, World.elapse, World.live, hstore, hlive]
  | postgres =>
    -- Redis has no key for the fingerprint, or does not answer
    cases hredis : Layer.redis.key fingerprint <;>
      simp [resolve, caches, chainGet, cacheGet, hkey, hredis, askLayer, World.elapse, World.live, hstore, hlive]

/-! ## Two runs -/

def tokenOf (username : String) : NewAPIToken :=
  { NewAPIToken.zero with tokenID := 1, username }

/-- Caches that are empty at time 0. -/
def World.start : World := ⟨0, fun _ _ => none, []⟩

/-- `Resolve`, while the token belongs to this user. -/
def ask (username : String) : Action :=
  .resolve (askLayer .redis "fp-1" fun _ => some (tokenOf username))

/-- With two TTLs of 10, a second call after 9 time units is served from Redis and is in time. -/
theorem identity_staleness_bounded_second :
    ∃ time, (9 : Int) ≤ time ∧
      Answered [.write 0 .postgres ⟨"fp-1", "fp", tokenOf "alice", .resolved, .missDBLookup⟩,
        .write 0 .redis ⟨"fp-1", "fp", tokenOf "alice", .resolved, .missDBLookup⟩,
        .lookup 0 "sk-1" "fp-1" (tokenOf "alice")] "fp-1" (tokenOf "alice") (time - (10 + 10)) := by
  have hstart : (resolverSystem ⟨10, 10⟩).ReachableBy (KeepsInTime ⟨10, 10⟩) World.start :=
    .init ⟨fun _ _ => rfl, rfl⟩
  have hasked : KeepsInTime ⟨10, 10⟩ World.start (ask "alice") := ⟨by decide, by decide⟩
  have hwait : KeepsInTime ⟨10, 10⟩ (act ⟨10, 10⟩ World.start (ask "alice")) (.wait 9) := trivial
  have hreach := (hstart.step hasked rfl).step hwait rfl
  obtain ⟨time, hstart, -, hanswered⟩ := identity_staleness_bounded (by decide) (by decide) hreach
    (askLayer .redis "fp-1" fun _ => some (tokenOf "bob")) (by decide)
  exact ⟨time, hstart, hanswered⟩

/-- With two TTLs of 10, calls at 0, 9 and 18 (served by the token database, by Redis and by the
table) keep the user of time 0 until 27, although the token has been reassigned. -/
theorem alternating_hits_outlive :
    let w := [ask "alice", .wait 9, ask "alice", .wait 9, ask "alice", .wait 9].foldl (act ⟨10, 10⟩) World.start
    let result := resolve ⟨10, 10⟩ (askLayer .redis "fp-1" fun _ => some (tokenOf "bob")) w
    result.1.identityCacheStatus = .hit ∧ result.1.token = tokenOf "alice" ∧ w.now = 27 ∧ result.2.now = 27 ∧
      ¬ Answered w.log "fp-1" result.1.token (27 - (10 + 10)) := by
  decide

end AuditGateway.Identity
