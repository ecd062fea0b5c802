import VtiDidcomm.Did.Basic
import VtiDidcomm.Did.Scid
import VtiDidcomm.Js.OrderedMap
import VtiDidcomm.Lts.Run

/-!
# The resolver cache

`createResolver` as a transition system. A `resolve` runs to its first `await` in one step; the
handler call it starts completes in a later one (`fulfil`, `reject`), in any order with other calls,
with `invalidate`, `clearCache` and `setCacheTtl`, and with the clock. Each step emits one `Event`.

Time is any linear order with an addition: `Date.now()` reads `State.now`, which `tick` moves
forward. Handler calls are numbered as they start, and a cache entry carries the number of the call
that produced it.

`Steps` says once what a step can do, with the states it leads to written out: every invariant is a
case analysis of it.
-/

namespace VtiDidcomm.Resolver
open Js

/-- What a resolver is created with: its bound and its handlers' methods. -/
structure Config where
  /-- `maxEntries` -/
  limit : Nat
  /-- `Object.keys(handlers)` -/
  handlers : List JsString

/-- A cached resolution, and the handler call that produced it. -/
structure Entry (T : Type*) where
  expires : T
  result : Resolution
  call : Nat

/-- A handler call that has not completed. `share` is the cache key of a call whose result is stored
and that other callers may wait for. -/
structure Pending where
  did : JsString
  options : ResolveOptions
  share : Option JsString

/-- The state of one resolver. -/
structure State (T : Type*) where
  cache : OrderedMap JsString (Entry T)
  inflight : OrderedMap JsString Nat
  pending : OrderedMap Nat Pending
  ttl : T
  now : T
  next : Nat

/-- What a step of the resolver shows. -/
inductive Event (T : Type*) where
  /-- A `resolve` called a handler. -/
  | called (call : Nat) (did : JsString) (options : ResolveOptions)
  /-- A `resolve` waits for a pending call. -/
  | joined (call : Nat) (did : JsString) (options : ResolveOptions)
  /-- A `resolve` was answered from the cache, with what `call` had produced. -/
  | served (call : Nat) (did : JsString) (options : ResolveOptions) (result : Resolution) (now : T)
  /-- A `resolve` threw before it called a handler. -/
  | refused (did : JsString) (options : ResolveOptions) (err : JsError)
  /-- A call fulfilled, for whoever waits for it. `stored` is the time and the TTL it was stored
  under. -/
  | fulfilled (call : Nat) (result : Option Resolution) (stored : Option (T × T))
  /-- A call rejected, for whoever waits for it. -/
  | rejected (call : Nat) (err : JsError)
  | invalidated (did : JsString)
  | cleared
  | ttlSet (ms : T)
  | ticked (now : T)

/-- What happens to a resolver. -/
inductive Command (T : Type*) where
  | resolve (did : JsString) (options : ResolveOptions)
  | fulfil (call : Nat) (result : Option Resolution)
  | reject (call : Nat) (err : JsError)
  | invalidate (did : JsString)
  | clearCache
  | setCacheTtl (ms : T)
  | tick (now : T)

/-- `parseMethod` -/
def parseMethod (did : JsString) : Except JsError JsString :=
  if !startsWith did (js "did:") then
    .error (error (js "resolver: not a DID (no \"did:\" prefix): " ++ Json.quote (sliceTo did 32)))
  else
    let rest := sliceFrom did 4
    match indexOf rest colon with
    | none => .error (error (js "resolver: DID missing method-specific identifier: " ++ Json.quote did))
    | some i => .ok (sliceTo rest i)

/-- `UNCACHED_METHODS` -/
def uncachedMethods : List JsString := [js "key", js "peer"]

/-- `cacheKey`: a did:scid's `src` is a locator, not part of the identity. -/
def cacheKey (did : JsString) : JsString := stripScidSrc did

/-- `isCacheable` of a result that is there. -/
def isCacheable (result : Resolution) : Bool :=
  Json.truthy result.didDocument &&
    !Json.truthy (result.didResolutionMetadata.bind (·.get (js "error")))

variable {T : Type*} [LinearOrder T] [Add T] [Zero T]

/-! ## Eviction -/

/-- The `for` loop of `evictFor` on the entries not yet visited, of a cache that holds `size`
entries. -/
def dropExpired (limit : Nat) (now : T) (size : Nat) :
    List (JsString × Entry T) → List (JsString × Entry T)
  | [] => []
  | e :: es =>
    if size < limit then e :: es
    else if e.2.expires ≤ now then dropExpired limit now (size - 1) es
    else e :: dropExpired limit now size es

omit [Add T] [Zero T] in
/-- Dropping expired entries only drops. -/
lemma dropExpired_sublist (limit : Nat) (now : T) (size : Nat) (l : List (JsString × Entry T)) :
    (dropExpired limit now size l).Sublist l := by
  induction l generalizing size with
  | nil => exact .slnil
  | cons e es ih =>
    simp only [dropExpired]
    split
    · exact List.Sublist.refl _
    · split
      · exact (ih _).cons e
      · exact (ih _).cons_cons e

/-- `evictFor`: expired entries go first, then the least recently used. -/
def evictFor (limit : Nat) (now : T) (cache : OrderedMap JsString (Entry T)) :
    OrderedMap JsString (Entry T) :=
  (cache.keep (dropExpired limit now cache.size cache.entries)
    (dropExpired_sublist ..)).makeRoom limit

/-- `store` -/
def store (limit : Nat) (now ttl : T) (key : JsString) (result : Resolution) (call : Nat)
    (cache : OrderedMap JsString (Entry T)) : OrderedMap JsString (Entry T) :=
  (evictFor limit now cache).set key { expires := now + ttl, result, call }

/-! ## Steps -/

variable (cfg : Config)

/-- `createResolver` -/
def init (ttl now : T) : State T :=
  { cache := .empty, inflight := .empty, pending := .empty, ttl, now, next := 0 }

/-- The error of a method without a handler. -/
def noHandler (method : JsString) : JsError :=
  error (js "resolver: no handler for method \"" ++ method ++ js "\"; supported: " ++
    (js ", ").intercalate (cfg.handlers.mergeSort fun a b => !decide (b < a)))

/-- What `rawResolve` throws for a method that is no key of `handlers`: under the name of a member of
`Object.prototype` the lookup finds that member, which has no `resolve`. -/
def refusal (method : JsString) : JsError :=
  if method ∈ objectPrototype then typeError (js "handler.resolve is not a function")
  else noHandler cfg method

/-- `rawResolve`, for a call that is shared under the key `share`. A method without a handler
rejects at once, and the promise that did so is out of `inflight` before anyone else runs. -/
def rawResolve (s : State T) (did method : JsString) (options : ResolveOptions)
    (share : Option JsString) : State T × Event T :=
  if method ∈ cfg.handlers then
    ({ s with
        pending := s.pending.set s.next { did, options, share }
        inflight := if share.isSome then s.inflight.set did s.next else s.inflight
        next := s.next + 1 },
      .called s.next did options)
  else (s, .refused did options (refusal cfg method))

/-- `resolve` of a DID that is not in the cache: it waits for a pending resolution of the DID as
given, or starts one. -/
def resolveMissed (s : State T) (did method : JsString) (options : ResolveOptions) :
    State T × Event T :=
  match s.inflight.get did with
  | some call => (s, .joined call did options)
  | none => rawResolve cfg s did method options (some (cacheKey did))

/-- Whether a `resolve` bypasses the cache and the in-flight calls. -/
def bypasses (s : State T) (method : JsString) (options : ResolveOptions) : Bool :=
  options.versionTime.isSome || s.ttl ≤ 0 || cfg.limit = 0 || method ∈ uncachedMethods

/-- `resolve`, up to its first `await`. -/
def resolve (s : State T) (did : JsString) (options : ResolveOptions) : State T × Event T :=
  match parseMethod did with
  | .error err => (s, .refused did options err)
  | .ok method =>
    if bypasses cfg s method options then rawResolve cfg s did method options none
    else
      let key := cacheKey did
      match s.cache.get key with
      | some hit =>
        if s.now < hit.expires then
          ({ s with cache := (s.cache.delete key).set key hit },
            .served hit.call did options hit.result s.now)
        else resolveMissed cfg { s with cache := s.cache.delete key } did method options
      | none => resolveMissed cfg s did method options

/-- A handler call fulfils: a shared one is stored when it is cacheable, and leaves `inflight`. -/
def fulfil (s : State T) (call : Nat) (result : Option Resolution) : Option (State T × Event T) :=
  match s.pending.get call with
  | none => none
  | some p =>
    let s := { s with pending := s.pending.delete call }
    match p.share with
    | none => some (s, .fulfilled call result none)
    | some key =>
      let inflight := s.inflight.delete p.did
      match result with
      | none => some ({ s with inflight }, .fulfilled call none none)
      | some r =>
        if isCacheable r then
          some ({ s with inflight, cache := store cfg.limit s.now s.ttl key r call s.cache },
            .fulfilled call result (some (s.now, s.ttl)))
        else some ({ s with inflight }, .fulfilled call result none)

/-- A handler call rejects: a shared one leaves `inflight`. -/
def reject (s : State T) (call : Nat) (err : JsError) : Option (State T × Event T) :=
  match s.pending.get call with
  | none => none
  | some p =>
    some ({ s with
        pending := s.pending.delete call
        inflight := if p.share.isSome then s.inflight.delete p.did else s.inflight },
      .rejected call err)

/-- One step of the resolver; `none` for a completion of no pending call, or a clock that goes
back. -/
def step (s : State T) : Command T → Option (State T × Event T)
  | .resolve did options => some (resolve cfg s did options)
  | .fulfil call result => fulfil cfg s call result
  | .reject call err => reject s call err
  | .invalidate did => some ({ s with cache := s.cache.delete (cacheKey did) }, .invalidated did)
  | .clearCache => some ({ s with cache := .empty }, .cleared)
  | .setCacheTtl ms =>
    some ({ s with ttl := ms, cache := if ms ≤ 0 then .empty else s.cache }, .ttlSet ms)
  | .tick now => if s.now ≤ now then some ({ s with now }, .ticked now) else none

/-- One step of the resolver and the event it emits. -/
abbrev Step : State T → List (Event T) → State T → Prop := Lts.Does (step cfg)

/-! ## What the steps do -/

variable {cfg}

/-- What a `resolve` can do. -/
inductive Resolves (cfg : Config) (s : State T) (did : JsString) (options : ResolveOptions) :
    State T → Event T → Prop where
  /-- It throws. -/
  | refused (err) : Resolves cfg s did options s (.refused did options err)
  /-- It throws after an expired entry has left the cache. -/
  | refusedMissed (err) :
    Resolves cfg s did options { s with cache := s.cache.delete (cacheKey did) }
      (.refused did options err)
  /-- It calls a handler past the cache. -/
  | bypassed {method} :
    parseMethod did = .ok method → bypasses cfg s method options = true →
    Resolves cfg s did options
      { s with pending := s.pending.set s.next { did, options, share := none }, next := s.next + 1 }
      (.called s.next did options)
  /-- It is answered from an entry that has not expired. -/
  | served {method hit} :
    parseMethod did = .ok method → bypasses cfg s method options = false →
    s.cache.get (cacheKey did) = some hit → s.now < hit.expires →
    Resolves cfg s did options
      { s with cache := (s.cache.delete (cacheKey did)).set (cacheKey did) hit }
      (.served hit.call did options hit.result s.now)
  /-- It waits for the pending call of the DID. -/
  | joined {method call} :
    parseMethod did = .ok method → bypasses cfg s method options = false →
    s.inflight.get did = some call →
    Resolves cfg s did options { s with cache := s.cache.delete (cacheKey did) }
      (.joined call did options)
  /-- It starts a shared call. -/
  | called {method} :
    parseMethod did = .ok method → bypasses cfg s method options = false →
    s.inflight.get did = none →
    Resolves cfg s did options
      { s with
        cache := s.cache.delete (cacheKey did)
        pending := s.pending.set s.next { did, options, share := some (cacheKey did) }
        inflight := s.inflight.set did s.next
        next := s.next + 1 }
      (.called s.next did options)

variable (cfg) in
omit [Add T] in
/-- What a `resolve` past the cache does. -/
private lemma resolveMissed_resolves {s : State T} {did method : JsString}
    {options : ResolveOptions} (hm : parseMethod did = .ok method)
    (hb : bypasses cfg s method options = false) :
    Resolves cfg s did options
      (resolveMissed cfg { s with cache := s.cache.delete (cacheKey did) } did method options).1
      (resolveMissed cfg { s with cache := s.cache.delete (cacheKey did) } did method options).2 := by
  unfold resolveMissed rawResolve
  dsimp only
  split
  · rename_i call hcall
    exact .joined hm hb hcall
  · rename_i hnone
    split
    · exact .called hm hb hnone
    · exact .refusedMissed _

variable (cfg) in
omit [Add T] in
/-- What `resolve` does is one of the cases. -/
lemma resolve_resolves (s : State T) (did : JsString) (options : ResolveOptions) :
    Resolves cfg s did options (resolve cfg s did options).1 (resolve cfg s did options).2 := by
  unfold resolve
  split
  · exact .refused _
  rename_i method hm
  split
  · rename_i hb
    unfold rawResolve
    split
    · exact .bypassed hm hb
    · exact .refused _
  rename_i hb
  have hb : bypasses cfg s method options = false := by simpa using hb
  dsimp only
  split
  · rename_i hit hhit
    split
    · rename_i hlive
      exact .served hm hb hhit hlive
    · exact resolveMissed_resolves cfg hm hb
  · rename_i hnone
    have hdel : s.cache.delete (cacheKey did) = s.cache :=
      OrderedMap.delete_of_not_has (OrderedMap.has_eq_false.mpr hnone)
    have := resolveMissed_resolves cfg hm hb
    rwa [hdel] at this

/-- A completion that stores nothing. -/
def Event.CompletesUnstored (call : Nat) : Event T → Prop
  | rejected c _ => c = call
  | fulfilled c _ none => c = call
  | _ => False

/-- What the completion of a pending call can do. -/
inductive Completes (cfg : Config) (s : State T) (call : Nat) (p : Pending) :
    State T → Event T → Prop where
  /-- A call nobody shares leaves. -/
  | alone {e} :
    p.share = none → Event.CompletesUnstored call e →
    Completes cfg s call p { s with pending := s.pending.delete call } e
  /-- A shared call leaves `inflight` and stores nothing. -/
  | shared {key e} :
    p.share = some key → Event.CompletesUnstored call e →
    Completes cfg s call p
      { s with pending := s.pending.delete call, inflight := s.inflight.delete p.did } e
  /-- A shared call leaves `inflight` and is stored under its key. -/
  | stored {key r} :
    p.share = some key → isCacheable r = true →
    Completes cfg s call p
      { s with
        pending := s.pending.delete call
        inflight := s.inflight.delete p.did
        cache := store cfg.limit s.now s.ttl key r call s.cache }
      (.fulfilled call (some r) (some (s.now, s.ttl)))

omit [Zero T] in
/-- What a fulfilled call does is one of the cases. -/
lemma fulfil_completes {s s' : State T} {call : Nat} {result : Option Resolution} {e : Event T}
    (h : fulfil cfg s call result = some (s', e)) :
    ∃ p, s.pending.get call = some p ∧ Completes cfg s call p s' e := by
  unfold fulfil at h
  split at h
  · cases h
  rename_i p hp
  refine ⟨p, hp, ?_⟩
  dsimp only at h
  split at h
  · rename_i hshare
    cases h
    exact .alone hshare rfl
  rename_i key hshare
  split at h
  · cases h
    exact .shared hshare rfl
  split at h
  · rename_i r hc
    cases h
    exact .stored hshare hc
  · cases h
    exact .shared hshare rfl

variable (cfg) in
omit [Zero T] in
/-- What a rejected call does is one of the cases. -/
lemma reject_completes {s s' : State T} {call : Nat} {err : JsError} {e : Event T}
    (h : reject s call err = some (s', e)) :
    ∃ p, s.pending.get call = some p ∧ Completes cfg s call p s' e := by
  unfold reject at h
  split at h
  · cases h
  rename_i p hp
  cases h
  refine ⟨p, hp, ?_⟩
  cases hs : p.share with
  | none => exact .alone hs rfl
  | some key => exact .shared hs rfl

omit [Zero T] in
/-- A fulfilled call reports its result. -/
lemma fulfil_event {s s' : State T} {call : Nat} {result : Option Resolution} {e : Event T}
    (h : fulfil cfg s call result = some (s', e)) : ∃ stored, e = .fulfilled call result stored := by
  unfold fulfil at h
  split at h
  · cases h
  dsimp only at h
  split at h
  · simp only [Option.some.injEq, Prod.mk.injEq] at h
    exact ⟨_, h.2.symm⟩
  split at h
  · simp only [Option.some.injEq, Prod.mk.injEq] at h
    exact ⟨_, h.2.symm⟩
  split at h <;>
  · simp only [Option.some.injEq, Prod.mk.injEq] at h
    exact ⟨_, h.2.symm⟩

omit [LinearOrder T] [Add T] [Zero T] in
/-- A rejected call reports its error. -/
lemma reject_event {s s' : State T} {call : Nat} {err : JsError} {e : Event T}
    (h : reject s call err = some (s', e)) : e = .rejected call err := by
  unfold reject at h
  split at h
  · cases h
  · simp only [Option.some.injEq, Prod.mk.injEq] at h
    exact h.2.symm

/-- What a step of the resolver can do. -/
inductive Steps (cfg : Config) (s : State T) : State T → Event T → Prop where
  | resolve {did options s' e} : Resolves cfg s did options s' e → Steps cfg s s' e
  | complete {call p s' e} : s.pending.get call = some p → Completes cfg s call p s' e →
    Steps cfg s s' e
  | invalidate (did) : Steps cfg s { s with cache := s.cache.delete (cacheKey did) } (.invalidated did)
  | clearCache : Steps cfg s { s with cache := .empty } .cleared
  | setCacheTtl (ms) :
    Steps cfg s { s with ttl := ms, cache := if ms ≤ 0 then .empty else s.cache } (.ttlSet ms)
  | tick {now} : s.now ≤ now → Steps cfg s { s with now } (.ticked now)

/-- A step does one of these, and emits one event. -/
lemma Step.steps {s s' : State T} {evs : List (Event T)} (h : Step cfg s evs s') :
    ∃ e, evs = [e] ∧ Steps cfg s s' e := by
  obtain ⟨cmd, e, hstep, rfl⟩ := h
  refine ⟨e, rfl, ?_⟩
  cases cmd with
  | resolve did options =>
    simp only [step, Option.some.injEq] at hstep
    have := resolve_resolves cfg s did options
    rw [hstep] at this
    exact .resolve this
  | fulfil call result =>
    obtain ⟨p, hp, hc⟩ := fulfil_completes hstep
    exact .complete hp hc
  | reject call err =>
    obtain ⟨p, hp, hc⟩ := reject_completes cfg hstep
    exact .complete hp hc
  | invalidate did =>
    cases hstep
    exact .invalidate did
  | clearCache =>
    cases hstep
    exact .clearCache
  | setCacheTtl ms =>
    cases hstep
    exact .setCacheTtl ms
  | tick now =>
    simp only [step] at hstep
    split at hstep
    · rename_i hle
      cases hstep
      exact .tick hle
    · cases hstep

/-! ## What the cache keeps -/

omit [Add T] [Zero T] in
/-- There is room after an eviction. -/
lemma size_evictFor_lt {limit : Nat} (h : 0 < limit) (now : T)
    (cache : OrderedMap JsString (Entry T)) : (evictFor limit now cache).size < limit :=
  OrderedMap.size_makeRoom_lt _ h

omit [Add T] [Zero T] in
/-- An eviction adds no entry. -/
lemma get_of_get_evictFor {limit : Nat} {now : T} {cache : OrderedMap JsString (Entry T)}
    {key : JsString} {entry : Entry T} (h : (evictFor limit now cache).get key = some entry) :
    cache.get key = some entry :=
  OrderedMap.get_of_get_keep (OrderedMap.get_of_get_makeRoom h)

omit [Zero T] in
/-- A stored cache holds the new entry under its key, and what it held under the others. -/
lemma get_store {limit : Nat} {now ttl : T} {key k : JsString} {r : Resolution} {call : Nat}
    {cache : OrderedMap JsString (Entry T)} {entry : Entry T}
    (h : (store limit now ttl key r call cache).get k = some entry) :
    (k = key ∧ entry = ⟨now + ttl, r, call⟩) ∨ (k ≠ key ∧ cache.get k = some entry) := by
  unfold store at h
  rw [OrderedMap.get_set] at h
  split at h
  · rename_i hk
    cases h
    exact .inl ⟨hk, rfl⟩
  · rename_i hk
    exact .inr ⟨hk, get_of_get_evictFor h⟩

omit [Zero T] in
/-- A cache stays within its limit. -/
lemma size_store_le {limit : Nat} (h : 0 < limit) (now ttl : T) (key : JsString) (r : Resolution)
    (call : Nat) (cache : OrderedMap JsString (Entry T)) :
    (store limit now ttl key r call cache).size ≤ limit := by
  have := size_evictFor_lt h now cache
  have := OrderedMap.size_set_le (evictFor limit now cache) key ⟨now + ttl, r, call⟩
  unfold store
  omega

omit [LinearOrder T] [Add T] [Zero T] in
/-- A hit moves its entry and changes none. -/
lemma get_touch {cache : OrderedMap JsString (Entry T)} {key k : JsString} {hit : Entry T}
    (hg : cache.get key = some hit) : ((cache.delete key).set key hit).get k = cache.get k := by
  rw [OrderedMap.get_set]
  split
  · rename_i hk
    rw [hk, hg]
  · rename_i hk
    exact OrderedMap.get_delete_ne hk

/-! ## Well-formed states -/

omit [Add T] in
/-- A `resolve` that does not bypass the cache is current, and has a cache to be in. -/
lemma of_not_bypasses {s : State T} {method : JsString} {options : ResolveOptions}
    (hb : bypasses cfg s method options = false) :
    options.versionTime = none ∧ 0 < s.ttl ∧ 0 < cfg.limit ∧ method ∉ uncachedMethods := by
  simp only [bypasses, Bool.or_eq_false_iff, Option.isSome_eq_false_iff, Option.isNone_iff_eq_none,
    decide_eq_false_iff_not, not_le] at hb
  obtain ⟨⟨⟨hv, httl⟩, hl⟩, hu⟩ := hb
  exact ⟨hv, httl, Nat.pos_of_ne_zero hl, hu⟩

/-- The cache stays within its bound, a shared call is shared under the key of its DID, and what is
in flight is a pending shared call of that DID. -/
structure WellFormed (cfg : Config) (s : State T) : Prop where
  bound : s.cache.size ≤ cfg.limit
  pending_lt : ∀ call p, s.pending.get call = some p → call < s.next
  shared : ∀ call p key, s.pending.get call = some p → p.share = some key →
    key = cacheKey p.did ∧ 0 < cfg.limit
  inflight : ∀ did call, s.inflight.get did = some call →
    ∃ p, s.pending.get call = some p ∧ p.did = did ∧ p.share.isSome = true

omit [LinearOrder T] [Add T] [Zero T] in
/-- The next call starts beside what is pending. -/
lemma WellFormed.set_next {s : State T} (h : WellFormed cfg s) {p : Pending} {inflight}
    (hs : ∀ key, p.share = some key → key = cacheKey p.did ∧ 0 < cfg.limit)
    (hi : inflight = s.inflight ∨
      (p.share.isSome = true ∧ inflight = s.inflight.set p.did s.next))
    {cache} (hc : cache.size ≤ s.cache.size) :
    WellFormed cfg
      { s with cache, inflight, pending := s.pending.set s.next p, next := s.next + 1 } where
  bound := hc.trans h.bound
  pending_lt call q hq := by
    dsimp only at hq ⊢
    rw [OrderedMap.get_set] at hq
    split at hq
    · omega
    · exact Nat.lt_succ_of_lt (h.pending_lt call q hq)
  shared call q key hq hk := by
    dsimp only at hq
    rw [OrderedMap.get_set] at hq
    split at hq
    · cases hq
      exact hs key hk
    · exact h.shared call q key hq hk
  inflight did call hg := by
    have old : s.inflight.get did = some call →
        ∃ q, (s.pending.set s.next p).get call = some q ∧ q.did = did ∧ q.share.isSome = true := by
      intro hg
      obtain ⟨q, hq, hd, hsome⟩ := h.inflight did call hg
      refine ⟨q, ?_, hd, hsome⟩
      rw [OrderedMap.get_set_ne (Nat.ne_of_lt (h.pending_lt call q hq)), hq]
    dsimp only at hg ⊢
    obtain rfl | ⟨hsome, rfl⟩ := hi
    · exact old hg
    · rw [OrderedMap.get_set] at hg
      split at hg
      · rename_i hd
        cases hg
        exact ⟨p, OrderedMap.get_set_self .., hd.symm, hsome⟩
      · exact old hg

omit [LinearOrder T] [Add T] [Zero T] in
/-- A completed call leaves, and is no longer in flight. -/
lemma WellFormed.delete {s : State T} (h : WellFormed cfg s) {call : Nat} {p : Pending}
    (hp : s.pending.get call = some p) {inflight}
    (hi : inflight = s.inflight.delete p.did ∨ (p.share = none ∧ inflight = s.inflight))
    {cache} (hc : cache.size ≤ cfg.limit) :
    WellFormed cfg { s with cache, inflight, pending := s.pending.delete call } where
  bound := hc
  pending_lt c q hq := h.pending_lt c q (OrderedMap.get_of_get_delete hq)
  shared c q key hq hk := h.shared c q key (OrderedMap.get_of_get_delete hq) hk
  inflight did c hg := by
    have other : s.inflight.get did = some c → (p.share = none ∨ did ≠ p.did) →
        ∃ q, (s.pending.delete call).get c = some q ∧ q.did = did ∧ q.share.isSome = true := by
      intro hg hne
      obtain ⟨q, hq, hd, hsome⟩ := h.inflight did c hg
      refine ⟨q, ?_, hd, hsome⟩
      rw [OrderedMap.get_delete_ne, hq]
      rintro rfl
      rw [hp] at hq
      cases hq
      obtain hn | hn := hne
      · rw [hn] at hsome
        cases hsome
      · exact hn hd.symm
    dsimp only at hg ⊢
    obtain rfl | ⟨hn, rfl⟩ := hi
    · obtain ⟨hne, hg⟩ := OrderedMap.get_delete_eq_some.mp hg
      exact other hg (.inr hne)
    · exact other hg (.inl hn)

/-- A step keeps a resolver well formed. -/
lemma WellFormed.steps {s s' : State T} {e : Event T} (h : WellFormed cfg s)
    (hs : Steps cfg s s' e) : WellFormed cfg s' := by
  -- a smaller cache, and nothing else that matters
  have smaller : ∀ cache : OrderedMap JsString (Entry T), ∀ ttl now, cache.size ≤ s.cache.size →
      WellFormed cfg { s with cache, ttl, now } :=
    fun cache ttl now hc => ⟨hc.trans h.bound, h.pending_lt, h.shared, h.inflight⟩
  cases hs with
  | @resolve did options _ _ hr =>
    cases hr with
    | refused err => exact h
    | refusedMissed err => exact smaller _ _ _ (OrderedMap.size_delete_le ..)
    | bypassed => exact h.set_next (by simp) (.inl rfl) (le_refl _)
    | @served method hit hm hb hhit hlive =>
      have := OrderedMap.size_delete_of_has (OrderedMap.has_iff.mpr ⟨hit, hhit⟩)
      have := (s.cache.delete (cacheKey did)).size_set_le (cacheKey did) hit
      exact smaller _ _ _ (by omega)
    | joined => exact smaller _ _ _ (OrderedMap.size_delete_le ..)
    | called hm hb hnone =>
      obtain ⟨-, -, hl, -⟩ := of_not_bypasses hb
      have hs : ∀ key, some (cacheKey did) = some key → key = cacheKey did ∧ 0 < cfg.limit := by
        rintro key ⟨⟩
        exact ⟨rfl, hl⟩
      exact h.set_next (p := ⟨did, options, some (cacheKey did)⟩) hs (.inr ⟨rfl, rfl⟩)
        (OrderedMap.size_delete_le ..)
  | complete hp hc =>
    cases hc with
    | alone hs he => exact h.delete hp (.inr ⟨hs, rfl⟩) h.bound
    | shared hs he => exact h.delete hp (.inl rfl) h.bound
    | stored hs hcache =>
      exact h.delete hp (.inl rfl) (size_store_le (h.shared _ _ _ hp hs).2 ..)
  | invalidate did => exact smaller _ _ _ (OrderedMap.size_delete_le ..)
  | clearCache => exact smaller _ _ _ (Nat.zero_le _)
  | setCacheTtl ms =>
    apply smaller _ _ _
    split
    · exact Nat.zero_le _
    · exact le_refl _
  | tick hle => exact smaller _ _ _ (le_refl _)

omit [LinearOrder T] [Add T] [Zero T] in
/-- A new resolver is well formed. -/
lemma wellFormed_init (ttl now : T) : WellFormed cfg (init ttl now) where
  bound := Nat.zero_le _
  pending_lt _ _ h := by cases h
  shared _ _ _ h := by cases h
  inflight _ _ h := by cases h

/-! ## Call numbers -/

/-- Calls are numbered below `next`, and a number names one call. -/
structure Numbered (s : State T) (tr : List (Event T)) : Prop where
  lt : ∀ call did options, .called call did options ∈ tr → call < s.next
  unique : ∀ call did options did' options', .called call did options ∈ tr →
    .called call did' options' ∈ tr → did = did' ∧ options = options'

omit [LinearOrder T] [Add T] [Zero T] in
/-- A step that starts no call keeps the numbers. -/
lemma Numbered.of_not_called {s s' : State T} {tr : List (Event T)} {e : Event T}
    (h : Numbered s tr) (hn : s'.next = s.next)
    (he : ∀ call did options, e ≠ .called call did options) :
    Numbered s' (tr ++ [e]) := by
  have mem : ∀ call did options, Event.called call did options ∈ tr ++ [e] →
      .called call did options ∈ tr := by
    intro call did options hm
    obtain hm | hm := List.mem_append.mp hm
    · exact hm
    · exact absurd (List.mem_singleton.mp hm).symm (he call did options)
  exact ⟨fun call did options hm => hn ▸ h.lt call did options (mem _ _ _ hm),
    fun call did options did' options' hm hm' =>
      h.unique call did options did' options' (mem _ _ _ hm) (mem _ _ _ hm')⟩

omit [LinearOrder T] [Add T] [Zero T] in
/-- A step that starts the call `next` keeps the numbers. -/
lemma Numbered.of_called {s s' : State T} {tr : List (Event T)} {did : JsString}
    {options : ResolveOptions} (h : Numbered s tr) (hn : s'.next = s.next + 1) :
    Numbered s' (tr ++ [.called s.next did options]) := by
  have mem : ∀ call d o, Event.called call d o ∈ tr ++ [Event.called s.next did options] →
      (.called call d o ∈ tr ∧ call < s.next) ∨ (call = s.next ∧ d = did ∧ o = options) := by
    intro call d o hm
    obtain hm | hm := List.mem_append.mp hm
    · exact .inl ⟨hm, h.lt _ _ _ hm⟩
    · cases List.mem_singleton.mp hm
      exact .inr ⟨rfl, rfl, rfl⟩
  constructor
  · intro call d o hm
    rw [hn]
    obtain ⟨-, hlt⟩ | ⟨rfl, -⟩ := mem _ _ _ hm <;> omega
  · intro call d o d' o' hm hm'
    obtain ⟨hm, hlt⟩ | ⟨rfl, rfl, rfl⟩ := mem _ _ _ hm
    · obtain ⟨hm', -⟩ | ⟨rfl, -⟩ := mem _ _ _ hm'
      · exact h.unique _ _ _ _ _ hm hm'
      · exact absurd hlt (lt_irrefl _)
    · obtain ⟨-, hlt⟩ | ⟨-, rfl, rfl⟩ := mem _ _ _ hm'
      · exact absurd hlt (lt_irrefl _)
      · exact ⟨rfl, rfl⟩

/-- A step numbers its call by the events so far. -/
lemma Numbered.steps {s s' : State T} {tr : List (Event T)} {e : Event T} (h : Numbered s tr)
    (hs : Steps cfg s s' e) : Numbered s' (tr ++ [e]) := by
  cases hs with
  | resolve hr =>
    cases hr with
    | bypassed => exact h.of_called rfl
    | called => exact h.of_called rfl
    | _ => exact h.of_not_called rfl (by simp)
  | complete hp hc =>
    cases hc with
    | alone hs he => exact h.of_not_called rfl (by rintro _ _ _ rfl; exact he)
    | shared hs he => exact h.of_not_called rfl (by rintro _ _ _ rfl; exact he)
    | stored => exact h.of_not_called rfl (by simp)
  | _ => exact h.of_not_called rfl (by simp)

omit [LinearOrder T] [Add T] [Zero T] in
/-- No call is numbered at first. -/
lemma numbered_init (ttl now : T) : Numbered (init ttl now) [] := ⟨by simp, by simp⟩

/-- The calls of a run are numbered. -/
lemma numbered_of_run {ttl now : T} {tr : List (Event T)} {s : State T}
    (r : Lts.Run (Step cfg) (init ttl now) tr s) : Numbered s tr := by
  apply r.invariant (numbered_init ttl now)
  intro s tr evs s' h hstep
  obtain ⟨e, rfl, hs⟩ := Step.steps hstep
  exact h.steps hs

end VtiDidcomm.Resolver
