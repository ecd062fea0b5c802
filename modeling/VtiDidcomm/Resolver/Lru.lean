import VtiDidcomm.Data.Lru
import VtiDidcomm.Resolver.Cache

/-!
# The cache as an LRU map

The cache beside `Lru`, the map in order of last use. `CacheOp` is what a step does to the cache,
and `reference` what the same operations make of an LRU map of unexpired entries.

`evictFor` makes room without knowing the key that comes in, and `cache.set` leaves a present key
where it is. So a store agrees with the LRU map when its key is not in the cache, is the one that
`evictFor` drops, or is already the last with room to spare: `cache_is_lru_while_clean`. Two DID
URLs of one identity, resolved at the same time, store twice under one key, and the second store
evicts another DID (`cache_is_not_lru`).
-/

namespace VtiDidcomm.Resolver
open Js

variable {T : Type*} [LinearOrder T]

/-- The unexpired entries. -/
def live (now : T) (m : List (JsString × Entry T)) : List (JsString × Entry T) :=
  m.filter fun e => decide (now < e.2.expires)

/-- What a step does to the cache. -/
inductive CacheOp (T : Type*) where
  /-- A `resolve` looks the key up. -/
  | look (key : JsString) (now : T)
  /-- A completed call stores its result. -/
  | put (key : JsString) (entry : Entry T) (now : T)
  | drop (key : JsString)
  | clear
  | idle

/-- An operation on the LRU map. -/
def CacheOp.onLru (limit : Nat) (m : List (JsString × Entry T)) :
    CacheOp T → List (JsString × Entry T)
  | look key now => Lru.touch key (live now m)
  | put key entry now => Lru.put limit key entry (live now m)
  | drop key => Lru.without key m
  | clear => []
  | idle => m

/-- The LRU map after the operations. -/
def reference (limit : Nat) (ops : List (CacheOp T)) : List (JsString × Entry T) :=
  ops.foldl (CacheOp.onLru limit) []

/-- The entry that `evictFor` drops from a full cache. -/
def victim (now : T) (cache : OrderedMap JsString (Entry T)) : Option (JsString × Entry T) :=
  (cache.entries.find? fun e => decide (e.2.expires ≤ now)).or cache.entries.head?

/-- A store under `key` does not depend on `evictFor` knowing it. -/
def PutsCleanly (limit : Nat) (now : T) (cache : OrderedMap JsString (Entry T)) (key : JsString) :
    Prop :=
  cache.has key = false ∨
  (limit ≤ cache.size ∧ (victim now cache).map Prod.fst = some key) ∨
  (cache.size < limit ∧ cache.entries.getLast?.map Prod.fst = some key)

/-- A store under `key` keeps the LRU order, where `used` are the entries in order of last use. -/
structure StoresAsLru (limit : Nat) (now : T) (used : List (JsString × Entry T))
    (cache cache' : OrderedMap JsString (Entry T)) (key : JsString) : Prop where
  /-- The key is the most recently used. -/
  recent : cache'.entries.getLast?.map Prod.fst = some key
  /-- A key that is there removes no other entry. -/
  present : cache.has key = true → ∀ k e, k ≠ key → cache.get k = some e → cache'.get k = some e
  /-- A new key removes an unexpired entry only from a full map, and only the least recently used. -/
  absent : cache.has key = false → ∀ k e, cache.get k = some e → now < e.expires →
    cache'.get k = none → limit ≤ (live now used).length ∧ (live now used).head? = some (k, e)

variable [Add T] [Zero T] (cfg : Config)

/-- What a command does to the cache of a state. -/
def opOf (s : State T) : Command T → CacheOp T
  | .resolve did options =>
    match parseMethod did with
    | .error _ => .idle
    | .ok method =>
      if bypasses cfg s method options then .idle else .look (cacheKey did) s.now
  | .fulfil call (some r) =>
    match (s.pending.get call).bind Pending.share with
    | none => .idle
    | some key =>
      if isCacheable r then .put key { expires := s.now + s.ttl, result := r, call } s.now else .idle
  | .fulfil _ none => .idle
  | .reject .. => .idle
  | .invalidate did => .drop (cacheKey did)
  | .clearCache => .clear
  | .setCacheTtl ms => if ms ≤ 0 then .clear else .idle
  | .tick _ => .idle

/-- A step that shows what it does to the cache. -/
def stepOp (s : State T) (cmd : Command T) : Option (State T × CacheOp T) :=
  (step cfg s cmd).map fun r => (r.1, opOf cfg s cmd)

/-- One step and its cache operation. -/
abbrev OpStep : State T → List (CacheOp T) → State T → Prop := Lts.Does (stepOp cfg)

/-- A command that stores, if at all, cleanly. -/
def IsClean (s : State T) (cmd : Command T) : Prop :=
  ∀ key entry now, opOf cfg s cmd = .put key entry now → PutsCleanly cfg.limit s.now s.cache key

/-- One clean step and its cache operation. -/
abbrev CleanStep : State T → List (CacheOp T) → State T → Prop :=
  Lts.DoesIf (stepOp cfg) (IsClean cfg)

/-! ## Unexpired entries -/

omit [Add T] [Zero T] in
/-- The live entries are those of the parts. -/
lemma live_append (now : T) (l l' : List (JsString × Entry T)) :
    live now (l ++ l') = live now l ++ live now l' :=
  List.filter_append ..

omit [Add T] [Zero T] in
/-- Dropping a key drops its live entry. -/
lemma live_without (now : T) (key : JsString) (l : List (JsString × Entry T)) :
    live now (Lru.without key l) = Lru.without key (live now l) := by
  simp only [live, Lru.without, List.filter_filter, Bool.and_comm]

omit [Add T] [Zero T] in
/-- At most as many entries are live as there are. -/
lemma length_live_le (now : T) (l : List (JsString × Entry T)) : (live now l).length ≤ l.length :=
  List.length_filter_le ..

omit [Add T] [Zero T] in
/-- Where none has expired, all are live. -/
lemma live_of_forall {now : T} {l : List (JsString × Entry T)} (h : ∀ e ∈ l, now < e.2.expires) :
    live now l = l := by
  rw [live, List.filter_eq_self]
  intro e he
  exact decide_eq_true (h e he)

omit [Add T] [Zero T] in
/-- What is live later was live before. -/
lemma live_live {now now' : T} (h : now ≤ now') (l : List (JsString × Entry T)) :
    live now' (live now l) = live now' l := by
  rw [live, live, List.filter_filter]
  apply List.filter_congr
  intro e _
  rw [Bool.and_eq_left_iff_imp, decide_eq_true_eq, decide_eq_true_eq]
  exact h.trans_lt

omit [Add T] [Zero T] in
/-- Live entries have distinct keys. -/
lemma nodup_live (now : T) (cache : OrderedMap JsString (Entry T)) :
    ((live now cache.entries).map Prod.fst).Nodup :=
  cache.nodup.sublist (List.filter_sublist.map _)

/-! ## What a store drops -/

omit [Add T] [Zero T] in
/-- In a full cache the loop drops the first expired entry. -/
lemma dropExpired_full {limit : Nat} (hl : 0 < limit) (now : T) (l : List (JsString × Entry T)) :
    dropExpired limit now limit l = l.eraseP fun e => decide (e.2.expires ≤ now) := by
  induction l with
  | nil => rfl
  | cons e es ih =>
    rw [dropExpired, if_neg (Nat.lt_irrefl _), List.eraseP_cons]
    by_cases he : e.2.expires ≤ now
    · rw [if_pos he, decide_eq_true he, cond_true]
      -- one entry fewer, and the loop returns
      cases es with
      | nil => rfl
      | cons d ds => rw [dropExpired, if_pos (by omega)]
    · rw [if_neg he, decide_eq_false he, cond_false, ih]

omit [Add T] [Zero T] in
/-- Below the limit nothing is evicted. -/
lemma evictFor_of_lt {limit : Nat} {now : T} {cache : OrderedMap JsString (Entry T)}
    (h : cache.size < limit) : evictFor limit now cache = cache := by
  obtain ⟨l, hl⟩ := cache
  have hloop : dropExpired limit now l.length l = l := by
    cases l with
    | nil => rfl
    | cons e es => exact if_pos h
  have hkeep : OrderedMap.keep ⟨l, hl⟩ (dropExpired limit now l.length l)
      (dropExpired_sublist ..) = ⟨l, hl⟩ := by
    simp only [OrderedMap.keep, hloop]
  exact (congrArg (OrderedMap.makeRoom · limit) hkeep).trans (OrderedMap.makeRoom_of_lt h)

omit [Add T] [Zero T] in
/-- A full cache drops its victim: an expired entry, or the first of a cache without any. -/
lemma evictFor_full {limit : Nat} (now : T) {cache : OrderedMap JsString (Entry T)}
    (hl : 0 < limit) (h : cache.size = limit) :
    ∃ v pre post, victim now cache = some v ∧ cache.entries = pre ++ v :: post ∧
      (evictFor limit now cache).entries = pre ++ post ∧
      (v.2.expires ≤ now ∨ (pre = [] ∧ ∀ e ∈ cache.entries, now < e.2.expires)) := by
  have hev : (evictFor limit now cache).entries = OrderedMap.dropOldest limit
      (cache.entries.eraseP fun e => decide (e.2.expires ≤ now)) := by
    rw [← dropExpired_full hl, ← h]
    rfl
  cases hfind : cache.entries.find? fun e => decide (e.2.expires ≤ now) with
  | some v =>
    obtain ⟨hv, pre, post, hsplit, hpre⟩ := List.find?_eq_some_iff_append.mp hfind
    have herase : cache.entries.eraseP (fun e => decide (e.2.expires ≤ now)) = pre ++ post := by
      rw [hsplit, List.eraseP_append_right _ (fun e he => by simpa using hpre e he),
        List.eraseP_cons_of_pos (by simpa using hv)]
    refine ⟨v, pre, post, by simp [victim, hfind], hsplit, ?_, .inl (of_decide_eq_true hv)⟩
    rw [hev, herase, OrderedMap.dropOldest_of_lt]
    have : cache.entries.length = limit := h
    rw [hsplit] at this
    simp only [List.length_append, List.length_cons] at this ⊢
    omega
  | none =>
    have hlive : ∀ e ∈ cache.entries, now < e.2.expires := by
      intro e he
      simpa using List.find?_eq_none.mp hfind e he
    have herase : cache.entries.eraseP (fun e => decide (e.2.expires ≤ now)) = cache.entries :=
      List.eraseP_of_forall_not fun e he => by simpa using hlive e he
    have hsize : cache.entries.length = limit := h
    have hvictim : victim now cache = cache.entries.head? := by rw [victim, hfind, Option.none_or]
    cases hes : cache.entries with
    | nil => rw [hes] at hsize; exact absurd hl (by simp [← hsize])
    | cons v post =>
      refine ⟨v, [], post, by rw [hvictim, hes]; rfl, rfl, ?_, .inr ⟨rfl, hes ▸ hlive⟩⟩
      rw [hes, List.length_cons] at hsize
      rw [hev, herase, hes, OrderedMap.dropOldest, if_pos hsize.ge,
        OrderedMap.dropOldest_of_lt (by omega)]
      rfl

/-! ## What a store keeps -/

omit [Add T] [Zero T] in
/-- The victim is evicted. -/
lemma get_evictFor_victim {limit : Nat} {now : T} {cache : OrderedMap JsString (Entry T)}
    {v : JsString × Entry T} (hl : 0 < limit) (h : cache.size = limit)
    (hv : victim now cache = some v) : (evictFor limit now cache).get v.1 = none := by
  obtain ⟨w, pre, post, hw, hsplit, hevict, -⟩ := evictFor_full now hl h
  rw [hv] at hw
  cases hw
  rw [Option.eq_none_iff_forall_ne_some]
  intro e he
  have hmem := OrderedMap.mem_entries.mpr he
  have hnodup := cache.nodup
  rw [hsplit] at hnodup
  obtain ⟨hpre, hpost⟩ := Lru.notMem_around hnodup
  rcases List.mem_append.mp (hevict ▸ hmem) with h | h
  · exact hpre (List.mem_map.mpr ⟨_, h, rfl⟩)
  · exact hpost (List.mem_map.mpr ⟨_, h, rfl⟩)

omit [Zero T] in
/-- A new entry goes to the end of what is left. -/
lemma entries_store_absent {limit : Nat} {cache : OrderedMap JsString (Entry T)} {key : JsString}
    (h : cache.has key = false) (now ttl : T) (r : Resolution) (call : Nat) :
    (store limit now ttl key r call cache).entries =
      (evictFor limit now cache).entries ++ [(key, ⟨now + ttl, r, call⟩)] := by
  apply OrderedMap.entries_set_of_not_has
  cases hk : (evictFor limit now cache).has key with
  | false => rfl
  | true =>
    obtain ⟨v, hv⟩ := OrderedMap.has_iff.mp hk
    rw [OrderedMap.has_iff.mpr ⟨v, get_of_get_evictFor hv⟩] at h
    cases h

omit [Zero T] in
/-- A clean store of a key that is there moves the key to the back, and drops nothing else. -/
lemma entries_store_present {limit : Nat} {now : T} {cache : OrderedMap JsString (Entry T)}
    {key : JsString} (hl : 0 < limit) (hb : cache.size ≤ limit) (hk : cache.has key = true)
    (h : PutsCleanly limit now cache key) (ttl : T) (r : Resolution) (call : Nat) :
    ∃ old pre post, cache.entries = pre ++ (key, old) :: post ∧
      (store limit now ttl key r call cache).entries =
        pre ++ post ++ [(key, ⟨now + ttl, r, call⟩)] := by
  rcases h with h | ⟨hfull, hv⟩ | ⟨hroom, hlast⟩
  · rw [hk] at h
    cases h
  · -- the key is the victim, so it is gone when it is set
    obtain ⟨⟨k, old⟩, pre, post, hvictim, hsplit, hevict, -⟩ :=
      evictFor_full now hl (le_antisymm hb hfull)
    obtain rfl : k = key := by simpa [hvictim] using hv
    refine ⟨old, pre, post, hsplit, ?_⟩
    have hgone : (evictFor limit now cache).has k = false :=
      OrderedMap.has_eq_false.mpr (get_evictFor_victim hl (le_antisymm hb hfull) hvictim)
    rw [store, OrderedMap.entries_set_of_not_has _ hgone, hevict]
  · obtain ⟨⟨k, old⟩, hget, rfl⟩ := Option.map_eq_some_iff.mp hlast
    obtain ⟨pre, hsplit⟩ := List.getLast?_eq_some_iff.mp hget
    refine ⟨old, pre, [], hsplit, ?_⟩
    rw [store, evictFor_of_lt hroom, OrderedMap.entries_set_of_has hsplit, List.append_nil]

omit [Add T] [Zero T] in
/-- A key that is not in the cache is not among its unexpired entries. -/
lemma notMem_live {now : T} {cache : OrderedMap JsString (Entry T)} {key : JsString}
    (h : cache.get key = none) : key ∉ (live now cache.entries).map Prod.fst := by
  intro hmem
  obtain ⟨e, he, rfl⟩ := List.mem_map.mp hmem
  have hget := OrderedMap.mem_entries.mp (List.mem_of_mem_filter he : (e.1, e.2) ∈ cache.entries)
  rw [h] at hget
  cases hget

omit [Add T] [Zero T] in
/-- The unexpired entries that eviction leaves for a new key are those of the LRU map. -/
lemma live_evictFor {limit : Nat} {now : T} {cache : OrderedMap JsString (Entry T)}
    {key : JsString} (hl : 0 < limit) (hb : cache.size ≤ limit) (hk : cache.has key = false) :
    live now (evictFor limit now cache).entries =
      Lru.makeRoom limit key (live now cache.entries) := by
  have habsent : key ∉ (live now cache.entries).map Prod.fst :=
    notMem_live (OrderedMap.has_eq_false.mp hk)
  have hroom (h : (live now cache.entries).length < limit) :
      Lru.makeRoom limit key (live now cache.entries) = live now cache.entries := by
    rw [Lru.makeRoom_of_lt (by rwa [Lru.without_of_notMem habsent]), Lru.without_of_notMem habsent]
  rcases Nat.lt_or_eq_of_le hb with hlt | hfull
  · rw [evictFor_of_lt hlt, hroom ((length_live_le now _).trans_lt hlt)]
  obtain ⟨v, pre, post, -, hsplit, hevict, hexpired | ⟨rfl, hlive⟩⟩ :=
    evictFor_full now hl hfull
  · -- an expired entry made room
    have hsame : live now (pre ++ post) = live now cache.entries := by
      rw [hsplit, live_append, live_append]
      simp [live, hexpired]
    have hlen : cache.entries.length = limit := hfull
    rw [hevict, hsame, hroom]
    rw [← hsame]
    apply (length_live_le now _).trans_lt
    rw [hsplit] at hlen
    simp only [List.length_append, List.length_cons] at hlen ⊢
    omega
  · have hsame : live now cache.entries = cache.entries := live_of_forall hlive
    rw [Lru.makeRoom_full habsent (by rw [hsame]; exact hfull.ge), hsame, hevict, hsplit]
    rw [List.nil_append, List.nil_append, List.tail_cons]
    exact live_of_forall fun e he => hlive e (by rw [hsplit]; exact List.mem_cons_of_mem v he)

omit [Zero T] in
/-- A clean store agrees with the LRU map. -/
lemma live_store {limit : Nat} {now : T} {cache : OrderedMap JsString (Entry T)}
    {key : JsString} (hl : 0 < limit) (hb : cache.size ≤ limit)
    (h : PutsCleanly limit now cache key) (ttl : T) (r : Resolution) (call : Nat) :
    live now (store limit now ttl key r call cache).entries =
      live now (Lru.put limit key ⟨now + ttl, r, call⟩ (live now cache.entries)) := by
  rw [Lru.put, live_append]
  cases hk : cache.has key with
  | false =>
    rw [entries_store_absent hk, live_append, ← live_evictFor hl hb hk, live_live (le_refl now)]
  | true =>
    obtain ⟨old, pre, post, hsplit, hstore⟩ := entries_store_present hl hb hk h ttl r call
    have hnodup := cache.nodup
    rw [hsplit] at hnodup
    have hwithout : Lru.without key (live now cache.entries) = live now (pre ++ post) := by
      rw [← live_without, hsplit, Lru.without_append hnodup]
    have hlt : (live now (pre ++ post)).length < limit := by
      refine (length_live_le now _).trans_lt (lt_of_lt_of_le ?_ hb)
      rw [OrderedMap.size, hsplit]
      simp only [List.length_append, List.length_cons]
      omega
    rw [hstore, live_append, Lru.makeRoom_of_lt (by rwa [hwithout]), hwithout,
      live_live (le_refl now)]

/-! ## What a lookup keeps -/

/-- What a lookup leaves of the cache: a hit moves to the back, an expired entry goes. -/
def looked (now : T) (key : JsString) (cache : OrderedMap JsString (Entry T)) :
    OrderedMap JsString (Entry T) :=
  match cache.get key with
  | none => cache
  | some hit =>
    if now < hit.expires then (cache.delete key).set key hit else cache.delete key

omit [LinearOrder T] [Add T] [Zero T] in
/-- A `resolve` past the cache leaves the cache and the clock. -/
lemma resolveMissed_state (s : State T) (did method : JsString) (options : ResolveOptions) :
    (resolveMissed cfg s did method options).1.cache = s.cache ∧
      (resolveMissed cfg s did method options).1.now = s.now := by
  simp only [resolveMissed, rawResolve]
  split
  · exact ⟨rfl, rfl⟩
  · split <;> exact ⟨rfl, rfl⟩

omit [Add T] in
/-- A `resolve` past the cache leaves it, and any other looks its key up. -/
lemma resolve_looks (s : State T) {did method : JsString} (options : ResolveOptions)
    (hm : parseMethod did = .ok method) :
    (resolve cfg s did options).1.now = s.now ∧
      (resolve cfg s did options).1.cache =
        if bypasses cfg s method options then s.cache else looked s.now (cacheKey did) s.cache := by
  rw [resolve, hm]
  dsimp only
  cases hb : bypasses cfg s method options with
  | true =>
    simp only [if_true, rawResolve]
    split <;> exact ⟨rfl, rfl⟩
  | false =>
    simp only [Bool.false_eq_true, if_false, looked]
    have missed (s' : State T) := resolveMissed_state cfg s' did method options
    cases s.cache.get (cacheKey did) with
    | none => exact (missed _).symm
    | some hit =>
      dsimp only
      split
      · exact ⟨rfl, rfl⟩
      · exact (missed _).symm

omit [Add T] [Zero T] in
/-- A hit moves its live entry. -/
lemma live_touch (now : T) (key : JsString) (l : List (JsString × Entry T)) :
    live now (Lru.touch key l) = Lru.touch key (live now l) := by
  rw [Lru.touch, live_append, live_without, Lru.touch]
  simp only [live, List.filter_filter, Bool.and_comm]

omit [Add T] [Zero T] in
/-- A lookup is a use of its key, where that has not expired. -/
lemma live_looked (now : T) (key : JsString) (cache : OrderedMap JsString (Entry T)) :
    live now (looked now key cache).entries = Lru.touch key (live now cache.entries) := by
  unfold looked
  split
  · rename_i hget
    rw [Lru.touch_of_notMem (notMem_live hget)]
  rename_i hit hget
  obtain ⟨pre, post, hsplit⟩ := List.append_of_mem (OrderedMap.mem_entries.mpr hget)
  have hnodup := cache.nodup
  rw [hsplit] at hnodup
  have hdelete : (cache.delete key).entries = pre ++ post := by
    rw [← Lru.without_append hnodup, ← hsplit]
    rfl
  have hlive := nodup_live now cache
  rw [hsplit] at hlive ⊢
  split
  · rename_i hnow
    have e : live now (pre ++ (key, hit) :: post) = live now pre ++ (key, hit) :: live now post := by
      rw [live_append]
      simp [live, hnow]
    rw [e] at hlive ⊢
    have hgone : (cache.delete key).has key = false :=
      OrderedMap.has_eq_false.mpr (OrderedMap.get_delete_self ..)
    rw [Lru.touch_append hlive, OrderedMap.entries_set_of_not_has _ hgone, hdelete, live_append,
      live_append]
    simp [live, hnow]
  · rename_i hnow
    have e : live now (pre ++ (key, hit) :: post) = live now (pre ++ post) := by
      rw [live_append, live_append]
      simp [live, hnow]
    obtain ⟨hpre, hpost⟩ := Lru.notMem_around hnodup
    rw [hdelete, e, Lru.touch_of_notMem]
    intro hmem
    obtain ⟨d, hd, rfl⟩ := List.mem_map.mp hmem
    rcases List.mem_append.mp (List.mem_of_mem_filter hd) with h | h
    · exact hpre (List.mem_map_of_mem h)
    · exact hpost (List.mem_map_of_mem h)

/-! ## Steps and runs -/

/-- The unexpired entries of a state are those of an LRU map. -/
def Agrees (s : State T) (m : List (JsString × Entry T)) : Prop :=
  live s.now s.cache.entries = live s.now m

variable {cfg}

/-- A resolution looks its key up where the DID is one the cache holds, and stores nothing. -/
lemma Agrees.resolves {s s' : State T} {m : List (JsString × Entry T)} {did : JsString}
    {options : ResolveOptions} {e : Event T} (h : Agrees s m)
    (hr : resolve cfg s did options = (s', e)) :
    Agrees s' ((opOf cfg s (.resolve did options)).onLru cfg.limit m) := by
  unfold Agrees at h ⊢
  cases hm : parseMethod did with
  | error err =>
    simp only [resolve, hm] at hr
    cases hr
    simpa only [opOf, hm, CacheOp.onLru] using h
  | ok method =>
    obtain ⟨hnow, hcache⟩ := resolve_looks cfg s options hm
    rw [hr] at hnow hcache
    simp only at hnow hcache
    simp only [opOf, hm, hnow, hcache]
    split
    · exact h
    · rw [live_looked, CacheOp.onLru, live_touch, live_live (le_refl _), h]

/-- A handler that returns stores its result where the call is shared and the result cacheable. -/
lemma Agrees.fulfils {s s' : State T} {m : List (JsString × Entry T)} {call : Nat}
    {result : Option Resolution} {e : Event T} (h : Agrees s m) (hl : 0 < cfg.limit)
    (hb : s.cache.size ≤ cfg.limit) (hclean : IsClean cfg s (.fulfil call result))
    (hf : fulfil cfg s call result = some (s', e)) :
    Agrees s' ((opOf cfg s (.fulfil call result)).onLru cfg.limit m) := by
  unfold Agrees at h ⊢
  simp only [fulfil] at hf
  cases hp : s.pending.get call with
  | none => simp [hp] at hf
  | some p =>
    cases hshare : p.share with
    | none =>
      -- a call that bypassed the cache
      simp only [hp, hshare] at hf
      cases hf
      cases result with
      | none => exact h
      | some r => simpa only [opOf, hp, Option.bind_some, hshare, CacheOp.onLru] using h
    | some key =>
      cases result with
      | none =>
        simp only [hp, hshare] at hf
        cases hf
        exact h
      | some r =>
        have hop : opOf cfg s (.fulfil call (some r)) =
            if isCacheable r then .put key ⟨s.now + s.ttl, r, call⟩ s.now else .idle := by
          simp only [opOf, hp, Option.bind_some, hshare]
        simp only [hp, hshare] at hf
        rw [hop]
        split at hf
        · rename_i hc
          cases hf
          rw [if_pos hc] at hop ⊢
          rw [live_store hl hb (hclean _ _ _ hop), h]
          rfl
        · rename_i hc
          cases hf
          rw [if_neg hc]
          exact h

/-- A clean command does to the cache what its operation does to the LRU map. -/
lemma Agrees.stepOp {s s' : State T} {m : List (JsString × Entry T)} {cmd : Command T}
    {op : CacheOp T} (h : Agrees s m) (hl : 0 < cfg.limit) (hb : s.cache.size ≤ cfg.limit)
    (hclean : IsClean cfg s cmd) (hs : stepOp cfg s cmd = some (s', op)) :
    Agrees s' (op.onLru cfg.limit m) := by
  obtain ⟨⟨t, e⟩, hstep, heq⟩ := Option.map_eq_some_iff.mp hs
  cases heq
  cases cmd with
  | resolve did options => exact h.resolves (Option.some.inj hstep)
  | fulfil call result => exact h.fulfils hl hb hclean hstep
  | reject call err =>
    obtain ⟨p, hp, hc⟩ := reject_completes cfg hstep
    obtain rfl := reject_event hstep
    cases hc with
    | alone => exact h
    | shared => exact h
  | invalidate did =>
    cases hstep
    unfold Agrees at h ⊢
    rw [opOf, CacheOp.onLru, live_without, ← h, ← live_without]
    rfl
  | clearCache =>
    cases hstep
    rfl
  | setCacheTtl ms =>
    cases hstep
    simp only [opOf]
    split
    · rfl
    · exact h
  | tick now =>
    simp only [step] at hstep
    split at hstep
    · rename_i hle
      cases hstep
      -- what has expired by then has expired in both
      show live now s.cache.entries = live now m
      rw [← live_live hle, h, live_live hle]
    · cases hstep

/-- A run of clean steps agrees with the LRU map, and keeps its bound. -/
lemma agrees_of_run {ttl now : T} {tr : List (CacheOp T)} {s : State T} (hl : 0 < cfg.limit)
    (r : Lts.Run (CleanStep cfg) (init ttl now) tr s) :
    Agrees s (reference cfg.limit tr) ∧ WellFormed cfg s := by
  refine r.invariant (I := fun s tr => Agrees s (reference cfg.limit tr) ∧ WellFormed cfg s)
    ⟨rfl, wellFormed_init ttl now⟩ ?_
  rintro s tr evs s' ⟨hagree, hwf⟩ ⟨cmd, op, hclean, hs, rfl⟩
  constructor
  · rw [reference, List.foldl_append]
    exact hagree.stepOp hl hwf.bound hclean hs
  · obtain ⟨⟨t, e⟩, hstep, heq⟩ := Option.map_eq_some_iff.mp hs
    cases heq
    have hcmd : Step cfg s [e] t := ⟨cmd, e, hstep, rfl⟩
    obtain ⟨d, -, hsteps⟩ := hcmd.steps
    exact hwf.steps hsteps

/-! ## The law of a store -/

omit [Zero T] in
/-- A store that keeps the LRU order is a clean one. -/
lemma putsCleanly_of_storesAsLru {limit : Nat} {now ttl : T} {used : List (JsString × Entry T)}
    {cache : OrderedMap JsString (Entry T)} {key : JsString} {r : Resolution} {call : Nat}
    (hl : 0 < limit) (hb : cache.size ≤ limit)
    (h : StoresAsLru limit now used cache (store limit now ttl key r call cache) key) :
    PutsCleanly limit now cache key := by
  cases hk : cache.has key with
  | false => exact .inl hk
  | true =>
    rcases Nat.lt_or_eq_of_le hb with hroom | hfull
    · -- the key is set where it is, so it was the last before
      refine .inr (.inr ⟨hroom, ?_⟩)
      obtain ⟨pre, old, post, hsplit⟩ := OrderedMap.exists_entries_of_has hk
      have hrecent := h.recent
      rw [store, evictFor_of_lt hroom, OrderedMap.entries_set_of_has hsplit] at hrecent
      rw [hsplit, ← List.getLast?_map, List.map_append, List.map_cons]
      rwa [← List.getLast?_map, List.map_append, List.map_cons] at hrecent
    · refine .inr (.inl ⟨hfull.ge, ?_⟩)
      obtain ⟨v, pre, post, hv, hsplit, -⟩ := evictFor_full now hl hfull
      rw [hv, Option.map_some, Option.some.injEq]
      by_contra hne
      have hget : cache.get v.1 = some v.2 := by
        rw [← OrderedMap.mem_entries, hsplit]
        simp
      have hkept := h.present hk v.1 v.2 hne hget
      rw [store, OrderedMap.get_set_ne hne, get_evictFor_victim hl hfull hv] at hkept
      cases hkept

omit [Zero T] in
/-- A clean store keeps the LRU order. -/
lemma storesAsLru_of_putsCleanly {limit : Nat} {now ttl : T} {used : List (JsString × Entry T)}
    {cache : OrderedMap JsString (Entry T)} {key : JsString} {r : Resolution} {call : Nat}
    (hl : 0 < limit) (hb : cache.size ≤ limit)
    (hused : live now cache.entries = live now used) (h : PutsCleanly limit now cache key) :
    StoresAsLru limit now used cache (store limit now ttl key r call cache) key := by
  cases hk : cache.has key with
  | true =>
    -- every other key keeps its entry
    obtain ⟨old, pre, post, hsplit, hstore⟩ := entries_store_present hl hb hk h ttl r call
    refine ⟨by simp [hstore], ?_, fun hn => by simp [hk] at hn⟩
    intro _ k e hne hget
    have hmem := OrderedMap.mem_entries.mpr hget
    rw [← OrderedMap.mem_entries, hstore]
    simp only [hsplit, List.mem_append, List.mem_cons, Prod.mk.injEq, hne, false_and, false_or]
      at hmem ⊢
    exact .inl hmem
  | false =>
    -- what is gone is what `evictFor` dropped, and a live entry it drops is the first
    have hstore := @entries_store_absent _ _ _ limit _ _ hk now ttl r call
    refine ⟨by simp [hstore], fun hn => by simp [hk] at hn, ?_⟩
    intro _ k e hget hlive hgone
    have hdropped : (k, e) ∉ (evictFor limit now cache).entries := by
      intro hmem
      have : (k, e) ∈ (store limit now ttl key r call cache).entries := by
        rw [hstore]
        exact List.mem_append_left _ hmem
      rw [OrderedMap.mem_entries, hgone] at this
      cases this
    have hmem := OrderedMap.mem_entries.mpr hget
    rcases Nat.lt_or_eq_of_le hb with hroom | hfull
    · rw [evictFor_of_lt hroom] at hdropped
      exact absurd hmem hdropped
    obtain ⟨v, pre, post, -, hsplit, hevict, hwhy⟩ := evictFor_full now hl hfull
    have hv : v = (k, e) := by
      rw [hevict, List.mem_append] at hdropped
      rw [hsplit, List.mem_append, List.mem_cons] at hmem
      grind
    rcases hwhy with hexpired | ⟨rfl, hall⟩
    · rw [hv] at hexpired
      exact absurd hlive (not_lt.mpr hexpired)
    · rw [← hused, live_of_forall hall]
      refine ⟨hfull.ge, ?_⟩
      rw [hsplit, hv]
      rfl

/-- As long as every store is clean, the cache holds the unexpired entries of an LRU map with the
same operations; and its next store keeps the order exactly when it is clean. -/
theorem cache_is_lru_while_clean {ttl now : T} {tr : List (CacheOp T)} {s : State T}
    (hl : 0 < cfg.limit) (r : Lts.Run (CleanStep cfg) (init ttl now) tr s) :
    live s.now s.cache.entries = live s.now (reference cfg.limit tr) ∧
    ∀ key result call,
      StoresAsLru cfg.limit s.now (reference cfg.limit tr) s.cache
        (store cfg.limit s.now s.ttl key result call s.cache) key ↔
      PutsCleanly cfg.limit s.now s.cache key := by
  obtain ⟨hagree, hwf⟩ := agrees_of_run hl r
  refine ⟨hagree, fun key result call => ⟨?_, ?_⟩⟩
  · exact putsCleanly_of_storesAsLru hl hwf.bound
  · exact storesAsLru_of_putsCleanly hl hwf.bound hagree

/-! ## Runs -/

/-- A document a handler may resolve to. -/
def aDocument : Resolution := ⟨some (.obj []), none, some (.obj [])⟩

/-- Two DIDs and a bound of one: the second store evicts the first. -/
theorem cache_is_lru_while_clean_example :
    ∃ tr s, Lts.Run (CleanStep ⟨1, [js "webvh"]⟩) (init 10 0 : State Nat) tr s ∧
      s.cache.entries.map Prod.fst = [js "did:webvh:Qm:b.example"] ∧
      live s.now s.cache.entries = live s.now (reference 1 tr) := by
  have one : ∀ {s s' : State Nat} {op} (cmd), stepOp ⟨1, [js "webvh"]⟩ s cmd = some (s', op) →
      (∀ key entry now, op = .put key entry now → s.cache.has key = false) →
      CleanStep ⟨1, [js "webvh"]⟩ s [op] s' := by
    intro s s' op cmd h hnew
    refine ⟨cmd, op, ?_, h, rfl⟩
    intro key entry now hput
    obtain ⟨r, -, heq⟩ := Option.map_eq_some_iff.mp h
    rw [← (Prod.mk.inj heq).2] at hnew
    exact .inl (hnew key entry now hput)
  have r₁ := Lts.Run.snoc (.nil (init 10 0 : State Nat))
    (one (.resolve (js "did:webvh:Qm:a.example") {}) rfl (fun _ _ _ h => by cases h))
  have r₂ := r₁.snoc (one (.fulfil 0 (some aDocument)) rfl (fun _ _ _ h => by cases h; rfl))
  have r₃ := r₂.snoc
    (one (.resolve (js "did:webvh:Qm:b.example") {}) rfl (fun _ _ _ h => by cases h))
  have r₄ := r₃.snoc (one (.fulfil 1 (some aDocument)) rfl (fun _ _ _ h => by cases h; rfl))
  exact ⟨_, _, r₄, rfl, (cache_is_lru_while_clean (by decide) r₄).1⟩

/-- One identity through two sources, resolved at the same time beside another DID: the second store
under its key evicts the other DID. -/
theorem cache_is_not_lru :
    ¬ ∀ (tr : List (CacheOp Nat)) (s : State Nat),
      Lts.Run (OpStep ⟨2, [js "scid", js "webvh"]⟩) (init 10 0) tr s →
      live s.now s.cache.entries = live s.now (reference 2 tr) := by
  intro h
  have hrun := Lts.run_of_exec
    (show Lts.exec (stepOp ⟨2, [js "scid", js "webvh"]⟩) (init 10 0 : State Nat)
      [.resolve (js "did:webvh:Qm:b.example") {},
        .resolve (js "did:scid:vh:1:Qm?src=a.example") {},
        .resolve (js "did:scid:vh:1:Qm?src=c.example") {},
        .fulfil 0 (some aDocument), .fulfil 1 (some aDocument), .fulfil 2 (some aDocument)] =
      some (_, _) from rfl)
  have heq := congrArg (List.map Prod.fst) (h _ _ hrun)
  revert heq
  decide

end VtiDidcomm.Resolver
