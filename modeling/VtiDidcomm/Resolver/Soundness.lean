import VtiDidcomm.Resolver.Cache

/-!
# Cache soundness

What the cache of a resolver holds, along every run. `Sound` is the invariant: every entry is backed
by the events that put it there, every shared call by the one that started it. What is served from
the cache is read off from it.
-/

namespace VtiDidcomm.Resolver
open Js

/-! ## Methods and cache keys -/

/-- A did:scid has its method. -/
lemma parseMethod_scid {did : JsString} (h : startsWith did scidPrefix = true) :
    parseMethod did = .ok (js "scid") := by
  obtain ⟨rest, rfl⟩ := startsWith_iff.mp h
  have hpre : startsWith (scidPrefix ++ rest) (js "did:") = true := by
    rw [startsWith_iff]
    exact ⟨js "scid:" ++ rest, rfl⟩
  have hcut : sliceFrom (scidPrefix ++ rest) 4 = js "scid" ++ colon :: rest := rfl
  have hidx : indexOf (js "scid" ++ colon :: rest) colon = some (js "scid").length :=
    indexOf_append (by decide)
  simp [parseMethod, hpre, hcut, hidx]

/-- A DID and its key have one method. -/
lemma parseMethod_cacheKey (did : JsString) : parseMethod (cacheKey did) = parseMethod did := by
  obtain ⟨e, -⟩ | ⟨d, src, fragment, h, e⟩ := stripScidSrc_cases did
  · rw [cacheKey, e]
  · have hkey : startsWith (cacheKey did) scidPrefix = true := by
      rw [cacheKey, e, startsWith_iff]
      exact (startsWith_iff.mp h.scid).trans (List.prefix_append _ _)
    have hdid : startsWith did scidPrefix = true := by
      rw [h.eq, startsWith_iff]
      exact (startsWith_iff.mp h.scid).trans (List.prefix_append _ _)
    rw [parseMethod_scid hkey, parseMethod_scid hdid]

/-- `did` is of a method that resolves offline from the identifier. -/
def IsUncached (did : JsString) : Prop := ∃ method ∈ uncachedMethods, parseMethod did = .ok method

/-- A DID and its key are both uncached or both not. -/
lemma isUncached_cacheKey {did : JsString} : IsUncached (cacheKey did) ↔ IsUncached did := by
  simp only [IsUncached, parseMethod_cacheKey]

/-! ## The invariant -/

variable {T : Type*} [LinearOrder T] [Add T] [Zero T] {cfg : Config}

/-- `call` was made for a DID that is cached under `key`, as of now. -/
structure CurrentCall (tr : List (Event T)) (call : Nat) (key : JsString) (did : JsString)
    (options : ResolveOptions) : Prop where
  called : .called call did options ∈ tr
  current : options.versionTime = none
  key : cacheKey did = key
  cached : ¬ IsUncached did

/-- An entry was stored by a fulfilled current call, no later than `now`. -/
structure Backed (tr : List (Event T)) (now : T) (key : JsString) (entry : Entry T) (did : JsString)
    (options : ResolveOptions) (stored ttl : T) : Prop where
  call : CurrentCall tr entry.call key did options
  cacheable : isCacheable entry.result = true
  fulfilled : .fulfilled entry.call (some entry.result) (some (stored, ttl)) ∈ tr
  expires : entry.expires = stored + ttl
  past : stored ≤ now

/-- The invariant of a resolver. -/
structure Sound (cfg : Config) (s : State T) (tr : List (Event T)) : Prop where
  wellFormed : WellFormed cfg s
  entry : ∀ key entry, s.cache.get key = some entry →
    ∃ did options stored ttl, Backed tr s.now key entry did options stored ttl
  shared : ∀ call p key, s.pending.get call = some p → p.share = some key →
    CurrentCall tr call key p.did p.options

omit [LinearOrder T] [Add T] [Zero T] in
/-- A call stays what it is, whatever happens. -/
lemma CurrentCall.append {tr evs : List (Event T)} {call : Nat} {key did : JsString}
    {options : ResolveOptions} (h : CurrentCall tr call key did options) :
    CurrentCall (tr ++ evs) call key did options :=
  ⟨List.mem_append_left _ h.called, h.current, h.key, h.cached⟩

omit [Zero T] in
/-- An entry stays backed, whatever happens. -/
lemma Backed.append {tr evs : List (Event T)} {now now' : T} {key did : JsString} {entry : Entry T}
    {options : ResolveOptions} {stored ttl : T} (h : Backed tr now key entry did options stored ttl)
    (hle : now ≤ now') : Backed (tr ++ evs) now' key entry did options stored ttl :=
  ⟨h.call.append, h.cacheable, List.mem_append_left _ h.fulfilled, h.expires, h.past.trans hle⟩

omit [Zero T] in
/-- A step that adds no entry and no shared call keeps the invariant. -/
lemma Sound.of_le {s s' : State T} {tr evs : List (Event T)} (h : Sound cfg s tr)
    (wellFormed : WellFormed cfg s')
    (cache : ∀ key entry, s'.cache.get key = some entry → s.cache.get key = some entry)
    (pending : ∀ call p, s'.pending.get call = some p → p.share.isSome = true →
      s.pending.get call = some p)
    (now : s.now ≤ s'.now) : Sound cfg s' (tr ++ evs) where
  wellFormed := wellFormed
  entry key entry he := by
    obtain ⟨did, options, stored, ttl, hb⟩ := h.entry key entry (cache key entry he)
    exact ⟨did, options, stored, ttl, hb.append now⟩
  shared call p key hp hs :=
    (h.shared call p key (pending call p hp (by rw [hs]; rfl)) hs).append

omit [Zero T] in
/-- What is in flight under a DID is a current call for it. -/
lemma Sound.inflight {s : State T} {tr : List (Event T)} (h : Sound cfg s tr) {did : JsString}
    {call : Nat} (hi : s.inflight.get did = some call) :
    ∃ options, CurrentCall tr call (cacheKey did) did options := by
  obtain ⟨p, hp, rfl, hsome⟩ := h.wellFormed.inflight did call hi
  obtain ⟨key, hkey⟩ := Option.isSome_iff_exists.mp hsome
  obtain ⟨rfl, -⟩ := h.wellFormed.shared call p key hp hkey
  exact ⟨p.options, h.shared call p _ hp hkey⟩

/-- A method that is cached is the method of a DID that is. -/
lemma not_isUncached {did method : JsString} (hm : parseMethod did = .ok method)
    (hu : method ∉ uncachedMethods) : ¬ IsUncached did := by
  rintro ⟨m, hmem, hm'⟩
  rw [hm] at hm'
  cases hm'
  exact hu hmem

/-- A `resolve` keeps the cache sound. -/
lemma Sound.resolves {s s' : State T} {tr : List (Event T)} {did : JsString}
    {options : ResolveOptions} {e : Event T} (h : Sound cfg s tr)
    (hr : Resolves cfg s did options s' e) : Sound cfg s' (tr ++ [e]) := by
  have wellFormed := h.wellFormed.steps (.resolve hr)
  cases hr with
  | refused err => exact h.of_le wellFormed (fun _ _ => id) (fun _ _ hp _ => hp) (le_refl _)
  | refusedMissed err =>
    exact h.of_le wellFormed (fun _ _ => OrderedMap.get_of_get_delete) (fun _ _ hp _ => hp) (le_refl _)
  | bypassed =>
    refine h.of_le wellFormed (fun _ _ => id) ?_ (le_refl _)
    intro call p hp hs
    dsimp only at hp
    rw [OrderedMap.get_set] at hp
    split at hp
    · cases hp
      cases hs
    · exact hp
  | served hm hb hhit hlive =>
    refine h.of_le wellFormed ?_ (fun _ _ hp _ => hp) (le_refl _)
    intro key entry he
    rwa [get_touch hhit] at he
  | joined hm hb hcall =>
    exact h.of_le wellFormed (fun _ _ => OrderedMap.get_of_get_delete) (fun _ _ hp _ => hp) (le_refl _)
  | called hm hb hnone =>
    obtain ⟨hv, -, -, hu⟩ := of_not_bypasses hb
    refine ⟨wellFormed, ?_, ?_⟩
    · intro key entry he
      obtain ⟨d, o, stored, ttl, hbk⟩ := h.entry key entry (OrderedMap.get_of_get_delete he)
      exact ⟨d, o, stored, ttl, hbk.append (le_refl _)⟩
    · intro call p key hp hs
      dsimp only at hp
      rw [OrderedMap.get_set] at hp
      split at hp
      · rename_i hc
        cases hp
        cases hs
        exact ⟨by simp [hc], hv, rfl, not_isUncached hm hu⟩
      · exact (h.shared call p key hp hs).append

omit [Zero T] in
/-- A completion keeps the cache sound. -/
lemma Sound.completes {s s' : State T} {tr : List (Event T)} {call : Nat} {p : Pending}
    {e : Event T} (h : Sound cfg s tr) (hp : s.pending.get call = some p)
    (wellFormed : WellFormed cfg s') (hc : Completes cfg s call p s' e) :
    Sound cfg s' (tr ++ [e]) := by
  cases hc with
  | alone hs he =>
    exact h.of_le wellFormed (fun _ _ => id) (fun _ _ hp _ => OrderedMap.get_of_get_delete hp)
      (le_refl _)
  | shared hs he =>
    exact h.of_le wellFormed (fun _ _ => id) (fun _ _ hp _ => OrderedMap.get_of_get_delete hp)
      (le_refl _)
  | @stored key r hs hcache =>
    have hcur := h.shared call p key hp hs
    refine ⟨wellFormed, ?_, ?_⟩
    · intro k entry he
      obtain ⟨rfl, rfl⟩ | ⟨-, he⟩ := get_store he
      · exact ⟨p.did, p.options, s.now, s.ttl, hcur.append, hcache, by simp, rfl, le_refl _⟩
      · obtain ⟨d, o, stored, ttl, hb⟩ := h.entry k entry he
        exact ⟨d, o, stored, ttl, hb.append (le_refl _)⟩
    · intro c q k hq hsq
      exact (h.shared c q k (OrderedMap.get_of_get_delete hq) hsq).append

/-- Every step keeps the cache sound. -/
lemma Sound.steps {s s' : State T} {tr : List (Event T)} {e : Event T} (h : Sound cfg s tr)
    (hs : Steps cfg s s' e) : Sound cfg s' (tr ++ [e]) := by
  have wellFormed := h.wellFormed.steps hs
  cases hs with
  | resolve hr => exact h.resolves hr
  | complete hp hc => exact h.completes hp wellFormed hc
  | invalidate did =>
    exact h.of_le wellFormed (fun _ _ => OrderedMap.get_of_get_delete) (fun _ _ hp _ => hp) (le_refl _)
  | clearCache =>
    refine h.of_le wellFormed ?_ (fun _ _ hp _ => hp) (le_refl _)
    intro key entry he
    cases he
  | setCacheTtl ms =>
    refine h.of_le wellFormed ?_ (fun _ _ hp _ => hp) (le_refl _)
    intro key entry he
    dsimp only at he
    split at he
    · cases he
    · exact he
  | tick hle => exact h.of_le wellFormed (fun _ _ => id) (fun _ _ hp _ => hp) hle

omit [Zero T] in
/-- A new cache is sound. -/
lemma sound_init (ttl now : T) : Sound cfg (init ttl now) [] where
  wellFormed := wellFormed_init ttl now
  entry _ _ h := by cases h
  shared _ _ _ h := by cases h

/-- The cache is sound after any run. -/
lemma sound_of_run {ttl now : T} {tr : List (Event T)} {s : State T}
    (r : Lts.Run (Step cfg) (init ttl now) tr s) : Sound cfg s tr := by
  apply r.invariant (sound_init ttl now)
  intro s tr evs s' h hstep
  obtain ⟨e, rfl, hs⟩ := Step.steps hstep
  exact h.steps hs

/-! ## What is served -/

/-- What a `resolve` may show, after the events `pre`: from the cache, what a current call for the
same identity produced and that has not expired; and no versioned `resolve` is served or joins. -/
def ServesSoundly (pre : List (Event T)) : Event T → Prop
  | .served call did options result now =>
    options.versionTime = none ∧ ∃ did' options' stored ttl,
      CurrentCall pre call (cacheKey did) did' options' ∧
      .fulfilled call (some result) (some (stored, ttl)) ∈ pre ∧ stored ≤ now ∧ now < stored + ttl
  | .joined call did options =>
    options.versionTime = none ∧ ∃ options', CurrentCall pre call (cacheKey did) did options'
  | _ => True

/-- What a sound cache serves is sound. -/
lemma Sound.serves {s s' : State T} {tr : List (Event T)} {e : Event T} (h : Sound cfg s tr)
    (hs : Steps cfg s s' e) : ServesSoundly tr e := by
  cases hs with
  | resolve hr =>
    cases hr with
    | served hm hb hhit hlive =>
      obtain ⟨hv, -⟩ := of_not_bypasses hb
      obtain ⟨d, o, stored, ttl, hbk⟩ := h.entry _ _ hhit
      exact ⟨hv, d, o, stored, ttl, hbk.call, hbk.fulfilled, hbk.past, hbk.expires ▸ hlive⟩
    | joined hm hb hcall =>
      obtain ⟨hv, -⟩ := of_not_bypasses hb
      exact ⟨hv, h.inflight hcall⟩
    | _ => trivial
  | complete hp hc =>
    cases hc with
    | alone hs he => cases e <;> trivial
    | shared hs he => cases e <;> trivial
    | stored => trivial
  | _ => trivial

/-- The cache of a resolver is sound along every run: it stays within its bound, holds nothing for a
did:key or a did:peer and nothing that is not a current, successful resolution, and what is served
from it was produced by an earlier current call for the same identity and stored less than a TTL
ago. -/
theorem resolver_cache_sound {ttl now : T} {tr : List (Event T)} {s : State T}
    (r : Lts.Run (Step cfg) (init ttl now) tr s) :
    s.cache.size ≤ cfg.limit ∧
    (∀ did, IsUncached did → s.cache.get (cacheKey did) = none) ∧
    (∀ key entry, s.cache.get key = some entry → isCacheable entry.result = true ∧
      ∃ did options, CurrentCall tr entry.call key did options) ∧
    Lts.Guarded ServesSoundly tr ∧
    (∀ call did options did' options', .called call did options ∈ tr →
      .called call did' options' ∈ tr → did = did' ∧ options = options') := by
  have h := sound_of_run r
  refine ⟨h.wellFormed.bound, ?_, ?_, ?_, (numbered_of_run r).unique⟩
  · intro did hu
    cases hg : s.cache.get (cacheKey did) with
    | none => rfl
    | some entry =>
      obtain ⟨d, o, stored, ttl, hb⟩ := h.entry _ _ hg
      rw [← isUncached_cacheKey, ← hb.call.key, isUncached_cacheKey] at hu
      exact absurd hu hb.call.cached
  · intro key entry hg
    obtain ⟨d, o, stored, ttl, hb⟩ := h.entry _ _ hg
    exact ⟨hb.cacheable, d, o, hb.call⟩
  · have keep : Sound cfg s tr ∧ Lts.Guarded ServesSoundly tr := by
      refine r.invariant (I := fun s tr => Sound cfg s tr ∧ Lts.Guarded ServesSoundly tr)
        ⟨sound_init ttl now, Lts.guarded_nil⟩ ?_
      rintro s tr evs s' ⟨h, hg⟩ hstep
      obtain ⟨e, rfl, hs⟩ := Step.steps hstep
      exact ⟨h.steps hs, Lts.guarded_snoc.mpr ⟨hg, h.serves hs⟩⟩
    exact keep.2

/-- A `webvh` DID resolved, stored, and served from the cache five ticks later. -/
theorem resolver_cache_sound_example :
    ∃ tr s, (∃ result, Event.served 0 (js "did:webvh:Qm:a.example") {} result 5 ∈ tr) ∧
      s.cache.size ≤ 1 ∧ Lts.Run (Step ⟨1, [js "webvh"]⟩) (init 10 0 : State Nat) tr s := by
  let doc : Resolution := ⟨some (.obj []), none, some (.obj [])⟩
  have hrun := Lts.run_of_exec
    (show Lts.exec (step ⟨1, [js "webvh"]⟩) (init 10 0 : State Nat)
      [.resolve (js "did:webvh:Qm:a.example") {}, .fulfil 0 (some doc), .tick 5,
        .resolve (js "did:webvh:Qm:a.example") {}] = some (_, _) from rfl)
  exact ⟨_, _, ⟨doc, by simp⟩, (resolver_cache_sound hrun).1, hrun⟩

end VtiDidcomm.Resolver
