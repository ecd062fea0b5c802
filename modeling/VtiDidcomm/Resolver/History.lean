import Mathlib.Algebra.Order.Group.Int
import Mathlib.Algebra.Order.Monoid.Unbundled.Basic
import VtiDidcomm.Did.ScidResolve
import VtiDidcomm.Resolver.Soundness

/-!
# No rollback

One resolver and its did:scid source book, through any sequence of current resolutions of did:scid
DID URLs that do not overlap. Between and during them the clock moves, keys are invalidated, the
cache is cleared, its TTL set, and sources are added.

The book never goes back (`SourceBook.run_version`). What a `resolve` returns follows the book as
long as the cache keys on the identity, which it does for a DID URL without a fragment
(`no_rollback`); a DID URL with a fragment has a cache entry of its own, which can outlive the
version it holds (`rollback_through_fragment`).
-/

namespace VtiDidcomm.Resolver
open Js

/-- A resolver and its source book. -/
structure History (T : Type*) where
  resolver : State T
  book : SourceBook Nat

/-- What a step of the history shows. -/
inductive Shown where
  /-- A `resolve` of the DID URL returned. -/
  | returned (did : JsString) (result : Resolution)
  /-- A `resolve` started, and waits for its handler. -/
  | started (did : JsString)
  | threw (did : JsString)
  | sourced (didUrl : JsString)
  | kept

/-- What happens to a resolver and its book. -/
inductive Act (T : Type*) where
  /-- A current resolution of a did:scid DID URL starts. -/
  | resolve (did : JsString) (netPolicy : Option NetPolicy)
  /-- The log a pending resolution waits for has resolved, or not. -/
  | finish (call : Nat) (webvhDid : JsString) (result : Except JsError Resolution)
  | addScidSource (didUrl : JsString)
  | invalidate (did : JsString)
  | clearCache
  | setCacheTtl (ms : T)
  | tick (now : T)

/-- The version a resolution's metadata names. -/
def versionOf (result : Resolution) : Version Nat :=
  { number := versionNumberOf (versionIdOf (metadataOf result)), id := versionIdOf (metadataOf result) }

variable {T : Type*} [LinearOrder T] [AddZeroClass T] (cfg : Config)

/-- A step of the resolver that returns nothing. -/
def housekeep (h : History T) (cmd : Command T) : Option (History T × Shown) :=
  (step cfg h.resolver cmd).map fun r => ({ h with resolver := r.1 }, .kept)

/-- The start of a resolution: it returns from the cache, throws, or waits. -/
def start (h : History T) (did : JsString) (options : ResolveOptions) : History T × Shown :=
  let r := resolve cfg h.resolver did options
  ({ h with resolver := r.1 },
    match r.2 with
    | .served _ _ _ result _ => .returned did result
    | .refused .. => .threw did
    | _ => .started did)

/-- The end of a resolution: the handler settles with the book, and the call completes. -/
def finish (h : History T) (call : Nat) (webvhDid : JsString) (result : Except JsError Resolution) :
    Option (History T × Shown) :=
  match h.resolver.pending.get call with
  | none => none
  | some p =>
    match result with
    | .error err => (reject h.resolver call err).map fun r => ({ h with resolver := r.1 }, .threw p.did)
    | .ok log =>
      let settled := settle p.did p.options webvhDid (some h.book) log
      let book := settled.2.getD h.book
      match settled.1 with
      | .error err => (reject h.resolver call err).map fun r => (⟨r.1, book⟩, .threw p.did)
      | .ok res => (fulfil cfg h.resolver call (some res)).map fun r => (⟨r.1, book⟩, .returned p.did res)

/-- One step. A resolution starts only when none is pending: resolutions do not overlap. -/
def act (h : History T) : Act T → Option (History T × Shown)
  | .resolve did netPolicy =>
    if h.resolver.pending.entries ≠ [] || !startsWith did scidPrefix then none
    else some (start cfg h did { netPolicy })
  | .finish call webvhDid result => finish cfg h call webvhDid result
  | .addScidSource didUrl => some ({ h with book := (h.book.addSource didUrl).2 }, .sourced didUrl)
  | .invalidate did => housekeep cfg h (.invalidate did)
  | .clearCache => housekeep cfg h .clearCache
  | .setCacheTtl ms => housekeep cfg h (.setCacheTtl ms)
  | .tick now => housekeep cfg h (.tick now)

/-- The DID a step was about. -/
def Shown.did : Shown → Option JsString
  | returned did _ => some did
  | started did => some did
  | threw did => some did
  | sourced didUrl => some didUrl
  | kept => none

/-- The DID URL whose resolution a step started or returned. -/
def Shown.resolved : Shown → Option JsString
  | returned did _ => some did
  | started did => some did
  | _ => none

/-- A step about one of the identities `ids`. -/
def HistoryStep (ids : List JsString) (h : History T) (evs : List Shown) (h' : History T) : Prop :=
  Lts.Does (act cfg) h evs h' ∧ ∀ e ∈ evs, ∀ did ∈ e.did, scidIdentity did ∈ ids

/-- Whether the cache keys a DID URL on its identity: it carries no fragment. -/
def KeysOnIdentity (did : JsString) : Prop := cacheKey did = scidIdentity did

instance (did : JsString) : Decidable (KeysOnIdentity did) :=
  inferInstanceAs (Decidable (cacheKey did = scidIdentity did))

/-- A step that resolves only DID URLs the cache keys on their identity. -/
def PlainStep (ids : List JsString) (h : History T) (evs : List Shown) (h' : History T) : Prop :=
  HistoryStep cfg ids h evs h' ∧ ∀ e ∈ evs, ∀ did ∈ e.resolved, KeysOnIdentity did

/-- What is returned for an identity is no older than what was returned for it before. -/
def NeverGoesBack (pre : List Shown) : Shown → Prop
  | .returned did result => ∀ did' result', .returned did' result' ∈ pre →
    scidIdentity did' = scidIdentity did →
    SourceBook.VersionLE (some (versionOf result')) (some (versionOf result))
  | _ => True

/-! ## The version a result names -/

/-- The metadata `settle` returns keeps the version id of the log. -/
lemma versionIdOf_scidMetadata (metadata : Json) (logDid source : JsString) :
    versionIdOf (scidMetadata metadata logDid source) = versionIdOf metadata := by
  have hget : (scidMetadata metadata logDid source).get (js "versionId")
      = metadata.get (js "versionId") := by
    unfold scidMetadata
    rw [Json.get_obj, lookup_setMember_ne _ _ (by decide), lookup_setMember_ne _ _ (by decide)]
    cases metadata <;> rfl
  simp only [versionIdOf, hget]

/-- A did:scid outcome names the version it offers to the book. -/
lemma versionOf_scidOutcome {webvhDid : JsString} {log : Resolution} {o : ScidOutcome}
    (h : scidOutcome webvhDid log = .ok o) :
    versionOf o.resolution = ⟨o.versionNumber, o.versionId⟩ := by
  unfold scidOutcome at h
  dsimp only at h
  split at h
  · cases h
  · cases hd : toScidDidDocument log.didDocument with
    | error e => simp [hd, bind, Except.bind] at h
    | ok doc =>
      simp only [hd, bind, Except.bind, pure, Except.pure, Except.ok.injEq] at h
      subst h
      have hmeta : ∀ m l s, metadataOf ⟨some doc, log.didResolutionMetadata, some (scidMetadata m l s)⟩
          = scidMetadata m l s := fun _ _ _ => rfl
      simp only [versionOf, hmeta, versionIdOf_scidMetadata]

/-! ## The invariant -/

variable {cfg}

/-- The book has room, and what is cached and has not expired is the version it holds; nothing lives
in a cache without a TTL, nor under the identity of a pending resolution, of which there is one at
most; and what was returned is no later than what the book holds. -/
structure Follows (cfg : Config) (ids : List JsString) (h : History T) (tr : List Shown) : Prop where
  wellFormed : WellFormed cfg h.resolver
  room : h.book.Room ids
  live : ∀ k e, h.resolver.cache.get k = some e → h.resolver.now < e.expires →
    h.book.version k = some (versionOf e.result)
  dead : h.resolver.ttl ≤ 0 → ∀ k e, h.resolver.cache.get k = some e → e.expires ≤ h.resolver.now
  pending : ∀ call p, h.resolver.pending.get call = some p →
    p.options.versionTime = none ∧ scidIdentity p.did ∈ ids ∧ KeysOnIdentity p.did ∧
      ∀ e, h.resolver.cache.get (scidIdentity p.did) = some e → e.expires ≤ h.resolver.now
  single : ∀ call call' p p', h.resolver.pending.get call = some p →
    h.resolver.pending.get call' = some p' → call = call'
  returned : ∀ did result, .returned did result ∈ tr →
    ∃ v, h.book.version (scidIdentity did) = some v ∧
      SourceBook.VersionLE (some (versionOf result)) (some v)

/-- A step of the resolver that leaves the book, starts nothing and stores nothing. -/
lemma Follows.of_le {ids : List JsString} {h : History T} {tr : List Shown} {s : State T}
    {e : Shown} (hf : Follows cfg ids h tr) (wellFormed : WellFormed cfg s)
    (cache : ∀ k e, s.cache.get k = some e → h.resolver.cache.get k = some e)
    (dead : s.ttl ≤ 0 → h.resolver.ttl ≤ 0 ∨ ∀ k, s.cache.get k = none)
    (pending : ∀ call p, s.pending.get call = some p → h.resolver.pending.get call = some p)
    (now : h.resolver.now ≤ s.now)
    (returned : ∀ did result, e = .returned did result →
      h.book.version (scidIdentity did) = some (versionOf result)) :
    Follows cfg ids { h with resolver := s } (tr ++ [e]) where
  wellFormed := wellFormed
  room := hf.room
  live k e he hlt := hf.live k e (cache k e he) (now.trans_lt hlt)
  dead ht k e he := by
    obtain ht | hnone := dead ht
    · exact (hf.dead ht k e (cache k e he)).trans now
    · rw [hnone] at he
      cases he
  pending call p hp := by
    obtain ⟨hv, hid, hk, hdead⟩ := hf.pending call p (pending call p hp)
    exact ⟨hv, hid, hk, fun e he => (hdead e (cache _ e he)).trans now⟩
  single call call' p p' hp hp' := hf.single call call' p p' (pending _ _ hp) (pending _ _ hp')
  returned did result hm := by
    obtain hm | hm := List.mem_append.mp hm
    · exact hf.returned did result hm
    · exact ⟨_, returned did result (List.mem_singleton.mp hm).symm, .refl _⟩

/-- A result as new as the book never goes back. -/
lemma Follows.neverGoesBack {ids : List JsString} {h : History T} {tr : List Shown} {did : JsString}
    {result : Resolution} (hf : Follows cfg ids h tr)
    (hle : SourceBook.VersionLE (h.book.version (scidIdentity did)) (some (versionOf result))) :
    NeverGoesBack tr (.returned did result) := by
  intro did' result' hm hid
  obtain ⟨v, hv, hle'⟩ := hf.returned did' result' hm
  rw [← hid, hv] at hle
  exact hle'.trans hle

omit [LinearOrder T] [AddZeroClass T] in
/-- Nothing is pending where there is no entry. -/
lemma get_of_entries_nil {s : State T} (h : s.pending.entries = []) (call : Nat) :
    s.pending.get call = none := by
  simp [OrderedMap.get, h]

omit [LinearOrder T] [AddZeroClass T] in
/-- An event that returns nothing adds nothing to what was returned. -/
lemma returned_of_quiet {tr : List Shown} {e : Shown} {did : JsString} {result : Resolution}
    (quiet : ∀ did result, e ≠ .returned did result) (hm : .returned did result ∈ tr ++ [e]) :
    .returned did result ∈ tr := by
  obtain hm | hm := List.mem_append.mp hm
  · exact hm
  · exact absurd (List.mem_singleton.mp hm).symm (quiet did result)

/-- A call that starts while nothing is pending, and under whose identity nothing lives. -/
lemma Follows.calls {ids : List JsString} {h : History T} {tr : List Shown} {s : State T} {n : Nat}
    {p : Pending} {e : Shown} (hf : Follows cfg ids h tr)
    (idle : ∀ call, h.resolver.pending.get call = none) (wellFormed : WellFormed cfg s)
    (cache : ∀ k e, s.cache.get k = some e → h.resolver.cache.get k = some e)
    (ttl : s.ttl = h.resolver.ttl) (now : s.now = h.resolver.now)
    (hp : s.pending = h.resolver.pending.set n p) (hv : p.options.versionTime = none)
    (hid : scidIdentity p.did ∈ ids) (hkey : KeysOnIdentity p.did)
    (hdead : ∀ e, s.cache.get (scidIdentity p.did) = some e → e.expires ≤ s.now)
    (quiet : ∀ did result, e ≠ .returned did result) :
    Follows cfg ids { h with resolver := s } (tr ++ [e]) := by
  have only {call q} (hq : s.pending.get call = some q) : call = n ∧ q = p := by
    rw [hp, OrderedMap.get_set, idle] at hq
    split at hq
    · rename_i hcall
      exact ⟨hcall, (Option.some.inj hq).symm⟩
    · cases hq
  refine ⟨wellFormed, hf.room, ?_, ?_, ?_, ?_, ?_⟩
  · intro k e he hlt
    exact hf.live k e (cache k e he) (now ▸ hlt)
  · intro ht k e he
    rw [now]
    exact hf.dead (ttl ▸ ht) k e (cache k e he)
  · intro call q hq
    obtain ⟨rfl, rfl⟩ := only hq
    exact ⟨hv, hid, hkey, hdead⟩
  · intro call call' q q' hq hq'
    rw [(only hq).1, (only hq').1]
  · intro did result hm
    exact hf.returned did result (returned_of_quiet quiet hm)

/-- The start of a resolution keeps the invariant, and returns only the version of the book. -/
lemma Follows.starts {ids : List JsString} {h h' : History T} {tr : List Shown} {did : JsString}
    {netPolicy : Option NetPolicy} {e : Shown} (hf : Follows cfg ids h tr)
    (idle : h.resolver.pending.entries = []) (scid : startsWith did scidPrefix = true)
    (hb : start cfg h did { netPolicy } = (h', e))
    (hids : ∀ d ∈ e.did, scidIdentity d ∈ ids) (plain : ∀ d ∈ e.resolved, KeysOnIdentity d) :
    Follows cfg ids h' (tr ++ [e]) ∧ NeverGoesBack tr e := by
  have hr := resolve_resolves cfg h.resolver did { netPolicy }
  have wellFormed := hf.wellFormed.steps (.resolve hr)
  unfold start at hb
  generalize resolve cfg h.resolver did { netPolicy } = r at hr hb wellFormed
  obtain ⟨s, ev⟩ := r
  have idle := get_of_entries_nil idle
  cases hr with
  | refused err =>
    cases hb
    exact ⟨hf.of_le wellFormed (fun _ _ => id) .inl (fun _ _ => id) (le_refl _) (by simp), trivial⟩
  | refusedMissed err =>
    cases hb
    exact ⟨hf.of_le wellFormed (fun _ _ => OrderedMap.get_of_get_delete) .inl (fun _ _ => id)
      (le_refl _) (by simp), trivial⟩
  | @served method hit hm hbyp hhit hlive =>
    cases hb
    have key : cacheKey did = scidIdentity did := plain did rfl
    have version := hf.live _ hit hhit hlive
    rw [key] at version
    refine ⟨hf.of_le wellFormed ?_ .inl (fun _ _ => id) (le_refl _) ?_, hf.neverGoesBack ?_⟩
    · intro k e he
      rwa [get_touch hhit] at he
    · rintro d result ⟨⟩
      exact version
    · rw [version]
      exact .refl _
  | @joined method call hm hbyp hcall =>
    obtain ⟨p, hp, -⟩ := hf.wellFormed.inflight did call hcall
    rw [idle] at hp
    cases hp
  | @bypassed method hm hbyp =>
    cases hb
    refine ⟨hf.calls idle wellFormed (fun _ _ => id) rfl rfl rfl rfl (hids did rfl) (plain did rfl)
      (fun e he => ?_) (by simp), trivial⟩
    -- a bypassed cache has no TTL or no room: did:scid is cached
    rw [parseMethod_scid scid] at hm
    cases hm
    have hoff : h.resolver.ttl ≤ 0 ∨ cfg.limit = 0 := by
      simpa [bypasses, show js "scid" ∉ uncachedMethods by decide] using hbyp
    obtain ht | hl := hoff
    · exact hf.dead ht _ e he
    · have hbound := hf.wellFormed.bound
      have hsize : h.resolver.cache.size = 0 := by omega
      have hmem := OrderedMap.mem_entries.mpr he
      rw [List.length_eq_zero_iff.mp hsize] at hmem
      cases hmem
  | @called method hm hbyp hnone =>
    cases hb
    have key : cacheKey did = scidIdentity did := plain did rfl
    refine ⟨hf.calls idle wellFormed (fun _ _ => OrderedMap.get_of_get_delete) rfl rfl rfl rfl
      (hids did rfl) key (fun e he => ?_) (by simp), trivial⟩
    -- the expired entry of the identity was dropped
    dsimp only at he
    rw [← key, OrderedMap.get_delete_self] at he
    cases he

/-- A pending call that completes without a result keeps the invariant. -/
lemma Follows.rejects {ids : List JsString} {h : History T} {tr : List Shown} {call : Nat}
    {p : Pending} {err : JsError} {s : State T} {ev : Event T} (hf : Follows cfg ids h tr)
    (hr : reject h.resolver call err = some (s, ev)) :
    Follows cfg ids { h with resolver := s } (tr ++ [.threw p.did]) := by
  obtain ⟨q, hq, hc⟩ := reject_completes cfg hr
  have wellFormed := hf.wellFormed.steps (.complete hq hc)
  cases hc with
  | stored hs hcache => cases reject_event hr
  | alone hs he =>
    exact hf.of_le wellFormed (fun _ _ => id) .inl (fun _ _ => OrderedMap.get_of_get_delete)
      (le_refl _) (by simp)
  | shared hs he =>
    exact hf.of_le wellFormed (fun _ _ => id) .inl (fun _ _ => OrderedMap.get_of_get_delete)
      (le_refl _) (by simp)

variable [AddLeftMono T]

/-- A pending call that completes with the version just accepted keeps the invariant. -/
lemma Follows.fulfils {ids : List JsString} {h : History T} {tr : List Shown} {call : Nat}
    {p : Pending} {res : Resolution} {s : State T} {ev : Event T} {source id : JsString} {number : Nat}
    (hf : Follows cfg ids h tr) (hp : h.resolver.pending.get call = some p)
    (hr : fulfil cfg h.resolver call (some res) = some (s, ev))
    (hb : SourceBook.isBehind (h.book.version (scidIdentity p.did)) number id = false)
    (hver : versionOf res = ⟨number, id⟩) :
    Follows cfg ids ⟨s, (h.book.accept (scidIdentity p.did) source number id).2⟩
      (tr ++ [.returned p.did res]) := by
  obtain ⟨hv, hid, hkey, hdead⟩ := hf.pending call p hp
  obtain ⟨q, hq, hc⟩ := fulfil_completes hr
  rw [hp] at hq
  cases hq
  have wellFormed := hf.wellFormed.steps (.complete hp hc)
  have hid' : scidIdentity (scidIdentity p.did) ∈ ids := by rwa [scidIdentity_idem]
  have hb' : SourceBook.isBehind (h.book.version (scidIdentity (scidIdentity p.did))) number id
      = false := by rwa [scidIdentity_idem]
  have version : ∀ k, (h.book.accept (scidIdentity p.did) source number id).2.version k
      = if k = scidIdentity p.did then some ⟨number, id⟩ else h.book.version k := by
    intro k
    rw [hf.room.version_accept hid' hb', scidIdentity_idem]
  -- no other call is pending
  have none : ∀ c q, (h.resolver.pending.delete call).get c = some q → False := by
    intro c q hq
    obtain ⟨hne, hq⟩ := OrderedMap.get_delete_eq_some.mp hq
    exact hne (hf.single c call q p hq hp)
  -- an entry that lives is not under the identity just resolved
  have others : ∀ k e, h.resolver.cache.get k = some e → h.resolver.now < e.expires →
      (h.book.accept (scidIdentity p.did) source number id).2.version k
        = some (versionOf e.result) := by
    intro k e he hlt
    rw [version, if_neg, hf.live k e he hlt]
    rintro rfl
    exact absurd hlt (not_lt.mpr (hdead e he))
  have returned : ∀ did result, .returned did result ∈ tr ++ [Shown.returned p.did res] →
      ∃ v, (h.book.accept (scidIdentity p.did) source number id).2.version (scidIdentity did) = some v ∧
        SourceBook.VersionLE (some (versionOf result)) (some v) := by
    intro did result hm
    rw [version]
    obtain hm | hm := List.mem_append.mp hm
    · -- what was returned before is not newer than what the book now accepts
      obtain ⟨v, hv, hle⟩ := hf.returned did result hm
      split
      · rename_i hd
        rw [hd] at hv
        rw [hv] at hb
        exact ⟨_, rfl, hle.trans (SourceBook.versionLE_of_not_behind hb)⟩
      · exact ⟨v, hv, hle⟩
    · cases List.mem_singleton.mp hm
      rw [if_pos rfl]
      exact ⟨_, rfl, hver ▸ .refl _⟩
  have room : (h.book.accept (scidIdentity p.did) source number id).2.Room ids :=
    hf.room.accept hid' hb'
  -- only a result that is stored changes the cache
  cases hc with
  | alone hs he =>
    exact ⟨wellFormed, room, others, hf.dead, fun c q hq => (none c q hq).elim,
      fun c _ q _ hq => (none c q hq).elim, returned⟩
  | shared hs he =>
    exact ⟨wellFormed, room, others, hf.dead, fun c q hq => (none c q hq).elim,
      fun c _ q _ hq => (none c q hq).elim, returned⟩
  | @stored key r hs hcache =>
    obtain ⟨stored, he⟩ := fulfil_event hr
    cases he
    refine ⟨wellFormed, room, ?_, ?_, fun c q hq => (none c q hq).elim,
      fun c _ q _ hq => (none c q hq).elim, returned⟩
    · intro k e he hlt
      obtain ⟨rfl, rfl⟩ | ⟨-, he⟩ := get_store he
      · obtain ⟨rfl, -⟩ := hf.wellFormed.shared call p k hp hs
        rw [version, if_pos (show cacheKey p.did = scidIdentity p.did from hkey), hver]
      · exact others k e he hlt
    · intro ht k e he
      obtain ⟨rfl, rfl⟩ | ⟨-, he⟩ := get_store he
      · exact add_le_of_nonpos_right ht
      · exact hf.dead ht k e he

/-- The end of a resolution keeps the invariant, and returns only what the book accepts. -/
lemma Follows.finishes {ids : List JsString} {h h' : History T} {tr : List Shown} {call : Nat}
    {webvhDid : JsString} {result : Except JsError Resolution} {e : Shown}
    (hf : Follows cfg ids h tr) (hfin : finish cfg h call webvhDid result = some (h', e)) :
    Follows cfg ids h' (tr ++ [e]) ∧ NeverGoesBack tr e := by
  unfold finish at hfin
  split at hfin
  · cases hfin
  rename_i p hp
  obtain ⟨hv, -, -, -⟩ := hf.pending call p hp
  split at hfin
  · obtain ⟨⟨s, ev⟩, hr, heq⟩ := Option.map_eq_some_iff.mp hfin
    cases heq
    exact ⟨hf.rejects hr, trivial⟩
  rename_i log
  dsimp only at hfin
  obtain ⟨err, hset⟩ | ⟨o, ho, hb, hset⟩ := settle_book p.did webvhDid h.book log hv
  · rw [hset] at hfin
    obtain ⟨⟨s, ev⟩, hr, heq⟩ := Option.map_eq_some_iff.mp hfin
    cases heq
    exact ⟨hf.rejects hr, trivial⟩
  · rw [hset] at hfin
    obtain ⟨⟨s, ev⟩, hr, heq⟩ := Option.map_eq_some_iff.mp hfin
    cases heq
    have hver := versionOf_scidOutcome ho
    refine ⟨hf.fulfils hp hr hb hver, hf.neverGoesBack ?_⟩
    rw [hver]
    exact SourceBook.versionLE_of_not_behind hb

/-- A plain step keeps the invariant, and returns nothing older than before. -/
lemma Follows.acts {ids : List JsString} {h h' : History T} {tr : List Shown} {a : Act T} {e : Shown}
    (hf : Follows cfg ids h tr) (ha : act cfg h a = some (h', e))
    (hids : ∀ did ∈ e.did, scidIdentity did ∈ ids)
    (plain : ∀ did ∈ e.resolved, KeysOnIdentity did) :
    Follows cfg ids h' (tr ++ [e]) ∧ NeverGoesBack tr e := by
  cases a with
  | resolve did netPolicy =>
    simp only [act] at ha
    split at ha
    · cases ha
    · rename_i hidle
      simp only [Bool.or_eq_true, decide_eq_true_eq, Bool.not_eq_true', not_or, ne_eq, not_not,
        Bool.not_eq_false] at hidle
      exact hf.starts hidle.1 hidle.2 (Option.some.inj ha) hids plain
  | finish call webvhDid result => exact hf.finishes ha
  | addScidSource didUrl =>
    cases ha
    have hid := hids didUrl rfl
    refine ⟨⟨hf.wellFormed, hf.room.addSource hid, ?_, hf.dead, hf.pending, hf.single, ?_⟩, trivial⟩
    · intro k e he hlt
      rw [hf.room.version_addSource hid]
      exact hf.live k e he hlt
    · intro d result hm
      rw [hf.room.version_addSource hid]
      exact hf.returned d result (returned_of_quiet (by simp) hm)
  | invalidate did =>
    cases ha
    exact ⟨hf.of_le (hf.wellFormed.steps (.invalidate did)) (fun _ _ => OrderedMap.get_of_get_delete)
      .inl (fun _ _ => id) (le_refl _) (by simp), trivial⟩
  | clearCache =>
    cases ha
    exact ⟨hf.of_le (hf.wellFormed.steps .clearCache) (by simp) .inl (fun _ _ => id) (le_refl _)
      (by simp), trivial⟩
  | setCacheTtl ms =>
    cases ha
    refine ⟨hf.of_le (hf.wellFormed.steps (.setCacheTtl ms)) ?_ ?_ (fun _ _ => id) (le_refl _)
      (by simp), trivial⟩
    · intro k e he
      dsimp only at he
      split at he
      · simp at he
      · exact he
    · -- a TTL that is not positive empties the cache
      intro ht
      refine .inr fun k => ?_
      dsimp only at ht ⊢
      rw [if_pos ht]
      rfl
  | tick now =>
    simp only [act, housekeep, step] at ha
    split at ha
    · rename_i hle
      cases ha
      exact ⟨hf.of_le (hf.wellFormed.steps (.tick hle)) (fun _ _ => id) .inl (fun _ _ => id) hle
        (by simp), trivial⟩
    · cases ha

omit [AddLeftMono T] in
/-- A new resolver with an empty book that has room for `ids`. -/
lemma follows_init {ids : List JsString} (ttl now : T) {book : SourceBook Nat}
    (hempty : book.seen = .empty) (hroom : ids.length ≤ book.capacity) :
    Follows cfg ids ⟨init ttl now, book⟩ [] where
  wellFormed := wellFormed_init ttl now
  room := by
    refine ⟨fun k e h => ?_, hroom⟩
    rw [hempty] at h
    cases h
  live _ _ h := by cases h
  dead _ _ _ h := by cases h
  pending _ _ h := by cases h
  single _ _ _ _ h := by cases h
  returned _ _ h := by cases h

/-- A book just created holds nothing. -/
lemma create_eq_ok {N : Type*} {c : Nat} {book : SourceBook N} (h : SourceBook.create N c = .ok book) :
    book.capacity = c ∧ book.seen = .empty := by
  unfold SourceBook.create at h
  split at h
  · cases h
    exact ⟨rfl, rfl⟩
  · cases h

/-- No rollback. A source book of capacity `c` never holds more than `c` identities; the version of
an identity that stays only gets later; `accept` throws exactly on an offer that is behind, and then
changes nothing; `addSource` changes no version. And for a resolver over a new book, along every run
of resolutions that do not overlap, of DID URLs without a fragment and of at most `c` identities,
what is returned for an identity never goes back to an older version. -/
theorem no_rollback {N : Type*} [LinearOrder N] (c : Nat) :
    (∀ (book b : SourceBook N) calls, SourceBook.create N c = .ok book →
      Lts.Run SourceBook.Call book calls b → b.size ≤ c) ∧
    (∀ (b b' : SourceBook N) calls k e, b.seen.get k = some e →
      Lts.Run (fun s evs s' => SourceBook.Call s evs s' ∧ s'.seen.has k = true) b calls b' →
      ∃ e', b'.seen.get k = some e' ∧ SourceBook.VersionLE e.version e'.version) ∧
    (∀ (b : SourceBook N) did source number id,
      ((∃ err, (b.accept did source number id).1 = .error err) ↔
        ∃ v, b.version (scidIdentity did) = some v ∧
          (number < v.number ∨ (number = v.number ∧ id ≠ v.id))) ∧
      ((∃ err, (b.accept did source number id).1 = .error err) →
        (b.accept did source number id).2 = b)) ∧
    (∀ (b : SourceBook N) didUrl k e e', b.seen.get k = some e →
      (b.addSource didUrl).2.seen.get k = some e' → e'.version = e.version) ∧
    ∀ (ttl now : T) (book : SourceBook Nat) (ids : List JsString) tr h,
      SourceBook.create Nat c = .ok book → ids.length ≤ c →
      Lts.Run (PlainStep cfg ids) ⟨init ttl now, book⟩ tr h → Lts.Guarded NeverGoesBack tr := by
  refine ⟨?_, ?_, ?_, ?_, ?_⟩
  · intro book b calls hc r
    have := b.size_le
    rw [SourceBook.run_capacity r, (create_eq_ok hc).1] at this
    exact this
  · intro b b' calls k e he r
    exact SourceBook.run_version he r
  · intro b did source number id
    rw [← SourceBook.isBehind_iff]
    obtain ⟨hb, herr, hsame⟩ | ⟨hb, hok, -⟩ := b.accept_cases did source number id
    · exact ⟨⟨fun _ => hb, fun _ => herr⟩, fun _ => hsame⟩
    · rw [hok, hb]
      simp
  · intro b didUrl k e e' he he'
    exact SourceBook.addSource_version he he'
  · intro ttl now book ids tr h hc hlen r
    obtain ⟨hcap, hempty⟩ := create_eq_ok hc
    have keep : Follows cfg ids h tr ∧ Lts.Guarded NeverGoesBack tr := by
      refine r.invariant (I := fun h tr => Follows cfg ids h tr ∧ Lts.Guarded NeverGoesBack tr)
        ⟨follows_init ttl now hempty (hcap ▸ hlen), Lts.guarded_nil⟩ ?_
      rintro h tr evs h' ⟨hf, hg⟩ ⟨⟨⟨a, e, ha, rfl⟩, hids⟩, plain⟩
      obtain ⟨hf', hgb⟩ := hf.acts ha (hids e (by simp)) (plain e (by simp))
      exact ⟨hf', Lts.guarded_snoc.mpr ⟨hg, hgb⟩⟩
    exact keep.2

/-! ## Runs -/

/-- The verified log of `did:webvh:Qm:a.example` at a version. -/
def logAt (versionId : JsString) : Resolution :=
  { didDocument := some (.obj [(js "id", .str (js "did:webvh:Qm:a.example"))])
    didResolutionMetadata := none
    didDocumentMetadata := some (.obj [(js "versionId", .str versionId)]) }

/-- A book with room for one identity. -/
def oneBook : SourceBook Nat := ⟨1, .empty, by decide, by decide⟩

/-- Two resolutions of one identity, with an invalidation between them. -/
theorem no_rollback_example :
    ∃ tr h, Lts.Run (PlainStep ⟨5, [js "scid"]⟩ [js "did:scid:vh:1:Qm"])
        ⟨(init 10 0 : State Int), oneBook⟩ tr h ∧ tr.length = 5 ∧ Lts.Guarded NeverGoesBack tr := by
  let did := js "did:scid:vh:1:Qm?src=a.example"
  have hexec := Lts.run_of_exec
    (show Lts.exec (act ⟨5, [js "scid"]⟩) ⟨(init 10 0 : State Int), oneBook⟩
      [.resolve did none, .finish 0 (js "did:webvh:Qm:a.example") (.ok (logAt (js "5-a"))),
        .invalidate did, .resolve did none,
        .finish 1 (js "did:webvh:Qm:a.example") (.ok (logAt (js "6-b")))] = some (_, _) from rfl)
  have hrun := (hexec.restrict (P := fun e => ∀ d ∈ e.did, scidIdentity d ∈ [js "did:scid:vh:1:Qm"])
    (by decide)).restrict (P := fun e => ∀ d ∈ e.resolved, KeysOnIdentity d) (by decide)
  exact ⟨_, _, hrun, rfl, (no_rollback (N := Nat) 1).2.2.2.2 10 0 oneBook _ _ _ rfl (by decide) hrun⟩

/-- The version a step returned. -/
def Shown.version : Shown → Option (Version Nat)
  | returned _ result => some (versionOf result)
  | _ => none

/-- An event with a DID and a version is a return. -/
lemma eq_returned {e : Shown} {did : JsString} {v : Version Nat}
    (h : (e.did, e.version) = (some did, some v)) :
    ∃ result, e = .returned did result ∧ versionOf result = v := by
  cases e with
  | returned d result =>
    cases h
    exact ⟨result, rfl, rfl⟩
  | _ => cases h

/-- A DID URL with a fragment is resolved, then the DID URL without it at a later version, then the
first again. -/
def fragmentActs : List (Act Int) :=
  [.resolve (js "did:scid:vh:1:Qm?src=a.example#key-1") none,
    .finish 0 (js "did:webvh:Qm:a.example") (.ok (logAt (js "5-a"))),
    .resolve (js "did:scid:vh:1:Qm?src=a.example") none,
    .finish 1 (js "did:webvh:Qm:a.example") (.ok (logAt (js "6-b"))),
    .resolve (js "did:scid:vh:1:Qm?src=a.example#key-1") none]

/-- A fragment has a cache entry of its own: it outlives the version accepted since. -/
theorem rollback_through_fragment :
    ¬ ∀ tr h, Lts.Run (HistoryStep ⟨5, [js "scid"]⟩ [js "did:scid:vh:1:Qm"])
        ⟨(init 10 0 : State Int), oneBook⟩ tr h → Lts.Guarded NeverGoesBack tr := by
  intro h
  have hshown : (Lts.exec (act ⟨5, [js "scid"]⟩) ⟨(init 10 0 : State Int), oneBook⟩
      fragmentActs).map (fun r => r.2.map fun e => (e.did, e.version)) = some
        [(some (js "did:scid:vh:1:Qm?src=a.example#key-1"), none),
          (some (js "did:scid:vh:1:Qm?src=a.example#key-1"), some ⟨5, js "5-a"⟩),
          (some (js "did:scid:vh:1:Qm?src=a.example"), none),
          (some (js "did:scid:vh:1:Qm?src=a.example"), some ⟨6, js "6-b"⟩),
          (some (js "did:scid:vh:1:Qm?src=a.example#key-1"), some ⟨5, js "5-a"⟩)] := by
    decide +kernel
  obtain ⟨⟨s, tr⟩, hexec, htr⟩ := Option.map_eq_some_iff.mp hshown
  match tr, htr with
  | [e₁, e₂, e₃, e₄, e₅], htr =>
    simp only [List.map_cons, List.map_nil, List.cons.injEq, and_true] at htr
    obtain ⟨h₁, h₂, h₃, h₄, h₅⟩ := htr
    have hids : ∀ e ∈ [e₁, e₂, e₃, e₄, e₅], ∀ d ∈ e.did,
        scidIdentity d ∈ [js "did:scid:vh:1:Qm"] := by
      simp only [List.forall_mem_cons, (Prod.mk.inj h₁).1, (Prod.mk.inj h₂).1, (Prod.mk.inj h₃).1,
        (Prod.mk.inj h₄).1, (Prod.mk.inj h₅).1]
      decide
    obtain ⟨r₄, rfl, h6⟩ := eq_returned h₄
    obtain ⟨r₅, rfl, h5⟩ := eq_returned h₅
    have hback := h _ _ ((Lts.run_of_exec hexec).restrict hids) [e₁, e₂, e₃, .returned _ r₄] _ [] rfl
    have hle := hback (js "did:scid:vh:1:Qm?src=a.example") r₄ (by simp) (by decide)
    rw [h6, h5] at hle
    obtain hlt | ⟨heq, -⟩ := hle
    · exact absurd hlt (by decide)
    · exact absurd heq (by decide)

end VtiDidcomm.Resolver
