import VtiDidcomm.Resolver.Cache

/-!
# Invalidation and work in flight

Whether a document from before an `invalidate` or a `clearCache` can come back. The continuation of
a handler call stores its result whenever the call completes, and a `resolve` waits for a call that
is already pending; so a shared call that is pending when its key is dropped brings the old document
back (`invalidate_undone_by_inflight`). Where no such call is pending, nothing comes back:
`invalidate_holds_when_settled`.
-/

namespace VtiDidcomm.Resolver
open Js

variable {T : Type*}

/-- The events that drop what is cached under `key`. -/
def Drops (key : JsString) : Event T → Prop
  | .invalidated did => cacheKey did = key
  | .cleared => True
  | _ => False

/-- `call` did not start before any of the events `φ`. -/
def StartedSince (φ : Event T → Prop) (tr : List (Event T)) (call : Nat) : Prop :=
  Lts.Guarded (fun pre e => φ e → ∀ did options, .called call did options ∉ pre) tr

/-- What a `resolve` shows after the events `pre` was not produced by a call that started before its
key was dropped. -/
def ReadsSince (pre : List (Event T)) : Event T → Prop
  | .served call did _ _ _ => StartedSince (Drops (cacheKey did)) pre call
  | .joined call did _ => StartedSince (Drops (cacheKey did)) pre call
  | _ => True

/-- A call that has not started yet will have started since anything. -/
lemma startedSince_of_not_called {φ : Event T → Prop} {tr : List (Event T)} {call : Nat}
    (h : ∀ did options, .called call did options ∉ tr) : StartedSince φ tr call := by
  rintro pre e post rfl - did options hm
  exact h did options (List.mem_append_left _ hm)

/-- No pending call stores under `key`. -/
def NoShared (s : State T) (key : JsString) : Prop :=
  ∀ call p, s.pending.get call = some p → p.share ≠ some key

variable [LinearOrder T] [Add T] [Zero T] {cfg : Config}

/-- An event drops a key only while no pending call stores under it. -/
def Settled (s : State T) : Event T → Prop
  | .invalidated did => NoShared s (cacheKey did)
  | .cleared => ∀ key, NoShared s key
  | .ttlSet ms => ms ≤ 0 → ∀ key, NoShared s key
  | _ => True

/-- One step whose event is settled. -/
def SettledStep (cfg : Config) (s : State T) (evs : List (Event T)) (s' : State T) : Prop :=
  Step cfg s evs s' ∧ ∀ e ∈ evs, Settled s e

/-! ## The invariant -/

/-- Nothing cached or pending is older than the last drop of its key, and there is nothing of the
kind without a TTL. -/
structure Fresh (cfg : Config) (s : State T) (tr : List (Event T)) : Prop where
  wellFormed : WellFormed cfg s
  numbered : Numbered s tr
  cached : ∀ key entry, s.cache.get key = some entry → StartedSince (Drops key) tr entry.call
  shared : ∀ call p key, s.pending.get call = some p → p.share = some key →
    StartedSince (Drops key) tr call ∧ 0 < s.ttl
  empty : s.ttl ≤ 0 → s.cache.size = 0

omit [LinearOrder T] [Add T] [Zero T] in
/-- A call that was started since goes on being so. -/
lemma StartedSince.snoc {φ : Event T → Prop} {tr : List (Event T)} {call : Nat} {e : Event T}
    (h : StartedSince φ tr call) (he : ¬ φ e) : StartedSince φ (tr ++ [e]) call :=
  Lts.guarded_snoc.mpr ⟨h, fun hφ => absurd hφ he⟩

omit [LinearOrder T] [Add T] [Zero T] in
/-- The next call will have been. -/
lemma Numbered.startedSince_next {s : State T} {tr : List (Event T)} {φ : Event T → Prop}
    (h : Numbered s tr) : StartedSince φ tr s.next :=
  startedSince_of_not_called fun did options hm => absurd (h.lt _ did options hm) (lt_irrefl _)

omit [Add T] in
/-- A step that drops nothing, stores nothing and shares no new call keeps the invariant. -/
lemma Fresh.of_le {s s' : State T} {tr : List (Event T)} {e : Event T} (h : Fresh cfg s tr)
    (wellFormed : WellFormed cfg s') (numbered : Numbered s' (tr ++ [e]))
    (drops : ∀ key, ¬ Drops key e)
    (cache : ∀ key entry, s'.cache.get key = some entry → s.cache.get key = some entry)
    (shared : ∀ call p, s'.pending.get call = some p → p.share.isSome = true →
      s.pending.get call = some p)
    (ttl : s'.ttl = s.ttl)
    (size : s'.cache.size ≤ s.cache.size) : Fresh cfg s' (tr ++ [e]) where
  wellFormed := wellFormed
  numbered := numbered
  cached key entry he := (h.cached key entry (cache key entry he)).snoc (drops key)
  shared call p key hp hs := by
    obtain ⟨hc, ht⟩ := h.shared call p key (shared call p hp (by rw [hs]; rfl)) hs
    exact ⟨hc.snoc (drops key), ttl ▸ ht⟩
  empty ht := Nat.le_zero.mp (h.empty (ttl ▸ ht) ▸ size)

/-- A `resolve` keeps the cache fresh. -/
lemma Fresh.resolves {s s' : State T} {tr : List (Event T)} {did : JsString}
    {options : ResolveOptions} {e : Event T} (h : Fresh cfg s tr)
    (hr : Resolves cfg s did options s' e) : Fresh cfg s' (tr ++ [e]) := by
  have wellFormed := h.wellFormed.steps (.resolve hr)
  have numbered := h.numbered.steps (.resolve hr)
  cases hr with
  | refused err =>
    exact h.of_le wellFormed numbered (fun _ => id) (fun _ _ => id) (fun _ _ hp _ => hp) rfl (le_refl _)
  | refusedMissed err =>
    exact h.of_le wellFormed numbered (fun _ => id) (fun _ _ => OrderedMap.get_of_get_delete)
      (fun _ _ hp _ => hp) rfl (OrderedMap.size_delete_le ..)
  | bypassed =>
    refine h.of_le wellFormed numbered (fun _ => id) (fun _ _ => id) ?_ rfl (le_refl _)
    intro call p hp hs
    dsimp only at hp
    rw [OrderedMap.get_set] at hp
    split at hp
    · cases hp
      cases hs
    · exact hp
  | @served method hit hm hb hhit hlive =>
    have hhas : s.cache.has (cacheKey did) = true := OrderedMap.has_iff.mpr ⟨hit, hhit⟩
    refine h.of_le wellFormed numbered (fun _ => id) ?_ (fun _ _ hp _ => hp) rfl ?_
    · intro key entry he
      rwa [get_touch hhit] at he
    · have := OrderedMap.size_delete_of_has hhas
      have := (s.cache.delete (cacheKey did)).size_set_le (cacheKey did) hit
      dsimp only
      omega
  | joined hm hb hcall =>
    exact h.of_le wellFormed numbered (fun _ => id) (fun _ _ => OrderedMap.get_of_get_delete)
      (fun _ _ hp _ => hp) rfl (OrderedMap.size_delete_le ..)
  | called hm hb hnone =>
    -- the call starts after everything so far, so no drop comes after its start
    obtain ⟨-, httl, -, -⟩ := of_not_bypasses hb
    refine ⟨wellFormed, numbered, ?_, ?_, ?_⟩
    · intro key entry he
      exact (h.cached key entry (OrderedMap.get_of_get_delete he)).snoc id
    · intro call p key hp hs
      dsimp only at hp
      rw [OrderedMap.get_set] at hp
      split at hp
      · rename_i hc
        exact ⟨(hc ▸ h.numbered.startedSince_next).snoc id, httl⟩
      · obtain ⟨hc, ht⟩ := h.shared call p key hp hs
        exact ⟨hc.snoc id, ht⟩
    · intro ht
      exact absurd httl (not_lt.mpr ht)

/-- A completion keeps the cache fresh. -/
lemma Fresh.completes {s s' : State T} {tr : List (Event T)} {call : Nat} {p : Pending}
    {e : Event T} (h : Fresh cfg s tr) (hp : s.pending.get call = some p)
    (hc : Completes cfg s call p s' e) : Fresh cfg s' (tr ++ [e]) := by
  have wellFormed := h.wellFormed.steps (.complete hp hc)
  have numbered := h.numbered.steps (.complete hp hc)
  cases hc with
  | alone hs he =>
    refine h.of_le wellFormed numbered (fun _ => ?_) (fun _ _ => id)
      (fun _ _ hp _ => OrderedMap.get_of_get_delete hp) rfl (le_refl _)
    cases e <;> first | exact id | exact he.elim
  | shared hs he =>
    refine h.of_le wellFormed numbered (fun _ => ?_) (fun _ _ => id)
      (fun _ _ hp _ => OrderedMap.get_of_get_delete hp) rfl (le_refl _)
    cases e <;> first | exact id | exact he.elim
  | @stored key r hs hcache =>
    obtain ⟨hcall, httl⟩ := h.shared call p key hp hs
    refine ⟨wellFormed, numbered, ?_, ?_, ?_⟩
    · intro k entry he
      obtain ⟨rfl, rfl⟩ | ⟨-, he⟩ := get_store he
      · exact hcall.snoc id
      · exact (h.cached k entry he).snoc id
    · intro c q k hq hsq
      obtain ⟨hc', ht⟩ := h.shared c q k (OrderedMap.get_of_get_delete hq) hsq
      exact ⟨hc'.snoc id, ht⟩
    · intro ht
      exact absurd httl (not_lt.mpr ht)

/-- Every step that meets the condition keeps the cache fresh. -/
lemma Fresh.steps {s s' : State T} {tr : List (Event T)} {e : Event T} (h : Fresh cfg s tr)
    (hs : Steps cfg s s' e) (hset : Settled s e) : Fresh cfg s' (tr ++ [e]) := by
  have wellFormed := h.wellFormed.steps hs
  have numbered := h.numbered.steps hs
  cases hs with
  | resolve hr => exact h.resolves hr
  | complete hp hc => exact h.completes hp hc
  | invalidate did =>
    refine ⟨wellFormed, numbered, ?_, ?_, ?_⟩
    · intro key entry he
      obtain ⟨hne, he⟩ := OrderedMap.get_delete_eq_some.mp he
      exact (h.cached key entry he).snoc (Ne.symm hne)
    · intro call p key hp hs
      obtain ⟨hc, ht⟩ := h.shared call p key hp hs
      exact ⟨hc.snoc fun hd => hset call p hp (hs.trans (congrArg some hd.symm)), ht⟩
    · intro ht
      exact Nat.le_zero.mp (h.empty ht ▸ OrderedMap.size_delete_le ..)
  | clearCache =>
    -- nothing is cached, and no shared call is pending
    refine ⟨wellFormed, numbered, ?_, ?_, fun _ => rfl⟩
    · intro key entry he
      cases he
    · intro call p key hp hs
      exact absurd hs (hset key call p hp)
  | setCacheTtl ms =>
    refine ⟨wellFormed, numbered, ?_, ?_, ?_⟩
    · intro key entry he
      dsimp only at he
      split at he
      · cases he
      · exact (h.cached key entry he).snoc id
    · intro call p key hp hs
      obtain ⟨hc, -⟩ := h.shared call p key hp hs
      refine ⟨hc.snoc id, ?_⟩
      by_contra ht
      exact hset (not_lt.mp ht) key call p hp hs
    · intro ht
      dsimp only at ht ⊢
      rw [if_pos ht]
      rfl
  | tick hle =>
    exact h.of_le wellFormed numbered (fun _ => id) (fun _ _ => id) (fun _ _ hp _ => hp) rfl (le_refl _)

omit [Add T] in
/-- A new cache is fresh. -/
lemma fresh_init (ttl now : T) : Fresh cfg (init ttl now) [] where
  wellFormed := wellFormed_init ttl now
  numbered := numbered_init ttl now
  cached _ _ h := by cases h
  shared _ _ _ h := by cases h
  empty _ := rfl

/-- What a `resolve` shows in a fresh state is no older than the last drop of its key. -/
lemma Fresh.reads {s s' : State T} {tr : List (Event T)} {e : Event T} (h : Fresh cfg s tr)
    (hs : Steps cfg s s' e) : ReadsSince tr e := by
  cases hs with
  | resolve hr =>
    cases hr with
    | served hm hb hhit hlive => exact h.cached _ _ hhit
    | joined hm hb hcall =>
      obtain ⟨p, hp, rfl, hsome⟩ := h.wellFormed.inflight _ _ hcall
      obtain ⟨key, hkey⟩ := Option.isSome_iff_exists.mp hsome
      obtain ⟨rfl, -⟩ := h.wellFormed.shared _ p key hp hkey
      exact (h.shared _ p _ hp hkey).1
    | _ => trivial
  | complete hp hc =>
    cases hc with
    | alone hs he => cases e <;> trivial
    | shared hs he => cases e <;> trivial
    | stored => trivial
  | _ => trivial

/-- Where every `invalidate`, `clearCache` and `setCacheTtl` finds no pending call that stores under
a key it drops, no `resolve` returns a document from before its key was dropped, from the cache or
from a pending call, and a cache without a TTL is empty. -/
theorem invalidate_holds_when_settled {ttl now : T} {tr : List (Event T)} {s : State T}
    (r : Lts.Run (SettledStep cfg) (init ttl now) tr s) :
    Lts.Guarded ReadsSince tr ∧ (s.ttl ≤ 0 → s.cache.size = 0) := by
  have keep : Fresh cfg s tr ∧ Lts.Guarded ReadsSince tr := by
    refine r.invariant (I := fun s tr => Fresh cfg s tr ∧ Lts.Guarded ReadsSince tr)
      ⟨fresh_init ttl now, Lts.guarded_nil⟩ ?_
    rintro s tr evs s' ⟨h, hg⟩ ⟨hstep, hset⟩
    obtain ⟨e, rfl, hs⟩ := Step.steps hstep
    exact ⟨h.steps hs (hset e (by simp)), Lts.guarded_snoc.mpr ⟨hg, h.reads hs⟩⟩
  exact ⟨keep.2, keep.1.empty⟩

/-! ## Runs -/

/-- A document `resolve` may find. -/
def someDocument : Resolution := ⟨some (.obj []), none, some (.obj [])⟩

/-- A resolve, an invalidation of what it stored, and a resolve that calls the handler again. -/
theorem invalidate_holds_when_settled_example :
    ∃ tr s, Lts.Run (SettledStep ⟨1, [js "webvh"]⟩) (init 10 0 : State Nat) tr s ∧
      Lts.Guarded ReadsSince tr := by
  let did := js "did:webvh:Qm:a.example"
  have one : ∀ {s s' : State Nat} {e}, (∃ cmd, step ⟨1, [js "webvh"]⟩ s cmd = some (s', e)) →
      Settled s e → SettledStep ⟨1, [js "webvh"]⟩ s [e] s' := by
    rintro s s' e ⟨cmd, h⟩ hset
    exact ⟨⟨cmd, e, h, rfl⟩, by simpa using hset⟩
  have r₁ := Lts.Run.snoc (.nil (init 10 0 : State Nat)) (one ⟨.resolve did {}, rfl⟩ trivial)
  have r₂ := r₁.snoc (one ⟨.fulfil 0 (some someDocument), rfl⟩ trivial)
  have r₃ := r₂.snoc (one ⟨.invalidate did, rfl⟩ (fun call p hp => by cases hp))
  have r₄ := r₃.snoc (one ⟨.resolve did {}, rfl⟩ trivial)
  exact ⟨_, _, r₄, (invalidate_holds_when_settled r₄).1⟩

/-- A pending call outlives an `invalidate`, and its document is served after it; one stored after
`setCacheTtl(0)` stays. -/
theorem invalidate_undone_by_inflight :
    ¬ ∀ (tr : List (Event Nat)) (s : State Nat),
      Lts.Run (Step ⟨1, [js "webvh"]⟩) (init 10 0) tr s →
      Lts.Guarded ReadsSince tr ∧ (s.ttl ≤ 0 → s.cache.size = 0) := by
  intro h
  have hrun := Lts.run_of_exec
    (show Lts.exec (step ⟨1, [js "webvh"]⟩) (init 10 0 : State Nat)
      [.resolve (js "did:webvh:Qm:a.example") {}, .invalidate (js "did:webvh:Qm:a.example"),
        .fulfil 0 (some someDocument), .resolve (js "did:webvh:Qm:a.example") {}] = some (_, _) from rfl)
  have hreads := (h _ _ hrun).1 [.called 0 _ {}, .invalidated _, .fulfilled 0 _ _] _ [] rfl
  exact hreads [.called 0 _ {}] _ [.fulfilled 0 _ _] rfl rfl (js "did:webvh:Qm:a.example") {} (by simp)

end VtiDidcomm.Resolver
