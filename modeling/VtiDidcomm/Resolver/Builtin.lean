import VtiDidcomm.Did.ScidResolve
import VtiDidcomm.Did.WebvhEgress
import VtiDidcomm.Resolver.Cache

/-!
# The built-in resolver

`createResolver()` with its own handlers, as a program: a `resolve` with nothing else in flight,
which takes the steps of `Resolver.Cache` and runs the handler it calls in between. The handlers of
did:key and did:peer make their result from the identifier alone, and are parameters.

A resolution makes the requests of at most one did:webvh log: that of the DID `logOf` names, unless
the cache answers (`safe_resolve`).
-/

namespace VtiDidcomm.Resolver
open Js Effect

/-- What the built-in handlers run on. -/
structure Builtin where
  pf : Platform
  verify : Webvh.LogVerifier
  /-- `didKey.resolve` -/
  didKey : JsString → Except JsError Resolution
  /-- `didPeer.resolve` -/
  didPeer : JsString → Except JsError Resolution
  /-- `maxEntries` -/
  limit : Nat

/-- `Object.keys(handlers)` -/
def builtinMethods : List JsString := [js "key", js "webvh", js "peer", js "scid"]

/-- The resolver the built-in handlers are created with. -/
def Builtin.config (b : Builtin) : Config where
  limit := b.limit
  handlers := builtinMethods

/-- A resolver and the source book its did:scid handler owns. -/
structure Owned (T : Type) where
  state : State T
  book : SourceBook Nat

/-- When a `resolve` is called, and when the handler it calls is done, by `Date.now()`. -/
structure Times (T : Type) where
  called : T
  settled : T

variable (b : Builtin)

/-- `handlers[method].resolve(did, options)` -/
def Builtin.handle (book : SourceBook Nat) (method did : JsString) (options : ResolveOptions) :
    Net (Except JsError Resolution × SourceBook Nat) :=
  if method = js "key" then pure (b.didKey did, book)
  else if method = js "peer" then pure (b.didPeer did, book)
  else if method = js "webvh" then do
    let result ← Webvh.resolve b.pf b.verify did options
    return (.ok result, book)
  else do
    let (result, book') ← resolveWith b.pf b.verify did options (some book) (some book)
    return (result, book'.getD book)

variable {T : Type} [LinearOrder T] [Add T] [Zero T]

/-- The handler call a `resolve` waits for, and what it leaves when the call fulfils. -/
def Builtin.settle (o : Owned T) (state : State T) (call : Nat) (settled : T) (did : JsString)
    (options : ResolveOptions) : Net (Resolution × Owned T) := do
  let method ← Net.lift (parseMethod did)
  let (outcome, book) ← b.handle o.book method did options
  let result ← Net.lift outcome
  match fulfil b.config { state with now := settled } call (some result) with
  | some (state, _) => return (result, { state, book })
  | none => throw (error (js "resolver: the call is not pending"))

/-- `resolve(did, options)`, with no other call in flight. -/
def Builtin.resolve (o : Owned T) (times : Times T) (did : JsString) (options : ResolveOptions) :
    Net (Resolution × Owned T) :=
  match Resolver.resolve b.config { o.state with now := times.called } did options with
  | (state, .served _ _ _ result _) => pure (result, { o with state })
  | (state, .called call _ _) => b.settle o state call times.settled did options
  | (_, .refused _ _ err) => throw err
  | _ => throw (error (js "resolver: another call is in flight"))

/-! ## The log a resolution reads -/

/-- The did:webvh DID whose log the handler of a DID reads; `none` for a method without one, or a
did:scid without a usable source. -/
def logOf (book : SourceBook Nat) (did : JsString) : Option JsString :=
  match parseMethod did with
  | .error _ => none
  | .ok method =>
    if method = js "webvh" then some did
    else if method = js "scid" then
      (webvhTarget did (book.source (scidIdentity did))).toOption
    else none

/-- Whether a `resolve` calls a handler. -/
def Builtin.CallsHandler (o : Owned T) (times : Times T) (did : JsString)
    (options : ResolveOptions) : Prop :=
  ∃ state call,
    Resolver.resolve b.config { o.state with now := times.called } did options =
      (state, .called call did options)

variable {b}

/-- A did:scid resolution makes the requests of the log of its target. -/
lemma safe_resolveWith {φ : Request → Prop} {did : JsString} {options : ResolveOptions}
    {book resumed : Option (SourceBook Nat)} :
    Prog.Safe φ (resolveWith b.pf b.verify did options book resumed).run ↔
      ∀ w, webvhTarget did (book.bind (·.source (scidIdentity did))) = .ok w →
        Prog.Safe φ (Webvh.resolve b.pf b.verify w options).run := by
  unfold resolveWith
  rw [Prog.safe_run_bind]
  constructor
  · intro h w hw
    exact (Prog.safe_run_bind.mp (h.2 w (returns_lift.mpr hw))).1
  · intro h
    refine ⟨safe_lift _, fun w hw => Prog.safe_run_bind.mpr ⟨h w (returns_lift.mp hw), ?_⟩⟩
    exact fun _ _ => trivial

/-- What did not throw is there. -/
lemma toOption_eq_some {ε α : Type} {x : Except ε α} {a : α} :
    x.toOption = some a ↔ x = .ok a := by
  cases x <;> simp [Except.toOption]

/-- A handler's requests are those of the log it reads. -/
lemma safe_handle {φ : Request → Prop} {book : SourceBook Nat} {method did : JsString}
    {options : ResolveOptions} (hm : parseMethod did = .ok method) (hb : method ∈ builtinMethods) :
    Prog.Safe φ (b.handle book method did options).run ↔
      ∀ w, logOf book did = some w → Prog.Safe φ (Webvh.resolve b.pf b.verify w options).run := by
  unfold Builtin.handle logOf
  rw [hm]
  have hwebvh : js "webvh" ≠ js "key" ∧ js "webvh" ≠ js "peer" := by decide
  have hscid : js "scid" ≠ js "key" ∧ js "scid" ≠ js "peer" ∧ js "scid" ≠ js "webvh" := by decide
  have hoffline : js "key" ≠ js "webvh" ∧ js "key" ≠ js "scid" ∧ js "peer" ≠ js "webvh" ∧
      js "peer" ≠ js "scid" ∧ js "peer" ≠ js "key" := by decide
  simp only [builtinMethods, List.mem_cons, List.not_mem_nil, or_false] at hb
  obtain rfl | rfl | rfl | rfl := hb
  · simp [hoffline]
  · simp only [hwebvh, if_false, if_true, Option.some.injEq, forall_eq', Prog.safe_run_bind]
    exact and_iff_left fun _ _ => trivial
  · simp [hoffline]
  · simp only [hscid, if_false, if_true, toOption_eq_some, Prog.safe_run_bind, safe_resolveWith]
    exact and_iff_left fun _ _ => trivial

omit [LinearOrder T] [Add T] [Zero T] in
/-- A handler is called with the DID and the options as they are. -/
lemma rawResolve_called {cfg : Config} {s s' : State T} {did did' method : JsString}
    {options options' : ResolveOptions} {share : Option JsString} {call : Nat}
    (h : rawResolve cfg s did method options share = (s', .called call did' options')) :
    did' = did ∧ options' = options ∧ method ∈ cfg.handlers := by
  unfold rawResolve at h
  split at h
  · rename_i hmem
    cases h
    exact ⟨rfl, rfl, hmem⟩
  · cases h

omit [Add T] in
/-- `resolve` calls a handler with the DID and the options as they are. -/
lemma resolve_called {cfg : Config} {s s' : State T} {did did' : JsString}
    {options options' : ResolveOptions} {call : Nat}
    (h : Resolver.resolve cfg s did options = (s', .called call did' options')) :
    did' = did ∧ options' = options ∧ ∃ method, parseMethod did = .ok method ∧
      method ∈ cfg.handlers := by
  have hmissed : ∀ {s : State T} {method},
      resolveMissed cfg s did method options = (s', .called call did' options') →
      did' = did ∧ options' = options ∧ method ∈ cfg.handlers := by
    intro s method h
    unfold resolveMissed at h
    split at h
    · cases h
    · exact rawResolve_called h
  unfold Resolver.resolve at h
  split at h
  · cases h
  rename_i method hm
  have hmem : did' = did ∧ options' = options ∧ method ∈ cfg.handlers := by
    split at h
    · exact rawResolve_called h
    dsimp only at h
    split at h
    · split at h
      · cases h
      · exact hmissed h
    · exact hmissed h
  exact ⟨hmem.1, hmem.2.1, method, hm, hmem.2.2⟩

omit [Zero T] in
/-- What a handler sends is what its log is resolved by. -/
lemma safe_settle {φ : Request → Prop} {o : Owned T} {state : State T} {call : Nat} {settled : T}
    {did method : JsString} {options : ResolveOptions} (hm : parseMethod did = .ok method)
    (hb : method ∈ builtinMethods) :
    Prog.Safe φ (b.settle o state call settled did options).run ↔
      ∀ w, logOf o.book did = some w →
        Prog.Safe φ (Webvh.resolve b.pf b.verify w options).run := by
  unfold Builtin.settle
  rw [Prog.safe_run_bind]
  constructor
  · intro h
    exact (safe_handle hm hb).mp (Prog.safe_run_bind.mp (h.2 method (returns_lift.mpr hm))).1
  · intro h
    refine ⟨safe_lift _, fun method' hm' => ?_⟩
    cases hm.symm.trans (returns_lift.mp hm')
    refine Prog.safe_run_bind.mpr ⟨(safe_handle hm hb).mpr h, fun outcome _ => ?_⟩
    refine Prog.safe_run_bind.mpr ⟨safe_lift _, fun result _ => ?_⟩
    split <;> trivial

/-- What `resolve` sends is what the DID's log is resolved by, where it calls a handler. -/
lemma safe_resolve {φ : Request → Prop} {o : Owned T} {times : Times T} {did : JsString}
    {options : ResolveOptions} :
    Prog.Safe φ (b.resolve o times did options).run ↔
      (b.CallsHandler o times did options → ∀ w, logOf o.book did = some w →
        Prog.Safe φ (Webvh.resolve b.pf b.verify w options).run) := by
  unfold Builtin.resolve Builtin.CallsHandler
  split
  · rename_i h
    simp [h]
  · rename_i state call did' options' h
    obtain ⟨rfl, rfl, method, hm, hmem⟩ := resolve_called h
    rw [safe_settle hm hmem]
    exact ⟨fun hs _ => hs, fun hs => hs ⟨state, call, h⟩⟩
  · rename_i h
    simp [h]
  · rename_i hserved hcalled hrefused
    refine ⟨fun _ ⟨state, call, h⟩ => absurd h (hcalled _ _ _ _), fun _ => trivial⟩

/-- A did:key is resolved from the identifier alone, whatever the resolver holds. -/
lemma resolve_didKey (o : Owned T) (times : Times T) {did : JsString} (options : ResolveOptions)
    (hm : parseMethod did = .ok (js "key")) :
    ∃ o', b.resolve o times did options = (·, o') <$> Net.lift (b.didKey did) := by
  have hbypass (s : State T) : bypasses b.config s (js "key") options = true := by
    have hkey : js "key" ∈ uncachedMethods := List.mem_cons_self
    simp [bypasses, hkey]
  have hhandler : js "key" ∈ b.config.handlers := List.mem_cons_self
  let called : State T :=
    { o.state with
      pending := o.state.pending.set o.state.next { did, options, share := none }
      now := times.settled
      next := o.state.next + 1 }
  have hhandle : b.handle o.book (js "key") did options = pure (b.didKey did, o.book) := if_pos rfl
  have hlift {α β : Type} (a : α) (f : α → Net β) : (Net.lift (.ok a) >>= f) = f a := rfl
  have hpure {α β : Type} (a : α) (f : α → Net β) : (pure a >>= f) = f a := rfl
  simp only [Builtin.resolve, Resolver.resolve, hm, hbypass, if_true, rawResolve, hhandler,
    Builtin.settle, hlift, hhandle, hpure]
  cases b.didKey did with
  | error err => exact ⟨o, rfl⟩
  | ok result =>
    have hfulfils : (fulfil b.config called o.state.next (some result)).isSome := by
      simp [fulfil, called]
    obtain ⟨⟨state, e⟩, hfulfil⟩ := Option.isSome_iff_exists.mp hfulfils
    refine ⟨⟨state, o.book⟩, ?_⟩
    rw [hlift]
    split
    · rename_i h
      cases hfulfil.symm.trans h
      rfl
    · rename_i h
      cases hfulfil.symm.trans h

/-! ## A resolver without cached entries -/

/-- A resolver that holds no entry and waits for no call. -/
structure IsFresh (o : Owned T) : Prop where
  cache : o.state.cache = .empty
  inflight : o.state.inflight = .empty

omit [LinearOrder T] [Add T] [Zero T] in
/-- A new resolver is fresh. -/
lemma isFresh_init (ttl now : T) (book : SourceBook Nat) : IsFresh ⟨init ttl now, book⟩ := ⟨rfl, rfl⟩

omit [Add T] in
/-- A fresh resolver calls the handler of every method that has one. -/
lemma IsFresh.callsHandler {o : Owned T} (h : IsFresh o) {times : Times T} {did method : JsString}
    {options : ResolveOptions} (hm : parseMethod did = .ok method) (hb : method ∈ builtinMethods) :
    b.CallsHandler o times did options := by
  have hraw : ∀ share, rawResolve b.config { o.state with now := times.called } did method options
      share = _ := fun share => if_pos hb
  unfold Builtin.CallsHandler Resolver.resolve
  rw [hm]
  dsimp only
  split
  · rw [hraw]
    exact ⟨_, _, rfl⟩
  · have hget : o.state.cache.get (cacheKey did) = none := by rw [h.cache]; rfl
    have hflight : o.state.inflight.get did = none := by rw [h.inflight]; rfl
    simp only [hget, resolveMissed, hflight]
    rw [hraw]
    exact ⟨_, _, rfl⟩

/-- A DID with a log has a method with a handler. -/
lemma hasMethod_of_logOf {book : SourceBook Nat} {did w : JsString} (h : logOf book did = some w) :
    ∃ method, parseMethod did = .ok method ∧ method ∈ builtinMethods := by
  unfold logOf at h
  split at h
  · cases h
  · rename_i method hm
    refine ⟨method, hm, ?_⟩
    split at h
    · rename_i hw
      exact hw ▸ by decide
    · split at h
      · rename_i hs
        exact hs ▸ by decide
      · cases h

end VtiDidcomm.Resolver
