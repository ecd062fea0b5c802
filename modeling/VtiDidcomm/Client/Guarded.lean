import VtiDidcomm.Client.Egress

/-!
# What the guard gives every call

The calls of the client are made of guarded parts: the fetch of a log, of a witness file and of an
endpoint, and the opening of a WebSocket, each behind `assertSafeEndpoint`. A property of programs
that these parts have, and that sequencing keeps (`Guarded`), is one of every call. The policies are
told apart by whether they let private hosts through, which a call's own policy decides.
-/

namespace VtiDidcomm
open Js Effect

/-- A property that sequences keep, and that all guarded requests have under policies that let
private hosts through only if `allowPrivate`. -/
structure Guarded (pf : Platform) (allowPrivate : Bool) (Φ : ∀ {α : Type}, Net α → Prop) :
    Prop where
  lift : ∀ {α : Type} (r : Except JsError α), Φ (Net.lift r)
  bind : ∀ {α β : Type} {p : Net α} {f : α → Net β}, Φ p →
    (∀ a, Prog.Returns p.run (.ok a) → Φ (f a)) → Φ (p >>= f)
  fetch : ∀ {policy : EndpointPolicy}, (policy.allowPrivate = true → allowPrivate = true) →
    ∀ url method body, Φ (netGuardedFetch pf policy url method body)
  fetchBody : ∀ {policy : EndpointPolicy}, (policy.allowPrivate = true → allowPrivate = true) →
    ∀ url label, Φ (Webvh.fetchBody (netGuardedFetch pf policy) url label)
  witness : ∀ {policy : EndpointPolicy}, (policy.allowPrivate = true → allowPrivate = true) →
    ∀ log logUrl, Φ (Webvh.suppliedWitnessProofs pf (netGuardedFetch pf policy) log logUrl)
  webSocket : ∀ {policy : EndpointPolicy} {url : JsString} {u : Url},
    assertSafeEndpoint pf url policy = .ok u → (policy.allowPrivate = true → allowPrivate = true) →
    ∀ protocols, Φ (send (.webSocket url protocols))

namespace Guarded

variable {pf : Platform} {allowPrivate : Bool} {Φ : ∀ {α : Type}, Net α → Prop} {α β : Type}

section Parts
variable (h : Guarded pf allowPrivate Φ)
include h

/-- A return is guarded. -/
lemma pure (a : α) : Φ (Pure.pure a : Net α) := h.lift (.ok a)

/-- A throw is guarded. -/
lemma throw (err : JsError) : Φ (MonadExcept.throw err : Net α) := h.lift (.error err)

/-- A check that passes, and what follows. -/
lemma lift_bind {r : Except JsError α} {f : α → Net β} (hf : ∀ a, r = .ok a → Φ (f a)) :
    Φ (Net.lift r >>= f) :=
  h.bind (h.lift r) fun a ha => hf a (returns_lift.mp ha)

/-- A post is guarded. -/
lemma postRaw {who : JsString} {policy : EndpointPolicy} {fetch : GuardedFetch} {url body : JsString}
    (hfetch : guardedFetch pf policy = .ok fetch)
    (hp : policy.allowPrivate = true → allowPrivate = true) : Φ (postRaw pf who fetch url body) := by
  cases guardedFetch_eq_ok hfetch
  exact h.bind (h.fetch hp _ _ _) fun resp _ => h.lift _

/-! ## Resolutions -/

/-- A did:webvh resolution is guarded. -/
lemma webvh {verify : Webvh.LogVerifier} {did : JsString} {options : ResolveOptions}
    (hp : (Webvh.netPolicyOf options).allowPrivate = true → allowPrivate = true) :
    Φ (Webvh.resolve pf verify did options) := by
  apply h.lift_bind
  intro time _
  split
  · exact h.throw _
  apply h.lift_bind
  intro logUrl _
  apply h.lift_bind
  intro fetchGuarded hfetch
  cases guardedFetch_eq_ok hfetch
  apply h.bind (h.fetchBody hp _ _)
  intro text _
  apply h.lift_bind
  intro log _
  apply h.bind (h.witness hp _ _)
  intro proofs _
  apply h.lift_bind
  exact fun _ _ => h.lift _

end Parts

section Calls
variable {T : Type} [LinearOrder T] [Add T] [Zero T] {b : Resolver.Builtin} {C : Crypto}
  (h : Guarded b.pf allowPrivate Φ)
include h

/-- Every built-in handler is guarded. -/
lemma handle {book : SourceBook Nat} {method did : JsString} {options : ResolveOptions}
    (hp : (Webvh.netPolicyOf options).allowPrivate = true → allowPrivate = true) :
    Φ (b.handle book method did options) := by
  unfold Resolver.Builtin.handle
  split
  · exact h.pure _
  split
  · exact h.pure _
  split
  · exact h.bind (h.webvh hp) fun _ _ => h.pure _
  · apply h.bind
    · apply h.lift_bind
      intro w _
      exact h.bind (h.webvh hp) fun _ _ => h.pure _
    · exact fun _ _ => h.pure _

/-- The resolver is guarded. -/
lemma resolve {o : Resolver.Owned T} {times : Resolver.Times T} {did : JsString}
    {netPolicy : Option NetPolicy}
    (hp : (netPolicy.getD {}).allowPrivate = true → allowPrivate = true) :
    Φ (b.resolve o times did { netPolicy }) := by
  unfold Resolver.Builtin.resolve
  split
  · exact h.pure _
  · apply h.lift_bind
    intro method _
    apply h.bind
    · exact h.handle hp
    rintro ⟨outcome, book⟩ _
    apply h.lift_bind
    intro result _
    split
    · exact h.pure _
    · exact h.throw _
  · exact h.throw _
  · exact h.throw _

/-- The default policy lets no private host through. -/
lemma resolve_default {o : Resolver.Owned T} {times : Resolver.Times T} {did : JsString} :
    Φ (b.resolve o times did {}) :=
  h.resolve fun hp => absurd hp Bool.false_ne_true

/-- What is read of a resolved document. -/
lemma read {σ : Type} {document : Except JsError Json} {read : Json → Except JsError α} (o : σ) :
    Φ (do
      let didDocument ← Net.lift document
      let a ← Net.lift (read didDocument)
      return (a, o)) := by
  apply h.lift_bind
  intro didDocument _
  apply h.lift_bind
  exact fun a _ => h.pure _

/-! ## The mediator -/

/-- The handshake is guarded. -/
lemma handshake {args : MediatorAuth.Args} {draw : Draw} {mediator : MediatorAuth.Mediator}
    (hp : args.policy.allowPrivate = true → allowPrivate = true) :
    Φ (MediatorAuth.handshake b C args draw mediator) := by
  apply h.lift_bind
  intro fetch hfetch
  apply h.bind (h.postRaw hfetch hp)
  intro challenge _
  apply h.lift_bind
  rintro ⟨c, sessionId⟩ _
  apply h.lift_bind
  intro jweJson _
  apply h.bind (h.postRaw hfetch hp)
  exact fun auth _ => h.lift _

/-- The authentication to the mediator is guarded. -/
lemma authenticateToMediator {o : Resolver.Owned T} {times : Resolver.Times T}
    {args : MediatorAuth.Args} {draw : Draw}
    (hp : args.policy.allowPrivate = true → allowPrivate = true) :
    Φ (MediatorAuth.authenticateToMediator b C o times args draw) := by
  apply h.lift_bind
  intro _ _
  apply h.bind
  · apply h.bind h.resolve_default
    rintro ⟨resolution, o⟩ _
    exact h.read o
  rintro ⟨mediator, o⟩ _
  apply h.bind (h.handshake hp)
  exact fun auth _ => h.pure _

/-! ## The session -/

/-- The opening of a session is guarded. -/
lemma openSession {args : VtaDidcomm.Args} {draw : Draw} {vta : AgreementKey}
    {auth : MediatorAuth.Auth} (hp : args.policy.allowPrivate = true → allowPrivate = true) :
    Φ (VtaDidcomm.openSession b C args draw vta auth) := by
  apply h.lift_bind
  intro vtaJwk _
  apply h.lift_bind
  intro endpoint _
  apply h.lift_bind
  intro mediatorJwk _
  apply h.bind
  · apply h.lift_bind
    intro u hu
    apply h.bind (h.webSocket hu hp _)
    exact fun _ _ => h.pure _
  intro _ _
  apply h.lift_bind
  exact fun packed _ => h.pure _

/-- The connection is guarded. -/
lemma connectVtaViaMediator {o : Resolver.Owned T} {times : VtaDidcomm.ConnectTimes T}
    {args : VtaDidcomm.Args} {draws : VtaDidcomm.ConnectDraws}
    (hp : args.policy.allowPrivate = true → allowPrivate = true) :
    Φ (VtaDidcomm.connectVtaViaMediator b C o times args draws) := by
  apply h.bind
  · apply h.bind (h.resolve hp)
    rintro ⟨resolution, o⟩ _
    exact h.read o
  rintro ⟨vta, o⟩ _
  apply h.bind (h.authenticateToMediator (VtaDidcomm.policy_auth args ▸ hp))
  rintro ⟨auth, o⟩ _
  apply h.bind (h.openSession hp)
  exact fun connected _ => h.pure _

/-- The resolution of a sender is guarded. -/
lemma resolveSender {o : Resolver.Owned T} {times : Resolver.Times T} {args : VtaDidcomm.Args}
    {did skid : JsString} (hp : args.policy.allowPrivate = true → allowPrivate = true) :
    Φ (VtaDidcomm.resolveSender b o times args did skid) := by
  apply h.bind
  · apply h.bind (h.resolve hp)
    rintro ⟨resolution, o⟩ _
    exact h.read o
  rintro ⟨key, o⟩ _
  apply h.lift_bind
  exact fun publicJwk _ => h.pure _

/-! ## The REST client -/

/-- A packed post is guarded. -/
lemma packAndPost {o : Resolver.Owned T} {times : Resolver.Times T} {ctx : VtaRestAuth.Context}
    {policy : EndpointPolicy} {draw : Draw} {path type : JsString} {body : Json}
    (hfetch : guardedFetch b.pf policy = .ok ctx.fetchFn)
    (hp : policy.allowPrivate = true → allowPrivate = true) :
    Φ (VtaRestAuth.packAndPost b C o times ctx draw path type body) := by
  apply h.bind
  · apply h.bind h.resolve_default
    rintro ⟨resolution, o⟩ _
    exact h.read o
  rintro ⟨recipient, o⟩ _
  apply h.lift_bind
  intro jweJson _
  apply h.bind (h.postRaw hfetch hp)
  exact fun response _ => h.pure _

/-- The authentication over REST is guarded. -/
lemma authenticate {o : Resolver.Owned T} {times : Resolver.Times T} {args : VtaRestAuth.Args}
    {draw : Draw} (hp : args.policy.allowPrivate = true → allowPrivate = true) :
    Φ (VtaRestAuth.authenticate b C o times args draw) := by
  apply h.lift_bind
  intro _ _
  apply h.lift_bind
  intro ctx hctx
  obtain ⟨-, hfetch, -⟩ := VtaRestAuth.buildContext_eq_ok hctx
  apply h.bind
  · apply h.bind (h.postRaw hfetch hp)
    exact fun _ _ => h.lift _
  rintro ⟨challenge, sessionId⟩ _
  apply h.bind (h.packAndPost hfetch hp)
  rintro ⟨auth, o⟩ _
  apply h.lift_bind
  exact fun tokens _ => h.pure _

/-- A refresh is guarded. -/
lemma refresh {o : Resolver.Owned T} {times : Resolver.Times T} {args : VtaRestAuth.Args}
    {refreshToken : JsString} {draw : Draw}
    (hp : args.policy.allowPrivate = true → allowPrivate = true) :
    Φ (VtaRestAuth.refresh b C o times args refreshToken draw) := by
  apply h.lift_bind
  intro _ _
  apply h.lift_bind
  intro ctx hctx
  obtain ⟨-, hfetch, -⟩ := VtaRestAuth.buildContext_eq_ok hctx
  apply h.bind (h.packAndPost hfetch hp)
  rintro ⟨auth, o⟩ _
  apply h.lift_bind
  exact fun tokens _ => h.pure _

end Calls

end Guarded

end VtiDidcomm
