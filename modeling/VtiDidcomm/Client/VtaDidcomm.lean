import VtiDidcomm.Client.MediatorAuth

/-!
# DIDComm with a VTA through its mediator

`connectVtaViaMediator` of `vta-didcomm.js`: the VTA's key, the authentication to the mediator, and
the session with it, opened as `MediatorSession` of `mediator-transport.js` opens its socket. A
sender that is not seeded is resolved by `resolveSender`.
-/

namespace VtiDidcomm.VtaDidcomm
open Js Effect

/-- The name in the errors of `vta-didcomm.js`. -/
def who : JsString := js "vta-didcomm"

/-- `LIVE_DELIVERY_CHANGE_TYPE` -/
def liveDeliveryChangeType : JsString :=
  js "https://didcomm.org/messagepickup/3.0/live-delivery-change"

/-- `WS_APP_SUBPROTOCOL` -/
def wsAppSubprotocol : JsString := js "didcomm"

/-- What `connectVtaViaMediator` is called with. -/
structure Args where
  vtaDid : JsString
  mediatorDid : JsString
  clientDid : JsString
  clientX25519Private : Bytes
  clientX25519Public : Bytes
  clientKid : Option JsString := none
  netPolicy : Option NetPolicy := none

/-- The policy a call is under. -/
def Args.policy (args : Args) : NetPolicy := args.netPolicy.getD {}

/-- The client a call packs for. -/
def Args.client (args : Args) : Client :=
  .ofArgs args.clientDid args.clientX25519Private args.clientX25519Public args.clientKid

/-- The arguments of the mediator authentication. -/
def Args.auth (args : Args) : MediatorAuth.Args where
  mediatorDid := args.mediatorDid
  clientDid := args.clientDid
  clientX25519Private := args.clientX25519Private
  clientX25519Public := args.clientX25519Public
  clientKid := some args.client.kid
  netPolicy := args.netPolicy.map NetPolicy.toArg

/-- `_wsPolicy` -/
def wsPolicy (policy : NetPolicy) : EndpointPolicy :=
  { policy with label := js "mediator WebSocket", schemes := [js "wss:"] }

/-- `buildLiveDeliveryChange` -/
def buildLiveDeliveryChange (draw : Draw) (from' mediatorDid : JsString) (live : Bool) : Json :=
  .obj [(js "id", draw.id), (js "typ", typPlain), (js "type", .str liveDeliveryChangeType),
    (js "from", .str from'), (js "to", .arr [.str mediatorDid]),
    (js "created_time", jsonNat draw.now), (js "expires_time", jsonNat (draw.now + 300)),
    (js "return_route", .str (js "all")), (js "body", .obj [(js "live_delivery", .bool live)])]

/-- The subprotocols a socket is opened with. -/
def subprotocols (mediatorJwt : Option Json) : List JsString :=
  [js "bearer." ++ Json.toStrOpt mediatorJwt, wsAppSubprotocol]

variable (pf : Platform)

/-- The endpoint a `MediatorSession` is constructed for, checked. -/
def sessionEndpoint (mediator : MediatorAuth.Mediator) (policy : NetPolicy) :
    Except JsError JsString :=
  match mediator.wsEndpoint with
  | none | some [] => .error (error (js
      "MediatorSession: mediator.wsEndpoint required (mediator advertises no wss endpoint)"))
  | some (c :: endpoint) => do
    let _ ← assertSafeEndpoint pf (c :: endpoint) (wsPolicy policy)
    pure (c :: endpoint)

/-- `_openSocket`: the endpoint is checked again before it is dialed. -/
def openSocket (endpoint : JsString) (mediatorJwt : Option Json) (policy : NetPolicy) :
    Net Unit := do
  let _ ← Net.lift (assertSafeEndpoint pf endpoint (wsPolicy policy))
  let _ ← send (.webSocket endpoint (subprotocols mediatorJwt))
  return ()

/-- A connected client, and the frame its session sent first. -/
structure Connected where
  vta : AgreementKey
  client : Client
  mediator : MediatorAuth.Mediator
  senderKeys : List (JsString × Json)
  sent : JsString

variable {T : Type} [LinearOrder T] [Add T] [Zero T] (b : Resolver.Builtin) (C : Crypto)

/-- `resolveX25519KeyAgreement` -/
def resolveX25519KeyAgreement (o : Resolver.Owned T) (times : Resolver.Times T) (did : JsString)
    (netPolicy : Option NetPolicy) : Net (AgreementKey × Resolver.Owned T) := do
  let (resolution, o) ← b.resolve o times did { netPolicy }
  let didDocument ← Net.lift (documentOf resolution.didDocument
    (who ++ js ": could not resolve a DID document for " ++ did))
  let key ← Net.lift (x25519KeyAgreement didDocument did)
  return (key, o)

/-- `resolveX25519KeyAgreementKey` -/
def resolveX25519KeyAgreementKey (o : Resolver.Owned T) (times : Resolver.Times T)
    (did kid : JsString) (netPolicy : Option NetPolicy) :
    Net (AgreementKey × Resolver.Owned T) := do
  let (resolution, o) ← b.resolve o times did { netPolicy }
  let didDocument ← Net.lift (documentOf resolution.didDocument
    (who ++ js ": could not resolve a DID document for " ++ did))
  let key ← Net.lift (x25519KeyAgreementKey didDocument did kid)
  return (key, o)

/-- The `resolveSender` of a session. -/
def resolveSender (o : Resolver.Owned T) (times : Resolver.Times T) (args : Args)
    (did skid : JsString) : Net (AgreementKey × Json × Resolver.Owned T) := do
  let (key, o) ← resolveX25519KeyAgreementKey b o times did skid args.netPolicy
  let publicJwk ← Net.lift (Jwk.publicJwk (js "X25519") key.x25519Pub none)
  return (key, publicJwk, o)

/-- `new MediatorSession(…)` and its `connect`, once the mediator has authenticated the caller. -/
def openSession (args : Args) (draw : Draw) (vta : AgreementKey) (auth : MediatorAuth.Auth) :
    Net Connected := do
  let vtaJwk ← Net.lift (Jwk.publicJwk (js "X25519") vta.x25519Pub none)
  let endpoint ← Net.lift (sessionEndpoint b.pf auth.mediator args.policy)
  let mediatorJwk ← Net.lift (Jwk.publicJwk (js "X25519") auth.mediator.key.x25519Pub none)
  openSocket b.pf endpoint auth.accessToken args.policy
  let change := buildLiveDeliveryChange draw args.clientDid auth.mediator.did true
  let packed ← Net.lift (packTo C draw args.client change auth.mediator.key)
  return {
    vta := vta
    client := args.client
    mediator := auth.mediator
    senderKeys := [(args.vtaDid, vtaJwk), (auth.mediator.did, mediatorJwk)]
    sent := packed }

/-- When the VTA's DID and then the mediator's are resolved. -/
structure ConnectTimes (T : Type) where
  vta : Resolver.Times T
  mediator : Resolver.Times T

/-- What the two messages of a connection draw. -/
structure ConnectDraws where
  auth : Draw
  change : Draw

/-- `connectVtaViaMediator` -/
def connectVtaViaMediator (o : Resolver.Owned T) (times : ConnectTimes T) (args : Args)
    (draws : ConnectDraws) : Net (Connected × Resolver.Owned T) := do
  let (vta, o) ← resolveX25519KeyAgreement b o times.vta args.vtaDid args.netPolicy
  let (auth, o) ← MediatorAuth.authenticateToMediator b C o times.mediator args.auth draws.auth
  let connected ← openSession b C args draws.change vta auth
  return (connected, o)

end VtiDidcomm.VtaDidcomm
