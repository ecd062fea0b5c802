import VtiDidcomm.Client.KeyAgreement
import VtiDidcomm.Client.Post
import VtiDidcomm.Envelope.Pack
import VtiDidcomm.Resolver.Builtin

/-!
# Mediator authentication

`mediator-auth.js`: the endpoints a mediator's DID document advertises (`parseMediatorEndpoints`),
the resolution of a mediator's DID (`resolveMediator`), and the challenge and response with its auth
endpoint (`authenticateToMediator`), with the built-in resolver.
-/

namespace VtiDidcomm
open Js Effect

/-- The `netPolicy` argument of a call: what it leaves out is `undefined`. -/
structure NetPolicyArg where
  allowInsecure : Option Bool := none
  allowPrivate : Option Bool := none
  allowHosts : Option (List JsString) := none

/-- A policy whose fields are all given. -/
def NetPolicy.toArg (P : NetPolicy) : NetPolicyArg where
  allowInsecure := some P.allowInsecure
  allowPrivate := some P.allowPrivate
  allowHosts := P.allowHosts

/-- `crypto.randomUUID()`, the time in seconds and what `pack` draws, for one message. -/
structure Draw where
  uuid : JsString
  now : Nat
  entropy : Entropy

/-- `urn:uuid:${randomUuid()}` -/
def Draw.id (d : Draw) : Json := .str (js "urn:uuid:" ++ d.uuid)

/-- A natural number as JSON. -/
def jsonNat (n : Nat) : Json := .num (Nat.repr n).toUTF8.toList

/-- `application/didcomm-plain+json` -/
def typPlain : Json := .str (js "application/didcomm-plain+json")

/-- A caller's key pair and its identity. -/
structure Client where
  did : JsString
  kid : JsString
  privateKey : Bytes
  publicKey : Bytes

/-- `defaultClientKid` -/
def defaultClientKid (did : JsString) (x25519Public : Bytes) : JsString :=
  did ++ js "#" ++ Multibase.encodeMultikey Multibase.x25519Pub x25519Public

/-- The client of a call: its key id is the default one unless the call names another. -/
def Client.ofArgs (clientDid : JsString) (clientX25519Private clientX25519Public : Bytes)
    (clientKid : Option JsString) : Client where
  did := clientDid
  kid := clientKid.getD (defaultClientKid clientDid clientX25519Public)
  privateKey := clientX25519Private
  publicKey := clientX25519Public

/-- A `kid` of a DID document as `pack` uses it: ids are strings, and one that is not goes by its
text. -/
def AgreementKey.kidText (k : AgreementKey) : JsString :=
  if Json.truthy k.kid then Json.toStrOpt k.kid else []

/-- A message packed from a client to a key-agreement key. -/
def packTo (C : Crypto) (draw : Draw) (client : Client) (message : Json) (recipient : AgreementKey) :
    Except JsError JsString := do
  let privateJwk ← Jwk.privateJwk (js "X25519") client.privateKey client.publicKey none
  let publicJwk ← Jwk.publicJwk (js "X25519") recipient.x25519Pub none
  pack C draw.entropy message ⟨client.kid, some privateJwk⟩ ⟨recipient.kidText, some publicJwk⟩

/-- `text.replace(/\/+$/, "")` -/
def trimSlashes (text : JsString) : JsString := trimEnd text slash

/-- `assertNonEmptyString` -/
def assertNonEmptyString (who name value : JsString) : Except JsError Unit :=
  require (value ≠ []) (typeError (who ++ js ": " ++ name ++ js " must be a non-empty string"))

namespace MediatorAuth

/-- The name in the errors of `mediator-auth.js`. -/
def who : JsString := js "mediator-auth"

/-- `AUTH_MESSAGE_TYPE` -/
def authMessageType : JsString := js "https://affinidi.com/atm/1.0/authenticate"

/-- `mergeNetPolicy`: the deprecated top-level flag counts where the policy does not say. -/
def mergeNetPolicy (netPolicy : Option NetPolicyArg) (legacyAllowInsecure : Option Bool) :
    NetPolicy where
  allowInsecure := (((netPolicy.bind (·.allowInsecure)).or legacyAllowInsecure).getD false)
  allowPrivate := (netPolicy.bind (·.allowPrivate)).getD false
  allowHosts := netPolicy.bind (·.allowHosts)

/-! ## The endpoints of a DID document -/

/-- What `resolveMediator` returns. -/
structure Mediator where
  did : JsString
  restEndpoint : JsString
  wsEndpoint : Option JsString
  authEndpoint : JsString
  key : AgreementKey

/-- `serviceTypeIncludes` -/
def serviceTypeIncludes (wanted : JsString) (service : Json) : Bool :=
  match service.get (js "type") with
  | some (.str t) => t = wanted
  | some (.arr types) => types.any (isStr wanted)
  | _ => false

/-- `normalizeServiceEndpoints` -/
def normalizeServiceEndpoints (serviceEndpoint : Option Json) : List Json :=
  match serviceEndpoint with
  | some (.arr items) => items
  | none | some .null => []
  | some endpoint => [endpoint]

/-- The `uri` of a service endpoint, if it is a string. -/
def endpointUri (ep : Json) : Option JsString :=
  match ep with
  | .str uri => some uri
  | ep => Json.asString (ep.get (js "uri"))

/-- The REST and the WebSocket endpoint found so far. -/
structure Endpoints where
  rest : Option JsString := none
  ws : Option JsString := none

/-- The body of the loop over the service endpoints: the last of a kind counts. -/
def Endpoints.add (found : Endpoints) (ep : Json) : Endpoints :=
  match endpointUri ep with
  | none => found
  | some uri =>
    if startsWith uri (js "ws://") || startsWith uri (js "wss://") then { found with ws := some uri }
    else if startsWith uri (js "http://") || startsWith uri (js "https://") then
      { found with rest := some uri }
    else found

/-- `didDocument.service` where it is an array. -/
def servicesOf (didDocument : Json) : List Json :=
  (Json.asArray (didDocument.get (js "service"))).getD []

/-- The endpoints of the `DIDCommMessaging` service. -/
def messagingEndpoints (didDocument : Json) : Endpoints :=
  match (servicesOf didDocument).find? (serviceTypeIncludes (js "DIDCommMessaging")) with
  | none => {}
  | some messaging =>
    (normalizeServiceEndpoints (messaging.get (js "serviceEndpoint"))).foldl Endpoints.add {}

/-- The endpoint of the `Authentication` service, or the one next to the REST endpoint. -/
def authEndpointOf (didDocument : Json) (rest : Option JsString) : Option JsString :=
  let authService := (servicesOf didDocument).find? (serviceTypeIncludes (js "Authentication"))
  match authService.bind fun service => Json.asString (service.get (js "serviceEndpoint")) with
  | some endpoint => some endpoint
  | none =>
    match rest with
    | none | some [] => none
    | some rest => some (trimSlashes rest ++ js "/authenticate")

/-- The endpoints that would be dialed, with the label and the scheme each is checked under. -/
def dialed (rest auth : JsString) (ws : Option JsString) : List (JsString × JsString × JsString) :=
  (js "REST", rest, js "https:") :: (js "auth", auth, js "https:") ::
    (ws.toList.map fun url => (js "WebSocket", url, js "wss:"))

/-- The refusal of plaintext transports. -/
def refusePlaintext (mediatorDid : JsString) (endpoints : List (JsString × JsString × JsString)) :
    Except JsError Unit :=
  endpoints.forM fun (label, url, _) =>
    require (startsWith url (js "http://") = false ∧ startsWith url (js "ws://") = false)
      (error (who ++ js ": " ++ mediatorDid ++ js " advertises an insecure " ++ label ++
        js " endpoint (" ++ url ++ js
          "); pass \x7b netPolicy: \x7b allowInsecure: true \x7d \x7d to permit it"))

variable (pf : Platform)

/-- The policy an advertised endpoint is checked under. -/
def endpointPolicy (policy : NetPolicy) (label scheme : JsString) : EndpointPolicy :=
  { policy with label := js "mediator " ++ label, schemes := [scheme] }

/-- The check of every endpoint that would be dialed. -/
def assertEndpoints (policy : NetPolicy) (endpoints : List (JsString × JsString × JsString)) :
    Except JsError Unit :=
  endpoints.forM fun (label, url, scheme) => do
    let _ ← assertSafeEndpoint pf url (endpointPolicy policy label scheme)

/-- The endpoints and the key of a document that is there. -/
def mediatorOf (didDocument : Json) (mediatorDid : JsString) (policy : NetPolicy) :
    Except JsError Mediator :=
  let found := messagingEndpoints didDocument
  match found.rest, authEndpointOf didDocument found.rest with
  | none, _ | some [], _ =>
    .error (error (who ++ js ": " ++ mediatorDid ++ js " has no REST DIDCommMessaging endpoint"))
  | some (_ :: _), none | some (_ :: _), some [] =>
    .error (error (who ++ js ": " ++ mediatorDid ++ js " has no resolvable authenticate endpoint"))
  | some (r :: rest), some (a :: auth) => do
    let endpoints := dialed (r :: rest) (a :: auth) found.ws
    if !policy.allowInsecure then refusePlaintext mediatorDid endpoints
    assertEndpoints pf policy endpoints
    let key ← extractX25519KeyAgreement didDocument mediatorDid
    pure {
      did := mediatorDid
      restEndpoint := trimSlashes (r :: rest)
      wsEndpoint := found.ws
      authEndpoint := a :: auth
      key := key }

/-- `parseMediatorEndpoints` -/
def parseMediatorEndpoints (didDocument : Option Json) (mediatorDid : JsString)
    (policy : NetPolicy) : Except JsError Mediator := do
  let didDocument ← documentOf didDocument (who ++ js ": invalid DID document for " ++ mediatorDid)
  mediatorOf pf didDocument mediatorDid policy

/-! ## The handshake -/

/-- What `authenticateToMediator` is called with. -/
structure Args where
  mediatorDid : JsString
  clientDid : JsString
  clientX25519Private : Bytes
  clientX25519Public : Bytes
  clientKid : Option JsString := none
  netPolicy : Option NetPolicyArg := none
  allowInsecure : Option Bool := none

/-- The policy a call is under. -/
def Args.policy (args : Args) : NetPolicy := mergeNetPolicy args.netPolicy args.allowInsecure

/-- The checks on the arguments. -/
def Args.check (args : Args) : Except JsError Unit := do
  assertNonEmptyString who (js "mediatorDid") args.mediatorDid
  assertNonEmptyString who (js "clientDid") args.clientDid
  assertBytes (who ++ js ": clientX25519Private") args.clientX25519Private 32
  assertBytes (who ++ js ": clientX25519Public") args.clientX25519Public 32

/-- The client a call packs for. -/
def Args.client (args : Args) : Client :=
  .ofArgs args.clientDid args.clientX25519Private args.clientX25519Public args.clientKid

/-- What `authenticateToMediator` returns. -/
structure Auth where
  accessToken : Option Json
  accessExpiresAt : Option Json
  refreshToken : Option Json
  refreshExpiresAt : Option Json
  sessionId : Option Json
  mediator : Mediator

/-- The policy of the auth requests. -/
def authPolicy (policy : NetPolicy) : EndpointPolicy :=
  { policy with label := js "mediator auth", schemes := [js "https:"] }

/-- `challenge?.data?.challenge`, and `challenge?.data?.session_id ?? challenge?.sessionId`. -/
def challengeOf (challenge : Json) : Except JsError (Json × Json) :=
  let data := challenge.get (js "data")
  let inData := data.bind (·.get (js "session_id"))
  let sessionId := if Json.isNullish inData then challenge.get (js "sessionId") else inData
  let challengeStr := data.bind (·.get (js "challenge"))
  if Json.truthy challengeStr && Json.truthy sessionId then
    .ok (challengeStr.getD .null, sessionId.getD .null)
  else
    .error (responseError (who ++ js ": challenge response missing challenge or session_id")
      (Json.stringify challenge) none)

/-- The authenticate message. -/
def authMessage (draw : Draw) (clientDid mediatorDid : JsString) (challenge sessionId : Json) :
    Json :=
  .obj [(js "id", draw.id), (js "typ", typPlain), (js "type", .str authMessageType),
    (js "from", .str clientDid), (js "to", .arr [.str mediatorDid]),
    (js "created_time", jsonNat draw.now), (js "expires_time", jsonNat (draw.now + 300)),
    (js "body", .obj [(js "challenge", challenge), (js "session_id", sessionId)])]

/-- The tokens of an authenticate response. -/
def authOf (auth : Json) (mediator : Mediator) : Except JsError Auth :=
  let data := auth.get (js "data")
  let token (name : String) := data.bind (·.get (js name))
  if Json.truthy (token "access_token") then
    .ok {
      accessToken := token "access_token"
      accessExpiresAt := token "access_expires_at"
      refreshToken := token "refresh_token"
      refreshExpiresAt := token "refresh_expires_at"
      sessionId := auth.get (js "sessionId")
      mediator := mediator }
  else
    .error (responseError (who ++ js ": authenticate response missing access_token")
      (Json.stringify auth) none)

variable {T : Type} [LinearOrder T] [Add T] [Zero T] (b : Resolver.Builtin) (C : Crypto)

/-- `resolveMediator`: the policy goes to the check of the endpoints; the DID is resolved without
options. -/
def resolveMediator (o : Resolver.Owned T) (times : Resolver.Times T) (mediatorDid : JsString)
    (policy : NetPolicy) : Net (Mediator × Resolver.Owned T) := do
  let (resolution, o) ← b.resolve o times mediatorDid {}
  let didDocument ← Net.lift (documentOf resolution.didDocument
    (who ++ js ": could not resolve mediator DID " ++ mediatorDid))
  let mediator ← Net.lift (parseMediatorEndpoints b.pf (some didDocument) mediatorDid policy)
  return (mediator, o)

/-- The challenge and the response, once the mediator is resolved. -/
def handshake (args : Args) (draw : Draw) (mediator : Mediator) : Net Auth := do
  let safeFetch ← Net.lift (guardedFetch b.pf (authPolicy args.policy))
  let challenge ← postJson b.pf who safeFetch (mediator.authEndpoint ++ js "/challenge")
    (.obj [(js "did", .str args.clientDid)])
  let (challengeStr, sessionId) ← Net.lift (challengeOf challenge)
  let message := authMessage draw args.clientDid args.mediatorDid challengeStr sessionId
  let jweJson ← Net.lift (packTo C draw args.client message mediator.key)
  let auth ← postRaw b.pf who safeFetch mediator.authEndpoint jweJson
  Net.lift (authOf auth mediator)

/-- `authenticateToMediator` -/
def authenticateToMediator (o : Resolver.Owned T) (times : Resolver.Times T) (args : Args)
    (draw : Draw) : Net (Auth × Resolver.Owned T) := do
  Net.lift args.check
  let (mediator, o) ← resolveMediator b o times args.mediatorDid args.policy
  let auth ← handshake b C args draw mediator
  return (auth, o)

end MediatorAuth

end VtiDidcomm
