import VtiDidcomm.Client.MediatorAuth

/-!
# VTA REST authentication

`vta-rest-auth.js`: `authenticate` and `refresh`, which share the checks of `buildContext` and the
packed post of `packAndPost`, with the built-in resolver.
-/

namespace VtiDidcomm.VtaRestAuth
open Js Effect

/-- The name in the errors of `vta-rest-auth.js`. -/
def who : JsString := js "vta-rest-auth"

/-- `AUTH_MESSAGE_TYPE` -/
def authMessageType : JsString := js "https://trusttasks.org/spec/auth/authenticate/0.1"

/-- `REFRESH_MESSAGE_TYPE` -/
def refreshMessageType : JsString := js "https://trusttasks.org/spec/auth/refresh/0.1"

/-- What `authenticate` and `refresh` are called with. -/
structure Args where
  baseUrl : JsString
  vtaDid : JsString
  clientDid : JsString
  clientX25519Private : Bytes
  clientX25519Public : Bytes
  clientKid : Option JsString := none
  netPolicy : Option NetPolicy := none

/-- The policy a call is under. -/
def Args.policy (args : Args) : NetPolicy := args.netPolicy.getD {}

/-- The client a call packs for. -/
def Args.client (args : Args) : Client :=
  .ofArgs args.clientDid args.clientX25519Private args.clientX25519Public args.clientKid

/-- The policy of the requests to the VTA. -/
def restPolicy (policy : NetPolicy) : EndpointPolicy :=
  { policy with label := js "VTA REST", schemes := [js "https:"] }

/-- What `buildContext` returns. -/
structure Context where
  baseUrl : JsString
  vtaDid : JsString
  client : Client
  fetchFn : GuardedFetch

/-- `generateEphemeralClient`, from the secret key it draws. -/
def generateEphemeralClient (C : Crypto) (secretKey : Bytes) : Except JsError Client := do
  let (privateKey, publicKey) ← generateKeyPair C secretKey
  let mb := Multibase.encodeMultikey Multibase.x25519Pub publicKey
  let did := js "did:key:" ++ mb
  pure { did, kid := did ++ js "#" ++ mb, privateKey, publicKey }

/-- `joinUrl` -/
def joinUrl (base path : JsString) : JsString := trimSlashes base ++ path

variable (pf : Platform)

/-- `buildContext` -/
def buildContext (args : Args) : Except JsError Context := do
  assertNonEmptyString who (js "baseUrl") args.baseUrl
  assertNonEmptyString who (js "vtaDid") args.vtaDid
  assertNonEmptyString who (js "clientDid") args.clientDid
  assertBytes (who ++ js ": clientX25519Private") args.clientX25519Private 32
  assertBytes (who ++ js ": clientX25519Public") args.clientX25519Public 32
  let _ ← assertSafeEndpoint pf args.baseUrl (restPolicy args.policy)
  let fetchFn ← guardedFetch pf (restPolicy args.policy)
  pure {
    baseUrl := args.baseUrl
    vtaDid := args.vtaDid
    client := args.client
    fetchFn := fetchFn }

/-- A message of a context. -/
def messageOf (ctx : Context) (draw : Draw) (type : JsString) (body : Json) : Json :=
  .obj [(js "id", draw.id), (js "typ", typPlain), (js "type", .str type),
    (js "from", .str ctx.client.did), (js "to", .arr [.str ctx.vtaDid]), (js "body", body)]

variable {T : Type} [LinearOrder T] [Add T] [Zero T] (b : Resolver.Builtin) (C : Crypto)

/-- `resolveVtaRecipient`: the DID is resolved without options. -/
def resolveVtaRecipient (o : Resolver.Owned T) (times : Resolver.Times T) (vtaDid : JsString) :
    Net (AgreementKey × Resolver.Owned T) := do
  let (resolution, o) ← b.resolve o times vtaDid {}
  let didDocument ← Net.lift (documentOf resolution.didDocument
    (who ++ js ": could not resolve a DID document for " ++ vtaDid ++
      js " (resolver returned no document)"))
  let recipient ← Net.lift (vtaRecipient didDocument vtaDid)
  return (recipient, o)

/-- `packAndPost` -/
def packAndPost (o : Resolver.Owned T) (times : Resolver.Times T) (ctx : Context) (draw : Draw)
    (path type : JsString) (body : Json) : Net (Json × Resolver.Owned T) := do
  let (recipient, o) ← resolveVtaRecipient b o times ctx.vtaDid
  let jweJson ← Net.lift (packTo C draw ctx.client (messageOf ctx draw type body) recipient)
  let response ← postRaw b.pf who ctx.fetchFn (joinUrl ctx.baseUrl path) jweJson
  return (response, o)

/-- What `authenticate` and `refresh` return. -/
structure Tokens where
  accessToken : Option Json
  accessExpiresAt : Option Json
  refreshToken : Option Json
  refreshExpiresAt : Option Json
  sessionId : Option Json

/-- `rfc3339ToEpochSeconds` -/
def rfc3339ToEpochSeconds (iso : Option Json) : Option Int :=
  match Json.asString iso with
  | none => none
  | some iso => (pf.parseDate iso).map fun ms => Int.fdiv ms 1000

/-- `absoluteExpiry` -/
def absoluteExpiry (issuedAtEpoch : Option Int) (expiresInSecs : Option Json) : Option Json :=
  match issuedAtEpoch, expiresInSecs with
  | some issuedAtEpoch, some (.num expiresInSecs) =>
    some (.num (pf.addNumber issuedAtEpoch expiresInSecs))
  | _, _ => none

/-- `tokenResult` -/
def tokenResult (resp : Json) (path : JsString) : Except JsError Tokens :=
  let token (name : String) := (resp.get (js "tokens")).bind (·.get (js name))
  let session (name : String) := (resp.get (js "session")).bind (·.get (js name))
  if Json.truthy (token "accessToken") then
    let issuedAtEpoch := rfc3339ToEpochSeconds pf (session "issuedAt")
    .ok {
      accessToken := token "accessToken"
      accessExpiresAt := absoluteExpiry pf issuedAtEpoch (token "expiresIn")
      refreshToken := token "refreshToken"
      refreshExpiresAt := absoluteExpiry pf issuedAtEpoch (token "refreshExpiresIn")
      sessionId := session "id" }
  else
    .error (responseError (who ++ js ": " ++ path ++ js " response missing tokens.accessToken")
      (Json.stringify resp) none)

/-- `challenge?.challenge` and `challenge?.sessionId` -/
def challengeOf (challenge : Json) : Except JsError (Json × Json) :=
  let challengeStr := challenge.get (js "challenge")
  let sessionId := challenge.get (js "sessionId")
  if Json.truthy sessionId && Json.truthy challengeStr then
    .ok (challengeStr.getD .null, sessionId.getD .null)
  else
    .error (responseError (who ++
      js ": /auth/challenge response missing sessionId or challenge") (Json.stringify challenge) none)

/-- The challenge of `authenticate`. -/
def requestChallenge (ctx : Context) : Net (Json × Json) := do
  let challenge ← postJson pf who ctx.fetchFn (joinUrl ctx.baseUrl (js "/auth/challenge"))
    (.obj [(js "did", .str ctx.client.did)])
  Net.lift (challengeOf challenge)

/-- `authenticate` -/
def authenticate (o : Resolver.Owned T) (times : Resolver.Times T) (args : Args) (draw : Draw) :
    Net (Tokens × Resolver.Owned T) := do
  Net.lift (assertNonEmptyString who (js "clientDid") args.clientDid)
  let ctx ← Net.lift (buildContext b.pf args)
  let (challenge, sessionId) ← requestChallenge b.pf ctx
  let (auth, o) ← packAndPost b C o times ctx draw (js "/auth/") authMessageType
    (.obj [(js "challenge", challenge), (js "session_id", sessionId)])
  let tokens ← Net.lift (tokenResult b.pf auth (js "/auth/"))
  return (tokens, o)

/-- `refresh` -/
def refresh (o : Resolver.Owned T) (times : Resolver.Times T) (args : Args)
    (refreshToken : JsString) (draw : Draw) : Net (Tokens × Resolver.Owned T) := do
  Net.lift (assertNonEmptyString who (js "refreshToken") refreshToken)
  let ctx ← Net.lift (buildContext b.pf args)
  let (auth, o) ← packAndPost b C o times ctx draw (js "/auth/refresh") refreshMessageType
    (.obj [(js "refresh_token", .str refreshToken)])
  let tokens ← Net.lift (tokenResult b.pf auth (js "/auth/refresh"))
  return (tokens, o)

end VtiDidcomm.VtaRestAuth
