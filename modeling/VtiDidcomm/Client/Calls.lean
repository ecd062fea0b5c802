import VtiDidcomm.Client.Packed
import VtiDidcomm.Client.VtaDidcomm
import VtiDidcomm.Codec.Base58
import VtiDidcomm.Did.WebvhGuard

/-!
# What a connection exchanges

The runs of `connectVtaViaMediator` that return, exchange by exchange. A DID is resolved by GETs that
carry nothing. A POST carries the client's DID, to ask for a challenge, or a JWE, which opens for the
mediator as the answer to the challenge, authenticated as the client. The token that it gets goes
nowhere but into the subprotocol of the one WebSocket.

`runs_postRaw` and `isGet_of_resolve` are the rules for the two kinds of request; the runs of the
other calls are read with them too.
-/

namespace VtiDidcomm
open Js Effect

/-- A request and its answer. -/
abbrev Exchange := Request × Except JsError Response

/-- A POST that was answered with JSON, and with no redirect. -/
structure Posted (pf : Platform) (url body : JsString) (answer : Json) (x : Exchange) : Prop where
  request : x.1 = .fetch url (js "POST") (some body) (js "manual")
  answered : ∃ resp text, x.2 = .ok resp ∧ ¬ Webvh.IsRedirect x.2 ∧ resp.ok = true ∧
    resp.body = .ok text ∧ pf.parseJson text = .ok answer

/-- A GET that carries nothing. -/
def IsGet (q : Request) : Prop := ∃ url, q = Webvh.getRequest url

variable {pf : Platform} {who : JsString}

/-- A check sends nothing. -/
lemma runs_lift {α : Type} {r s : Except JsError α} {tr : List Exchange} :
    Prog.Runs (Net.lift r).run tr s ↔ tr = [] ∧ r = s := Iff.rfl

/-- What follows a check starts from its value. -/
lemma runs_lift_bind {α β : Type} {r : Except JsError α} {f : α → Net β} {tr : List Exchange} {b : β} :
    Prog.Runs (Net.lift r >>= f).run tr (.ok b) ↔ ∃ a, r = .ok a ∧ Prog.Runs (f a).run tr (.ok b) := by
  rw [Prog.runs_run_bind]
  constructor
  · rintro ⟨a, _, tr₂, rfl, ⟨rfl, ha⟩, h⟩
    exact ⟨a, ha, h⟩
  · rintro ⟨a, ha, h⟩
    exact ⟨a, [], tr, rfl, ⟨rfl, ha⟩, h⟩

/-- A return sends nothing. -/
lemma runs_return {α : Type} {a b : α} {tr : List Exchange} :
    Prog.Runs (pure a : Net α).run tr (.ok b) ↔ tr = [] ∧ a = b := by
  rw [Prog.run_pure, Prog.runs_pure, Except.ok.injEq]

/-- A request is sent and answered. -/
lemma runs_send {q : Request} {tr : List Exchange} {resp : Response} :
    Prog.Runs (send q).run tr (.ok resp) ↔ tr = [(q, .ok resp)] := Prog.runs_ask

/-- A guarded fetch that returns made its one request, which was not redirected. -/
lemma runs_netGuardedFetch {policy : EndpointPolicy} {input method : JsString}
    {body : Option JsString} {tr : List Exchange} {resp : Response}
    (h : Prog.Runs (netGuardedFetch pf policy input method body).run tr (.ok resp)) :
    tr = [(.fetch input method body (js "manual"), .ok resp)] ∧
      ¬ Webvh.IsRedirect (.ok resp) := by
  obtain ⟨parsed, -, hfetch⟩ := runs_lift_bind.mp h
  obtain ⟨resp', tr₁, tr₂, rfl, hsend, hrest⟩ := Prog.runs_run_bind.mp hfetch
  obtain rfl := runs_send.mp hsend
  split at hrest
  · cases hrest.2
  · rename_i hn
    obtain ⟨rfl, rfl⟩ := runs_return.mp hrest
    refine ⟨rfl, ?_⟩
    rintro ⟨_, ⟨⟩, hredirect⟩
    exact hn (by simpa using hredirect)

/-- A POST that returns. -/
lemma runs_postRaw {policy : EndpointPolicy} {fetch : GuardedFetch} {url body : JsString}
    {tr : List Exchange} {answer : Json} (hfetch : guardedFetch pf policy = .ok fetch)
    (h : Prog.Runs (postRaw pf who fetch url body).run tr (.ok answer)) :
    ∃ x, tr = [x] ∧ Posted pf url body answer x := by
  cases guardedFetch_eq_ok hfetch
  obtain ⟨resp, tr₁, tr₂, rfl, h₁, h₂⟩ := Prog.runs_run_bind.mp h
  obtain ⟨rfl, hparse⟩ := runs_lift.mp h₂
  obtain ⟨rfl, hredirect⟩ := runs_netGuardedFetch h₁
  obtain ⟨text, htext, hparse⟩ := bind_eq_ok.mp hparse
  refine ⟨_, rfl, rfl, resp, text, rfl, hredirect, ?_⟩
  split at hparse
  · rename_i hok
    split at hparse
    · rename_i j hj
      cases hparse
      exact ⟨hok, htext, hj⟩
    · cases hparse
  · cases hparse

variable {T : Type} [LinearOrder T] [Add T] [Zero T] {b : Resolver.Builtin} {C : Crypto}
  {number : List UInt8 → List UInt8}

/-- A resolution GETs logs and witness files. -/
lemma isGet_of_resolve {o : Resolver.Owned T} {times : Resolver.Times T} {did : JsString}
    {options : ResolveOptions} {tr : List Exchange}
    {r : Except JsError (Resolution × Resolver.Owned T)}
    (h : Prog.Runs (b.resolve o times did options).run tr r) : ∀ x ∈ tr, IsGet x.1 := by
  refine h.safe (φ := IsGet) (Resolver.safe_resolve.mpr fun _ w _ => ?_)
  exact Webvh.safe_resolve.mpr fun _ _ url _ => ⟨url, rfl⟩

/-! ## The handshake with a mediator -/

namespace MediatorAuth

/-- The message of an authentication is plain. -/
lemma plain_authMessage {draw : Draw} (hdraw : draw.Ready C number) (clientDid mediatorDid : JsString)
    {challenge sessionId : Json} (hchallenge : Json.Plain number challenge)
    (hsession : Json.Plain number sessionId) :
    Json.Plain number (authMessage draw clientDid mediatorDid challenge sessionId) := by
  have hto : Json.Plain number (.arr [.str mediatorDid]) := .arr (by simp [Json.Plain.str])
  have hbody : Json.Plain number (.obj [(js "challenge", challenge), (js "session_id", sessionId)]) :=
    .of_names [js "challenge", js "session_id"] rfl (by decide) (by simp [hchallenge, hsession])
  refine .of_names [js "id", js "typ", js "type", js "from", js "to", js "created_time",
    js "expires_time", js "body"] rfl (by decide) ?_
  simp [Json.Plain.str, Draw.id, typPlain, hto, hbody, hdraw.created, hdraw.expires]

/-- What a handshake exchanges: the client's DID for a challenge, and a JWE for the tokens. -/
structure Exchanges (pf : Platform) (C : Crypto) (args : Args) (draw : Draw) (auth : Auth)
    (challenge answer : Json) (frame : JsString) (x y : Exchange) : Prop where
  asked : Posted pf (auth.mediator.authEndpoint ++ js "/challenge")
    (Json.stringify (.obj [(js "did", .str args.clientDid)])) challenge x
  answered : Posted pf auth.mediator.authEndpoint frame answer y
  packed : ∃ c sessionId, challengeOf challenge = .ok (c, sessionId) ∧
    packTo C draw args.client (authMessage draw args.clientDid args.mediatorDid c sessionId)
      auth.mediator.key = .ok frame
  tokens : authOf answer auth.mediator = .ok auth

/-- The result of an authentication has the token that came. -/
lemma authOf_eq_ok {answer : Json} {mediator : Mediator} {auth : Auth}
    (h : authOf answer mediator = .ok auth) : auth.mediator = mediator ∧ ∃ token,
      auth.accessToken = some token ∧
      (answer.get (js "data")).bind (·.get (js "access_token")) = some token := by
  unfold authOf at h
  dsimp only at h
  split at h
  · rename_i htruthy
    cases h
    cases htoken : (answer.get (js "data")).bind (·.get (js "access_token")) with
    | none =>
      rw [htoken] at htruthy
      cases htruthy
    | some token => exact ⟨rfl, token, rfl, rfl⟩
  · cases h

/-- A handshake that returns. -/
lemma runs_handshake {args : Args} {draw : Draw} {mediator : Mediator} {tr : List Exchange}
    {auth : Auth} (h : Prog.Runs (handshake b C args draw mediator).run tr (.ok auth)) :
    ∃ challenge answer frame x y, tr = [x, y] ∧ auth.mediator = mediator ∧
      Exchanges b.pf C args draw auth challenge answer frame x y := by
  obtain ⟨fetch, hfetch, h⟩ := runs_lift_bind.mp h
  obtain ⟨challenge, tr₁, tr₂, rfl, hasked, hrest⟩ := Prog.runs_run_bind.mp h
  obtain ⟨⟨c, sessionId⟩, hc, hrest⟩ := runs_lift_bind.mp hrest
  obtain ⟨frame, hframe, hrest⟩ := runs_lift_bind.mp hrest
  obtain ⟨answer, tr₃, tr₄, rfl, hanswered, hreturn⟩ := Prog.runs_run_bind.mp hrest
  obtain ⟨rfl, hauth⟩ := runs_lift.mp hreturn
  obtain ⟨x, rfl, hx⟩ := runs_postRaw hfetch hasked
  obtain ⟨y, rfl, hy⟩ := runs_postRaw hfetch hanswered
  obtain ⟨rfl, -⟩ := authOf_eq_ok hauth
  exact ⟨challenge, answer, frame, x, y, rfl, rfl, hx, hy, ⟨c, sessionId, hc, hframe⟩, hauth⟩

/-- The mediator is resolved by GETs. -/
lemma isGet_of_resolveMediator {o o' : Resolver.Owned T} {times : Resolver.Times T}
    {mediatorDid : JsString} {policy : NetPolicy} {mediator : Mediator} {tr : List Exchange}
    (h : Prog.Runs (resolveMediator b o times mediatorDid policy).run tr (.ok (mediator, o'))) :
    ∀ x ∈ tr, IsGet x.1 := by
  obtain ⟨⟨resolution, o₁⟩, tr₁, tr₂, rfl, hresolve, hrest⟩ := Prog.runs_run_bind.mp h
  obtain ⟨didDocument, -, hrest⟩ := runs_lift_bind.mp hrest
  obtain ⟨_, -, hrest⟩ := runs_lift_bind.mp hrest
  obtain ⟨rfl, -⟩ := runs_return.mp hrest
  rw [List.append_nil]
  exact isGet_of_resolve hresolve

/-- A mediator authentication that returns: a resolution, and then the handshake. -/
lemma runs_authenticateToMediator {o o' : Resolver.Owned T} {times : Resolver.Times T} {args : Args}
    {draw : Draw} {tr : List Exchange} {auth : Auth}
    (h : Prog.Runs (authenticateToMediator b C o times args draw).run tr (.ok (auth, o'))) :
    ∃ resolutions challenge answer frame x y, tr = resolutions ++ [x, y] ∧
      (∀ r ∈ resolutions, IsGet r.1) ∧
      Exchanges b.pf C args draw auth challenge answer frame x y := by
  obtain ⟨⟨⟩, -, hcall⟩ := runs_lift_bind.mp h
  obtain ⟨⟨mediator, o₁⟩, tr₁, tr₂, rfl, hmediator, hrest⟩ := Prog.runs_run_bind.mp hcall
  obtain ⟨auth', tr₃, tr₄, rfl, hhandshake, hreturn⟩ := Prog.runs_run_bind.mp hrest
  obtain ⟨rfl, heq⟩ := runs_return.mp hreturn
  cases heq
  obtain ⟨challenge, answer, frame, x, y, rfl, -, hex⟩ := runs_handshake hhandshake
  exact ⟨tr₁, challenge, answer, frame, x, y, rfl, isGet_of_resolveMediator hmediator, hex⟩

end MediatorAuth

/-! ## A sample mediator -/

/-- The key-agreement key of the sample document. -/
def sampleMethod : Json :=
  .obj [(js "id", .str (js "did:ex:bob#1")), (js "publicKeyMultibase",
    .str (Multibase.encodeMultikey Multibase.x25519Pub (List.replicate 32 7)))]

/-- The document of a sample mediator, which is a VTA too. -/
def sampleDocument : Json :=
  .obj [(js "keyAgreement", .arr [sampleMethod]),
    (js "service", .arr [.obj [(js "type", .str (js "DIDCommMessaging")),
      (js "serviceEndpoint", .arr [.str (js "https://mediator.example"),
        .str (js "wss://mediator.example/ws")])]])]

/-- A resolver that knows the sample mediator. -/
def Resolver.Builtin.sample : Resolver.Builtin where
  pf := Platform.json
  verify _ _ := .error (error (js "the log does not verify"))
  didKey _ := .ok ⟨some sampleDocument, none, none⟩
  didPeer _ := .error (error (js "not a did:peer"))
  limit := 500

/-- The first key of the sample document. -/
lemma sampleDocument_extract (x : Extractor) (did : JsString) :
    x.extract sampleDocument did = .ok (.sample 7) := by
  have hvarint : Multibase.IsVarint Multibase.x25519Pub :=
    ⟨[0xec], 0x01, rfl, List.forall_mem_singleton.mpr (by decide), by decide⟩
  have hka : sampleDocument.get (js "keyAgreement") = some (.arr [sampleMethod]) := rfl
  simp only [Extractor.extract, hka]
  refine bind_eq_ok.mpr ⟨(), rfl, bind_eq_ok.mpr ⟨some sampleMethod, rfl, ?_⟩⟩
  refine bind_eq_ok.mpr ⟨_, rfl, bind_eq_ok.mpr ⟨(), rfl, ?_⟩⟩
  exact bind_eq_ok.mpr ⟨_, Multibase.decodeMultikey_encodeMultikey hvarint (List.replicate 32 7), rfl⟩

/-- The DID of the sample mediator resolves, with no request. -/
lemma resolve_sample (o : Resolver.Owned Int) (times : Resolver.Times Int) (options : ResolveOptions) :
    ∃ o', Resolver.Builtin.sample.resolve o times (js "did:key:vta") options =
      pure (⟨some sampleDocument, none, none⟩, o') :=
  Resolver.resolve_didKey o times options rfl

/-- The sample resolver finds the sample document. -/
lemma resolve_sample_document (o : Resolver.Owned Int) (times : Resolver.Times Int)
    (options : ResolveOptions) {α : Type} (document : Resolution → Except JsError Json)
    (read : Json → Except JsError α) {a : α}
    (hdocument : document ⟨some sampleDocument, none, none⟩ = .ok sampleDocument)
    (hread : read sampleDocument = .ok a) : ∃ o', (do
      let (resolution, o) ← Resolver.Builtin.sample.resolve o times (js "did:key:vta") options
      let didDocument ← Net.lift (document resolution)
      let a ← Net.lift (read didDocument)
      return (a, o) : Net (α × Resolver.Owned Int)) = pure (a, o') := by
  obtain ⟨o', ho'⟩ := resolve_sample o times options
  refine ⟨o', ?_⟩
  rw [ho']
  show (Net.lift (document _) >>= fun didDocument => Net.lift (read didDocument) >>= _) = _
  rw [hdocument]
  show (Net.lift (read sampleDocument) >>= _) = _
  rw [hread]
  rfl

/-- A POST to an admitted URL that is answered. -/
lemma runs_posted {policy : EndpointPolicy} {url body : JsString} {answer : Json} {u : Url}
    (hsafe : assertSafeEndpoint Platform.json url policy = .ok u)
    (hanswer : Json.Plain id answer) :
    Prog.Runs (postRaw Platform.json who (netGuardedFetch Platform.json policy) url body).run
      [(.fetch url (js "POST") (some body) (js "manual"),
        .ok ⟨200, false, .ok (Json.stringify answer)⟩)] (.ok answer) := by
  have hparse : Platform.json.parseJson (Json.stringify answer) = .ok answer :=
    parses_of_plain Platform.json_readsJson hanswer
  refine Prog.runs_run_bind.mpr ⟨⟨200, false, .ok (Json.stringify answer)⟩, _, [],
    (List.append_nil _).symm, ?_, ?_⟩
  · refine runs_lift_bind.mpr ⟨u, hsafe, Prog.runs_run_bind.mpr ?_⟩
    exact ⟨_, _, [], (List.append_nil _).symm, runs_send.mpr rfl, runs_return.mpr ⟨rfl, rfl⟩⟩
  · refine runs_lift.mpr ⟨rfl, ?_⟩
    simp only [parseResponse, ok_bind, Response.ok, hparse]
    rfl

/-! ## A connection to a mediator -/

namespace VtaDidcomm

/-- The live-delivery message is plain. -/
lemma plain_liveDeliveryChange {draw : Draw} (hdraw : draw.Ready C number)
    (from' mediatorDid : JsString) (live : Bool) :
    Json.Plain number (buildLiveDeliveryChange draw from' mediatorDid live) := by
  have hto : Json.Plain number (.arr [.str mediatorDid]) := .arr (by simp [Json.Plain.str])
  have hbody : Json.Plain number (.obj [(js "live_delivery", .bool live)]) :=
    .of_names [js "live_delivery"] rfl (by decide) (by simp [Json.Plain.bool])
  refine .of_names [js "id", js "typ", js "type", js "from", js "to", js "created_time",
    js "expires_time", js "return_route", js "body"] rfl (by decide) ?_
  simp [Json.Plain.str, Draw.id, typPlain, hto, hbody, hdraw.created, hdraw.expires]

/-- A session that opens makes one request: the WebSocket. -/
lemma runs_openSession {args : Args} {draw : Draw} {vta : AgreementKey} {auth : MediatorAuth.Auth}
    {tr : List Exchange} {connected : Connected}
    (h : Prog.Runs (openSession b C args draw vta auth).run tr (.ok connected)) :
    ∃ endpoint answer, tr = [(.webSocket endpoint (subprotocols auth.accessToken), answer)] ∧
      auth.mediator.wsEndpoint = some endpoint ∧ connected.mediator = auth.mediator ∧
      packTo C draw args.client (buildLiveDeliveryChange draw args.clientDid auth.mediator.did true)
        auth.mediator.key = .ok connected.sent := by
  obtain ⟨vtaJwk, -, hrest⟩ := runs_lift_bind.mp h
  obtain ⟨endpoint, hendpoint, hrest⟩ := runs_lift_bind.mp hrest
  obtain ⟨mediatorJwk, -, hrest⟩ := runs_lift_bind.mp hrest
  obtain ⟨⟨⟩, tr₁, tr₂, rfl, hopen, hpack⟩ := Prog.runs_run_bind.mp hrest
  obtain ⟨_, -, hopen⟩ := runs_lift_bind.mp hopen
  obtain ⟨resp, tr₃, tr₄, rfl, hsend, hreturn⟩ := Prog.runs_run_bind.mp hopen
  obtain rfl := runs_send.mp hsend
  obtain ⟨rfl, -⟩ := runs_return.mp hreturn
  obtain ⟨packed, hpacked, hreturn⟩ := runs_lift_bind.mp hpack
  obtain ⟨rfl, rfl⟩ := runs_return.mp hreturn
  refine ⟨endpoint, .ok resp, rfl, ?_, rfl, hpacked⟩
  unfold sessionEndpoint at hendpoint
  split at hendpoint
  · cases hendpoint
  · cases hendpoint
  · rename_i hws
    obtain ⟨_, -, hpure⟩ := bind_eq_ok.mp hendpoint
    cases hpure
    exact hws

/-- A key is resolved by GETs. -/
lemma isGet_of_resolveX25519KeyAgreement {o o' : Resolver.Owned T} {times : Resolver.Times T}
    {did : JsString} {netPolicy : Option NetPolicy} {key : AgreementKey} {tr : List Exchange}
    (h : Prog.Runs (resolveX25519KeyAgreement b o times did netPolicy).run tr (.ok (key, o'))) :
    ∀ x ∈ tr, IsGet x.1 := by
  obtain ⟨⟨resolution, o₁⟩, tr₁, tr₂, rfl, hresolve, hrest⟩ := Prog.runs_run_bind.mp h
  obtain ⟨didDocument, -, hrest⟩ := runs_lift_bind.mp hrest
  obtain ⟨_, -, hrest⟩ := runs_lift_bind.mp hrest
  obtain ⟨rfl, -⟩ := runs_return.mp hrest
  rw [List.append_nil]
  exact isGet_of_resolve hresolve

/-- A connection that is made: the two DIDs are resolved by GETs, the client's DID gets a challenge,
and a JWE gets the tokens; the access token goes into the subprotocol of the WebSocket and nowhere
else. To the mediator the JWE opens as the answer to that challenge, and the first frame of the
session as the request for live delivery, both authenticated as the client. -/
theorem connection_exchanges (hP : b.pf.ReadsJson number) (hC : C.Lawful) {o o' : Resolver.Owned T}
    {times : ConnectTimes T} {args : Args} {draws : ConnectDraws} {tr : List Exchange}
    {connected : Connected}
    (run : Prog.Runs (connectVtaViaMediator b C o times args draws).run tr (.ok (connected, o')))
    {client mediator : KeyPair C .x25519} (hclient : args.client.Holds client)
    (hmediator : connected.mediator.key.IsOf mediator) (hauth : draws.auth.Ready C number)
    (hchange : draws.change.Ready C number) :
    ∃ resolutions x y z challenge answer frame c sessionId token endpoint reply,
      tr = resolutions ++ [x, y, z] ∧ (∀ r ∈ resolutions, IsGet r.1) ∧
      Posted b.pf (connected.mediator.authEndpoint ++ js "/challenge")
        (Json.stringify (.obj [(js "did", .str args.clientDid)])) challenge x ∧
      Posted b.pf connected.mediator.authEndpoint frame answer y ∧
      z = (.webSocket endpoint (subprotocols (some token)), reply) ∧
      MediatorAuth.challengeOf challenge = .ok (c, sessionId) ∧
      (answer.get (js "data")).bind (·.get (js "access_token")) = some token ∧
      connected.mediator.wsEndpoint = some endpoint ∧
      (Json.Plain number c → Json.Plain number sessionId →
        unpack b.pf C frame ⟨connected.mediator.key.kidText, some mediator.privateJwk⟩
          (some client.publicJwk) = .ok (openedFrom args.client
            (MediatorAuth.authMessage draws.auth args.clientDid args.mediatorDid c sessionId))) ∧
      unpack b.pf C connected.sent ⟨connected.mediator.key.kidText, some mediator.privateJwk⟩
        (some client.publicJwk) = .ok (openedFrom args.client
          (buildLiveDeliveryChange draws.change args.clientDid connected.mediator.did true)) := by
  obtain ⟨⟨vta, o₁⟩, tr₁, tr₂, rfl, hvta, hrest⟩ := Prog.runs_run_bind.mp run
  obtain ⟨⟨auth, o₂⟩, tr₃, tr₄, rfl, hrun, hrest₂⟩ := Prog.runs_run_bind.mp hrest
  obtain ⟨connected', tr₅, tr₆, rfl, hopen, hreturn⟩ := Prog.runs_run_bind.mp hrest₂
  obtain ⟨rfl, heq⟩ := runs_return.mp hreturn
  cases heq
  obtain ⟨resolutions, challenge, answer, frame, x, y, rfl, hget, hex⟩ :=
    MediatorAuth.runs_authenticateToMediator hrun
  obtain ⟨endpoint, reply, rfl, hendpoint, hmediatorEq, hsent⟩ := runs_openSession hopen
  obtain ⟨c, sessionId, hc, hframe⟩ := hex.packed
  obtain ⟨-, token, htoken, haccess⟩ := MediatorAuth.authOf_eq_ok hex.tokens
  rw [hmediatorEq] at hmediator ⊢
  refine ⟨tr₁ ++ resolutions, x, y, _, challenge, answer, frame, c, sessionId, token, endpoint, reply,
    ?_, ?_, hex.asked, hex.answered, rfl, hc, haccess, hendpoint, fun hplain hplainSession => ?_, ?_⟩
  · simp [htoken]
  · intro r hr
    obtain hr | hr := List.mem_append.mp hr
    · exact isGet_of_resolveX25519KeyAgreement hvta r hr
    · exact hget r hr
  · exact opens_of_packTo hP hC hauth.fresh hclient hmediator rfl
      (MediatorAuth.plain_authMessage hauth args.clientDid args.mediatorDid hplain hplainSession) hframe
  · exact opens_of_packTo hP hC hchange.fresh hclient hmediator rfl
      (plain_liveDeliveryChange hchange args.clientDid auth.mediator.did true) hsent

/-- The arguments of a sample connection. -/
def Args.sample : Args where
  vtaDid := js "did:key:vta"
  mediatorDid := js "did:key:vta"
  clientDid := js "did:ex:alice"
  clientX25519Private := List.replicate 32 5
  clientX25519Public := List.replicate 32 5
  clientKid := some (js "did:ex:alice#1")

/-- The mediator that the sample document describes. -/
def sampleMediator : MediatorAuth.Mediator where
  did := js "did:key:vta"
  restEndpoint := js "https://mediator.example"
  wsEndpoint := some (js "wss://mediator.example/ws")
  authEndpoint := js "https://mediator.example/authenticate"
  key := .sample 7

/-- The sample document has a mediator's endpoints. -/
lemma parseMediatorEndpoints_sample : MediatorAuth.parseMediatorEndpoints Platform.json
    (some sampleDocument) (js "did:key:vta") {} = .ok sampleMediator := by
  refine bind_eq_ok.mpr ⟨sampleDocument, rfl, ?_⟩
  refine bind_eq_ok.mpr ⟨(), rfl, bind_eq_ok.mpr ⟨(), rfl, ?_⟩⟩
  exact bind_eq_ok.mpr ⟨_, sampleDocument_extract _ _, rfl⟩

/-- What the sample mediator answers: a challenge, and then the tokens. -/
def sampleChallenge : Json :=
  .obj [(js "data", .obj [(js "challenge", .str (js "c")), (js "session_id", .str (js "s"))])]

def sampleTokens : Json := .obj [(js "data", .obj [(js "access_token", .str (js "t"))])]

lemma plain_sampleChallenge : Json.Plain id sampleChallenge := by
  have hdata : Json.Plain id
      (.obj [(js "challenge", .str (js "c")), (js "session_id", .str (js "s"))]) :=
    .of_names [js "challenge", js "session_id"] rfl (by decide) (by simp [Json.Plain.str])
  exact .of_names [js "data"] rfl (by decide) (by simp [hdata])

lemma plain_sampleTokens : Json.Plain id sampleTokens := by
  have hdata : Json.Plain id (.obj [(js "access_token", .str (js "t"))]) :=
    .of_names [js "access_token"] rfl (by decide) (by simp [Json.Plain.str])
  exact .of_names [js "data"] rfl (by decide) (by simp [hdata])

/-- A sample handshake. -/
lemma runs_handshake_sample : ∃ tr auth,
    Prog.Runs (MediatorAuth.handshake .sample Crypto.sample Args.sample.auth .sample
      sampleMediator).run tr (.ok auth) ∧ auth.mediator = sampleMediator := by
  obtain ⟨jwe, -, -, hpack, -⟩ := packTo_opens Platform.json_readsJson Crypto.sample_lawful
    ready_sample.fresh (Client.sample_holds 5) (AgreementKey.sample_isOf 7) rfl
    (MediatorAuth.plain_authMessage ready_sample (js "did:ex:alice") (js "did:key:vta")
      (.str (js "c")) (.str (js "s")))
  have hauth : MediatorAuth.authOf sampleTokens sampleMediator = .ok _ := rfl
  refine ⟨_, _, runs_lift_bind.mpr ⟨_, rfl, Prog.runs_run_bind.mpr ⟨sampleChallenge, _, _, rfl,
    runs_posted rfl plain_sampleChallenge, runs_lift_bind.mpr ⟨(.str (js "c"), .str (js "s")), rfl,
    runs_lift_bind.mpr ⟨_, hpack, Prog.runs_run_bind.mpr ⟨sampleTokens, _, _, rfl,
      runs_posted rfl plain_sampleTokens, runs_lift.mpr ⟨rfl, hauth⟩⟩⟩⟩⟩⟩, rfl⟩

/-- A sample session opens. -/
lemma runs_openSession_sample {auth : MediatorAuth.Auth} (h : auth.mediator = sampleMediator) :
    ∃ tr connected, Prog.Runs (openSession .sample Crypto.sample Args.sample .sample (.sample 7)
      auth).run tr (.ok connected) ∧ connected.mediator = sampleMediator := by
  obtain ⟨accessToken, accessExpiresAt, refreshToken, refreshExpiresAt, sessionId, mediator⟩ := auth
  obtain rfl : mediator = sampleMediator := h
  obtain ⟨jwe, -, -, hpack, -⟩ := packTo_opens Platform.json_readsJson Crypto.sample_lawful
    ready_sample.fresh (Client.sample_holds 5) (AgreementKey.sample_isOf 7) rfl
    (plain_liveDeliveryChange ready_sample (js "did:ex:alice") (js "did:key:vta") true)
  have hjwk : Jwk.publicJwk (js "X25519") (AgreementKey.sample 7).x25519Pub none = .ok _ := rfl
  have hopened : Prog.Runs (openSocket Platform.json (js "wss://mediator.example/ws") accessToken
      {}).run [(_, .ok ⟨101, false, .ok []⟩)] (.ok ()) :=
    runs_lift_bind.mpr ⟨_, rfl, Prog.runs_run_bind.mpr ⟨_, _, [], (List.append_nil _).symm,
      runs_send.mpr rfl, rfl, rfl⟩⟩
  exact ⟨_, _, runs_lift_bind.mpr ⟨_, hjwk, runs_lift_bind.mpr ⟨_, rfl, runs_lift_bind.mpr ⟨_, hjwk,
    Prog.runs_run_bind.mpr ⟨(), _, [], rfl, hopened, runs_lift_bind.mpr ⟨_, hpack,
      runs_return.mpr ⟨rfl, rfl⟩⟩⟩⟩⟩⟩, rfl⟩

/-- A sample connection. -/
theorem connection_exchanges_example :
    ∃ (o o' : Resolver.Owned Int) (tr : List Exchange) (connected : Connected),
      Prog.Runs (connectVtaViaMediator .sample Crypto.sample o ⟨⟨0, 0⟩, ⟨0, 0⟩⟩ Args.sample
        ⟨.sample, .sample⟩).run tr (.ok (connected, o')) ∧
      ∃ message, unpack Platform.json Crypto.sample connected.sent
        ⟨js "did:ex:bob#1", some (KeyPair.sample 7).privateJwk⟩ (some (KeyPair.sample 5).publicJwk) =
          .ok (openedFrom (.sample 5) message) := by
  let o : Resolver.Owned Int := ⟨Resolver.init 1 0, ⟨1, .empty, by decide, by decide⟩⟩
  obtain ⟨o₁, hvta⟩ : ∃ o₁, resolveX25519KeyAgreement .sample o ⟨0, 0⟩ (js "did:key:vta") none =
      pure (.sample 7, o₁) :=
    resolve_sample_document o ⟨0, 0⟩ { netPolicy := none }
      (fun r => documentOf r.didDocument
        (who ++ js ": could not resolve a DID document for " ++ js "did:key:vta"))
      (x25519KeyAgreement · (js "did:key:vta")) rfl (sampleDocument_extract _ _)
  obtain ⟨o₂, hmediator⟩ : ∃ o₂, MediatorAuth.resolveMediator .sample o₁ ⟨0, 0⟩ (js "did:key:vta") {} =
      pure (sampleMediator, o₂) :=
    resolve_sample_document o₁ ⟨0, 0⟩ {}
      (fun r => documentOf r.didDocument
        (MediatorAuth.who ++ js ": could not resolve mediator DID " ++ js "did:key:vta"))
      (fun d => MediatorAuth.parseMediatorEndpoints Platform.json (some d) (js "did:key:vta") {}) rfl
      parseMediatorEndpoints_sample
  obtain ⟨tr, auth, hhandshake, hauth⟩ := runs_handshake_sample
  obtain ⟨tr', connected, hsession, hconnected⟩ := runs_openSession_sample hauth
  have hauthenticate : Prog.Runs (MediatorAuth.authenticateToMediator .sample Crypto.sample o₁ ⟨0, 0⟩
      Args.sample.auth .sample).run tr (.ok (auth, o₂)) := by
    refine runs_lift_bind.mpr ⟨(), rfl, ?_⟩
    refine Prog.runs_run_bind.mpr ⟨(sampleMediator, o₂), [], tr, rfl, ?_, ?_⟩
    · exact hmediator ▸ runs_return.mpr ⟨rfl, rfl⟩
    · exact Prog.runs_run_bind.mpr ⟨auth, tr, [], (List.append_nil tr).symm, hhandshake,
        runs_return.mpr ⟨rfl, rfl⟩⟩
  have run : Prog.Runs (connectVtaViaMediator .sample Crypto.sample o ⟨⟨0, 0⟩, ⟨0, 0⟩⟩ Args.sample
      ⟨.sample, .sample⟩).run (tr ++ tr') (.ok (connected, o₂)) := by
    refine Prog.runs_run_bind.mpr ⟨(.sample 7, o₁), [], tr ++ tr', rfl, ?_, ?_⟩
    · exact hvta ▸ runs_return.mpr ⟨rfl, rfl⟩
    · refine Prog.runs_run_bind.mpr ⟨(auth, o₂), tr, tr', rfl, hauthenticate, ?_⟩
      exact Prog.runs_run_bind.mpr ⟨connected, tr', [], (List.append_nil tr').symm, hsession,
        runs_return.mpr ⟨rfl, rfl⟩⟩
  have hkey : connected.mediator.key.IsOf (KeyPair.sample 7) := hconnected ▸ AgreementKey.sample_isOf 7
  obtain ⟨_, _, _, _, _, _, _, _, _, _, _, _, -, -, -, -, -, -, -, -, -, hopens⟩ :=
    connection_exchanges Platform.json_readsJson Crypto.sample_lawful run
      (Client.sample_holds 5 : Args.sample.client.Holds _) hkey ready_sample ready_sample
  exact ⟨o, o₂, tr ++ tr', connected, run, _, hconnected ▸ hopens⟩

end VtaDidcomm

end VtiDidcomm
