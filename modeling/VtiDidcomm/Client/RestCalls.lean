import VtiDidcomm.Client.Calls
import VtiDidcomm.Client.VtaRestAuth

/-!
# What the REST client exchanges

The runs of `authenticate` and `refresh` that return, exchange by exchange. What is posted in the
clear is the client's DID; the challenge and the refresh token go in a JWE that opens for the VTA whose
key was resolved, authenticated as the client.
-/

namespace VtiDidcomm.VtaRestAuth
open Js Effect

variable {T : Type} [LinearOrder T] [Add T] [Zero T] {b : Resolver.Builtin} {C : Crypto}
  {number : List UInt8 → List UInt8}

/-- A message of a context is plain. -/
lemma plain_messageOf (ctx : Context) (draw : Draw) (type : JsString) {body : Json}
    (h : Json.Plain number body) : Json.Plain number (messageOf ctx draw type body) := by
  have hto : Json.Plain number (.arr [.str ctx.vtaDid]) := .arr (by simp [Json.Plain.str])
  refine .of_names [js "id", js "typ", js "type", js "from", js "to", js "body"] rfl (by decide) ?_
  simp [Json.Plain.str, Draw.id, typPlain, hto, h]

/-- A context is made of the arguments, and guarded. -/
lemma context_of_args {args : Args} {ctx : Context} (h : buildContext b.pf args = .ok ctx) :
    ctx.baseUrl = args.baseUrl ∧ ctx.vtaDid = args.vtaDid ∧ ctx.client = args.client ∧
      guardedFetch b.pf (restPolicy args.policy) = .ok ctx.fetchFn := by
  unfold buildContext at h
  obtain ⟨_, -, h⟩ := bind_eq_ok.mp h
  obtain ⟨_, -, h⟩ := bind_eq_ok.mp h
  obtain ⟨_, -, h⟩ := bind_eq_ok.mp h
  obtain ⟨_, -, h⟩ := bind_eq_ok.mp h
  obtain ⟨_, -, h⟩ := bind_eq_ok.mp h
  obtain ⟨_, -, h⟩ := bind_eq_ok.mp h
  obtain ⟨fetchFn, hfetch, h⟩ := bind_eq_ok.mp h
  cases h
  exact ⟨rfl, rfl, rfl, hfetch⟩

/-- A packed post that returns: the VTA's key is resolved by GETs, and a JWE for it is posted. -/
structure PacksAndPosts (b : Resolver.Builtin) (C : Crypto) (o : Resolver.Owned T)
    (times : Resolver.Times T) (ctx : Context) (draw : Draw) (path type : JsString) (body : Json)
    (resolutions : List Exchange) (y : Exchange) (recipient : AgreementKey) (frame : JsString)
    (answer : Json) : Prop where
  resolved : ∃ o', Prog.Runs (resolveVtaRecipient b o times ctx.vtaDid).run resolutions
    (.ok (recipient, o'))
  gets : ∀ r ∈ resolutions, IsGet r.1
  packed : packTo C draw ctx.client (messageOf ctx draw type body) recipient = .ok frame
  posted : Posted b.pf (joinUrl ctx.baseUrl path) frame answer y

/-- The VTA is resolved by GETs. -/
lemma isGet_of_resolveVtaRecipient {o o' : Resolver.Owned T} {times : Resolver.Times T}
    {vtaDid : JsString} {recipient : AgreementKey} {tr : List Exchange}
    (h : Prog.Runs (resolveVtaRecipient b o times vtaDid).run tr (.ok (recipient, o'))) :
    ∀ x ∈ tr, IsGet x.1 := by
  obtain ⟨⟨resolution, o₁⟩, tr₁, tr₂, rfl, hresolve, hrest⟩ := Prog.runs_run_bind.mp h
  obtain ⟨didDocument, -, hrest⟩ := runs_lift_bind.mp hrest
  obtain ⟨_, -, hrest⟩ := runs_lift_bind.mp hrest
  obtain ⟨rfl, -⟩ := runs_return.mp hrest
  rw [List.append_nil]
  exact isGet_of_resolve hresolve

/-- A packed post is its resolutions and one post. -/
lemma runs_packAndPost {o o' : Resolver.Owned T} {times : Resolver.Times T} {ctx : Context}
    {policy : EndpointPolicy} {draw : Draw} {path type : JsString} {body answer : Json}
    {tr : List Exchange} (hfetch : guardedFetch b.pf policy = .ok ctx.fetchFn)
    (h : Prog.Runs (packAndPost b C o times ctx draw path type body).run tr (.ok (answer, o'))) :
    ∃ resolutions y recipient frame, tr = resolutions ++ [y] ∧
      PacksAndPosts b C o times ctx draw path type body resolutions y recipient frame answer := by
  obtain ⟨⟨recipient, o₁⟩, tr₁, tr₂, rfl, hresolve, hrest⟩ := Prog.runs_run_bind.mp h
  obtain ⟨frame, hframe, hrest⟩ := runs_lift_bind.mp hrest
  obtain ⟨answer', tr₃, tr₄, rfl, hpost, hreturn⟩ := Prog.runs_run_bind.mp hrest
  obtain ⟨rfl, heq⟩ := runs_return.mp hreturn
  cases heq
  obtain ⟨y, rfl, hy⟩ := runs_postRaw hfetch hpost
  exact ⟨tr₁, y, recipient, frame, rfl, ⟨_, hresolve⟩, isGet_of_resolveVtaRecipient hresolve, hframe,
    hy⟩

/-- What was posted opens for whoever has the VTA's private key, authenticated as the client. -/
lemma PacksAndPosts.opens {o : Resolver.Owned T} {times : Resolver.Times T} {args : Args}
    {ctx : Context} {draw : Draw} {path type : JsString} {body answer : Json}
    {resolutions : List Exchange} {y : Exchange} {recipient : AgreementKey} {frame : JsString}
    (h : PacksAndPosts b C o times ctx draw path type body resolutions y recipient frame answer)
    (hP : b.pf.ReadsJson number) (hC : C.Lawful) (hctx : ctx.client = args.client)
    {client vta : KeyPair C .x25519} (hclient : args.client.Holds client) (hvta : recipient.IsOf vta)
    (hdraw : draw.entropy.Fresh C .x25519) (hbody : Json.Plain number body) :
    unpack b.pf C frame ⟨recipient.kidText, some vta.privateJwk⟩ (some client.publicJwk) =
      .ok (openedFrom args.client (messageOf ctx draw type body)) := by
  have hpacked := h.packed
  rw [← hctx] at hclient ⊢
  exact opens_of_packTo hP hC hdraw hclient hvta rfl (plain_messageOf ctx draw type hbody) hpacked

/-- An authentication and a refresh that return. An authentication asks for a challenge with the
client's DID, resolves the VTA's by GETs, and posts the challenge in a JWE. A refresh resolves the
VTA's DID and posts the refresh token in a JWE. To the VTA whose key was resolved the JWE opens,
authenticated as the client; the tokens are what the VTA answered. -/
theorem rest_exchanges (hP : b.pf.ReadsJson number) (hC : C.Lawful) {o : Resolver.Owned T}
    {times : Resolver.Times T} {args : Args} {draw : Draw} {client : KeyPair C .x25519}
    (hclient : args.client.Holds client) (hdraw : draw.entropy.Fresh C .x25519) :
    (∀ o' tr tokens, Prog.Runs (authenticate b C o times args draw).run tr (.ok (tokens, o')) →
      ∃ ctx x resolutions y challenge answer c sessionId recipient frame,
        tr = x :: resolutions ++ [y] ∧ buildContext b.pf args = .ok ctx ∧
        Posted b.pf (joinUrl args.baseUrl (js "/auth/challenge"))
          (Json.stringify (.obj [(js "did", .str args.clientDid)])) challenge x ∧
        challengeOf challenge = .ok (c, sessionId) ∧
        PacksAndPosts b C o times ctx draw (js "/auth/") authMessageType
          (.obj [(js "challenge", c), (js "session_id", sessionId)]) resolutions y recipient frame
          answer ∧
        tokenResult b.pf answer (js "/auth/") = .ok tokens ∧
        (Json.Plain number c → Json.Plain number sessionId → ∀ vta : KeyPair C .x25519,
          recipient.IsOf vta →
          unpack b.pf C frame ⟨recipient.kidText, some vta.privateJwk⟩ (some client.publicJwk) =
            .ok (openedFrom args.client (messageOf ctx draw authMessageType
              (.obj [(js "challenge", c), (js "session_id", sessionId)]))))) ∧
    (∀ refreshToken o' tr tokens,
      Prog.Runs (refresh b C o times args refreshToken draw).run tr (.ok (tokens, o')) →
      ∃ ctx resolutions y answer recipient frame,
        tr = resolutions ++ [y] ∧ buildContext b.pf args = .ok ctx ∧
        PacksAndPosts b C o times ctx draw (js "/auth/refresh") refreshMessageType
          (.obj [(js "refresh_token", .str refreshToken)]) resolutions y recipient frame answer ∧
        tokenResult b.pf answer (js "/auth/refresh") = .ok tokens ∧
        ∀ vta : KeyPair C .x25519, recipient.IsOf vta →
          unpack b.pf C frame ⟨recipient.kidText, some vta.privateJwk⟩ (some client.publicJwk) =
            .ok (openedFrom args.client (messageOf ctx draw refreshMessageType
              (.obj [(js "refresh_token", .str refreshToken)])))) := by
  refine ⟨fun o' tr tokens run => ?_, fun refreshToken o' tr tokens run => ?_⟩
  · obtain ⟨⟨⟩, -, hcall⟩ := runs_lift_bind.mp run
    obtain ⟨ctx, hctx, hcall⟩ := runs_lift_bind.mp hcall
    obtain ⟨hbase, -, hctxClient, hfetch⟩ := context_of_args hctx
    obtain ⟨⟨c, sessionId⟩, tr₁, tr₂, rfl, hchallenge, hrest⟩ := Prog.runs_run_bind.mp hcall
    obtain ⟨challenge, tr₃, tr₄, rfl, hasked, hlift⟩ := Prog.runs_run_bind.mp hchallenge
    obtain ⟨rfl, hc⟩ := runs_lift.mp hlift
    obtain ⟨⟨answer, o₁⟩, tr₅, tr₆, rfl, hpost, hreturn⟩ := Prog.runs_run_bind.mp hrest
    obtain ⟨tokens', htokens, hreturn⟩ := runs_lift_bind.mp hreturn
    obtain ⟨rfl, heq⟩ := runs_return.mp hreturn
    cases heq
    obtain ⟨x, rfl, hx⟩ := runs_postRaw hfetch hasked
    obtain ⟨resolutions, y, recipient, frame, rfl, hposts⟩ := runs_packAndPost hfetch hpost
    rw [hbase, hctxClient] at hx
    refine ⟨ctx, x, resolutions, y, challenge, answer, c, sessionId, recipient, frame, by simp, hctx, hx,
      hc, hposts, htokens, fun hplain hplainSession vta hvta => ?_⟩
    have hbody : Json.Plain number (.obj [(js "challenge", c), (js "session_id", sessionId)]) :=
      .of_names [js "challenge", js "session_id"] rfl (by decide) (by simp [hplain, hplainSession])
    exact hposts.opens hP hC hctxClient hclient hvta hdraw hbody
  · obtain ⟨⟨⟩, -, hcall⟩ := runs_lift_bind.mp run
    obtain ⟨ctx, hctx, hcall⟩ := runs_lift_bind.mp hcall
    obtain ⟨-, -, hctxClient, hfetch⟩ := context_of_args hctx
    obtain ⟨⟨answer, o₁⟩, tr₁, tr₂, rfl, hpost, hreturn⟩ := Prog.runs_run_bind.mp hcall
    obtain ⟨tokens', htokens, hreturn⟩ := runs_lift_bind.mp hreturn
    obtain ⟨rfl, heq⟩ := runs_return.mp hreturn
    cases heq
    obtain ⟨resolutions, y, recipient, frame, rfl, hposts⟩ := runs_packAndPost hfetch hpost
    refine ⟨ctx, resolutions, y, answer, recipient, frame, by simp, hctx, hposts, htokens,
      fun vta hvta => ?_⟩
    have hbody : Json.Plain number (.obj [(js "refresh_token", .str refreshToken)]) :=
      .of_names [js "refresh_token"] rfl (by decide) (by simp [Json.Plain.str])
    exact hposts.opens hP hC hctxClient hclient hvta hdraw hbody

/-- The arguments of a sample client. -/
def Args.sample : Args where
  baseUrl := js "https://vta.example"
  vtaDid := js "did:key:vta"
  clientDid := js "did:ex:alice"
  clientX25519Private := List.replicate 32 5
  clientX25519Public := List.replicate 32 5
  clientKid := some (js "did:ex:alice#1")

/-- The context of the sample arguments. -/
def sampleContext : Context where
  baseUrl := js "https://vta.example"
  vtaDid := js "did:key:vta"
  client := .sample 5
  fetchFn := netGuardedFetch Platform.json (restPolicy {})

lemma buildContext_sample : buildContext Platform.json Args.sample = .ok sampleContext := rfl

/-- The tokens a sample VTA answers with. -/
def sampleAnswer : Json := .obj [(js "tokens", .obj [(js "accessToken", .str (js "t"))])]

lemma plain_sampleAnswer : Json.Plain id sampleAnswer := by
  have haccess : Json.Plain id (.obj [(js "accessToken", .str (js "t"))]) :=
    .of_names [js "accessToken"] rfl (by decide) (by simp [Json.Plain.str])
  exact .of_names [js "tokens"] rfl (by decide) (by simp [haccess])

/-- A sample refresh is posted. -/
lemma runs_packAndPost_sample {o o' : Resolver.Owned Int}
    (hvta : resolveVtaRecipient .sample o ⟨0, 0⟩ (js "did:key:vta") = pure (.sample 7, o')) :
    ∃ tr, Prog.Runs (packAndPost .sample Crypto.sample o ⟨0, 0⟩ sampleContext .sample
      (js "/auth/refresh") refreshMessageType (.obj [(js "refresh_token", .str (js "r"))])).run tr
      (.ok (sampleAnswer, o')) := by
  have htoken : Json.Plain id (.obj [(js "refresh_token", .str (js "r"))]) :=
    .of_names [js "refresh_token"] rfl (by decide) (by simp [Json.Plain.str])
  obtain ⟨jwe, -, -, hpack, -⟩ := packTo_opens Platform.json_readsJson Crypto.sample_lawful
    ready_sample.fresh (Client.sample_holds 5) (AgreementKey.sample_isOf 7) rfl
    (plain_messageOf sampleContext .sample refreshMessageType htoken)
  have hresolved : Prog.Runs (resolveVtaRecipient .sample o ⟨0, 0⟩ (js "did:key:vta")).run []
      (.ok (.sample 7, o')) := hvta ▸ runs_return.mpr ⟨rfl, rfl⟩
  have hjoin : joinUrl sampleContext.baseUrl (js "/auth/refresh") =
      js "https://vta.example/auth/refresh" := by decide
  have hsafe : assertSafeEndpoint Platform.json (js "https://vta.example/auth/refresh")
      (restPolicy {}) = .ok _ := rfl
  obtain ⟨tr, hposted⟩ : ∃ tr, Prog.Runs (postRaw Platform.json who sampleContext.fetchFn
      (joinUrl sampleContext.baseUrl (js "/auth/refresh")) (Json.stringify jwe)).run tr
      (.ok sampleAnswer) := by
    rw [hjoin]
    exact ⟨_, runs_posted hsafe plain_sampleAnswer⟩
  exact ⟨tr, Prog.runs_run_bind.mpr ⟨_, [], tr, rfl, hresolved, runs_lift_bind.mpr ⟨_, hpack,
    Prog.runs_run_bind.mpr ⟨sampleAnswer, tr, [], (List.append_nil tr).symm, hposted,
      runs_return.mpr ⟨rfl, rfl⟩⟩⟩⟩⟩

/-- The sample client refreshes its tokens. -/
theorem rest_exchanges_example : ∃ (o o' : Resolver.Owned Int) (tr : List Exchange) (tokens : Tokens),
    Prog.Runs (refresh .sample Crypto.sample o ⟨0, 0⟩ Args.sample (js "r") .sample).run tr
      (.ok (tokens, o')) ∧
    ∃ (recipient : AgreementKey) (frame : JsString), ∀ vta : KeyPair Crypto.sample .x25519,
      recipient.IsOf vta → ∃ message,
        unpack Platform.json Crypto.sample frame ⟨recipient.kidText, some vta.privateJwk⟩
          (some (KeyPair.sample 5).publicJwk) = .ok (openedFrom (.sample 5) message) := by
  let o : Resolver.Owned Int := ⟨Resolver.init 1 0, ⟨1, .empty, by decide, by decide⟩⟩
  obtain ⟨o', hvta⟩ : ∃ o', resolveVtaRecipient .sample o ⟨0, 0⟩ (js "did:key:vta") =
      pure (.sample 7, o') :=
    resolve_sample_document o ⟨0, 0⟩ {}
      (fun r => documentOf r.didDocument
        (who ++ js ": could not resolve a DID document for " ++ js "did:key:vta" ++
          js " (resolver returned no document)"))
      (vtaRecipient · (js "did:key:vta")) rfl (sampleDocument_extract _ _)
  have htokens : tokenResult Platform.json sampleAnswer (js "/auth/refresh") = .ok _ := rfl
  obtain ⟨tr, hposts⟩ := runs_packAndPost_sample hvta
  have run : Prog.Runs (refresh .sample Crypto.sample o ⟨0, 0⟩ Args.sample (js "r") .sample).run tr
      (.ok (_, o')) :=
    runs_lift_bind.mpr ⟨(), rfl, runs_lift_bind.mpr ⟨sampleContext, buildContext_sample,
      Prog.runs_run_bind.mpr ⟨(sampleAnswer, o'), tr, [], (List.append_nil _).symm, hposts,
        runs_lift_bind.mpr ⟨_, htokens, runs_return.mpr ⟨rfl, rfl⟩⟩⟩⟩⟩
  have hreads : Resolver.Builtin.sample.pf.ReadsJson id := Platform.json_readsJson
  have hclient : Args.sample.client.Holds (KeyPair.sample 5) := Client.sample_holds 5
  obtain ⟨_, _, _, _, recipient, frame, -, -, -, -, hopens⟩ :=
    (rest_exchanges hreads Crypto.sample_lawful hclient ready_sample.fresh).2 _ _ _ _ run
  exact ⟨o, o', tr, _, run, recipient, frame, fun vta hvta => ⟨_, hopens vta hvta⟩⟩

end VtiDidcomm.VtaRestAuth
