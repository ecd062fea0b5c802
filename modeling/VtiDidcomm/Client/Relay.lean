import VtiDidcomm.Client.Packed
import VtiDidcomm.Client.VtaDidcomm
import VtiDidcomm.Session.Mailbox

/-!
# A request through the mediator

`buildForward` of `forward.js` and `sendAndWait` of `vta-didcomm.js`: the request is packed for the
VTA, put into a forward, and the forward is packed for the mediator.

`Relays` is what a mediator reads in a forward. `request_relayed` follows a request to its end: the
mediator opens the frame and finds the VTA's DID and one JWE in it, and the text of that JWE opens for
the VTA as the request, authenticated as the client.
-/

namespace VtiDidcomm.VtaDidcomm
open Js

/-! ## Forwards -/

/-- `FORWARD_MESSAGE_TYPE` -/
def forwardMessageType : JsString := js "https://didcomm.org/routing/2.0/forward"

/-- The `from` and `to` of a forward: both are given, or neither is. -/
def forwardSender (from' mediatorDid : Option JsString) :
    Except JsError (List (JsString × Json)) :=
  match from', mediatorDid with
  | some from', some mediatorDid => do
    assertNonEmptyString (js "buildForward") (js "from") from'
    assertNonEmptyString (js "buildForward") (js "mediatorDid") mediatorDid
    pure [(js "from", .str from'), (js "to", .arr [.str mediatorDid])]
  | none, none => pure []
  | _, _ =>
    .error (typeError (js "buildForward: pass both `from` and `mediatorDid`, or neither"))

/-- The inner JWE of a forward, which is given as text or as an object. -/
def forwardInner (pf : Platform) (innerJwe : Option Json) : Except JsError Json :=
  match innerJwe with
  | some (.str text) => parseOr pf (js "buildForward: innerJwe is not valid JSON: ") text
  | some (.arr items) => pure (.arr items)
  | some (.obj members) => pure (.obj members)
  | _ => .error (typeError (js "buildForward: innerJwe must be a JWE JSON string or object"))

/-- The message of a forward. -/
def forwardMessage (id : Json) (next : JsString) (sender : List (JsString × Json)) (inner : Json) :
    Json :=
  .obj ([(js "id", id), (js "typ", typPlain), (js "type", .str forwardMessageType),
    (js "body", .obj [(js "next", .str next)]),
    (js "attachments", .arr [.obj [(js "data", .obj [(js "json", inner)])]])] ++ sender)

/-- `buildForward` -/
def buildForward (pf : Platform) (id : Json) (next : JsString) (from' mediatorDid : Option JsString)
    (innerJwe : Option Json) : Except JsError Json := do
  assertNonEmptyString (js "buildForward") (js "next") next
  let sender ← forwardSender from' mediatorDid
  let inner ← forwardInner pf innerJwe
  pure (forwardMessage id next sender inner)

/-- What a mediator reads in a forward: the next hop, and the JWE of the one attachment. -/
structure Relays (forward : Json) (next : JsString) (inner : Json) : Prop where
  type : forward.get (js "type") = some (.str forwardMessageType)
  next : (forward.get (js "body")).bind (·.get (js "next")) = some (.str next)
  attachment : ∃ attachment, forward.get (js "attachments") = some (.arr [attachment]) ∧
    (attachment.get (js "data")).bind (·.get (js "json")) = some inner

/-- A forward relays the message inside. -/
lemma relays_forwardMessage (id : Json) (next : JsString) (sender : List (JsString × Json))
    (inner : Json) : Relays (forwardMessage id next sender inner) next inner :=
  ⟨rfl, rfl, _, rfl, rfl⟩

/-! ## Requests -/

/-- `VtaMediatorClient`; `mediator` is the key of its session's mediator. -/
structure VtaMediatorClient where
  vta : AgreementKey
  client : Client
  vtaDid : JsString
  mediatorDid : JsString
  mediator : AgreementKey

/-- What the request and its forward draw. -/
structure RequestDraws where
  inner : Draw
  forward : Draw

/-- What `sendAndWait` does: it waits for a reply, and sends a frame. -/
structure Outgoing where
  wait : Mailbox.Input
  frame : JsString

/-- The id of a message. -/
def Draw.idText (d : Draw) : JsString := js "urn:uuid:" ++ d.uuid

variable (c : VtaMediatorClient)

/-- The request. -/
def requestMessage (draw : Draw) (type : JsString) (body : Option Json) : Json :=
  .obj [(js "id", draw.id), (js "typ", typPlain), (js "type", .str type),
    (js "from", .str c.client.did), (js "to", .arr [.str c.vtaDid]),
    (js "created_time", jsonNat draw.now),
    (js "body", if Json.isNullish body then .obj [] else body.getD .null)]

/-- `sendAndWait`, up to the reply. The waiter is registered before the frame is sent. -/
def sendAndWait (pf : Platform) (C : Crypto) (draws : RequestDraws) (type : JsString)
    (body : Option Json) : Except JsError Outgoing := do
  let innerJwe ← packTo C draws.inner c.client (requestMessage c draws.inner type body) c.vta
  let forward ← buildForward pf draws.forward.id c.vtaDid (some c.client.did) (some c.mediatorDid)
    (some (.str innerJwe))
  let forwardJwe ← packTo C draws.forward c.client forward c.mediator
  pure { wait := Mailbox.sendAndWait (Draw.idText draws.inner) c.vtaDid, frame := forwardJwe }

/-! ## Its way -/

variable {P : Platform} {C : Crypto} {number : List UInt8 → List UInt8} {c}

/-- A sender has a DID. -/
lemma did_ne_nil {kid did : JsString} (h : NamesSender kid did) : did ≠ [] := by
  rintro rfl
  have hdid := h.isDid
  rw [← h.identity] at hdid
  exact absurd hdid (by decide)

/-- The attachments of a forward are as printable as what it carries. -/
lemma plain_attachments {inner : Json} (h : Json.Plain number inner) :
    Json.Plain number (.arr [.obj [(js "data", .obj [(js "json", inner)])]]) := by
  have hjson : Json.Plain number (.obj [(js "json", inner)]) :=
    .of_names [js "json"] rfl (by decide) (by simp [h])
  have hdata : Json.Plain number (.obj [(js "data", .obj [(js "json", inner)])]) :=
    .of_names [js "data"] rfl (by decide) (by simp [hjson])
  exact .arr (by simp [hdata])

/-- A forward that names its sender. -/
lemma plain_forwardMessage (uuid next from' mediatorDid : JsString) {inner : Json}
    (h : Json.Plain number inner) :
    Json.Plain number (forwardMessage (.str uuid) next
      [(js "from", .str from'), (js "to", .arr [.str mediatorDid])] inner) := by
  have hbody : Json.Plain number (.obj [(js "next", .str next)]) :=
    .of_names [js "next"] rfl (by decide) (by simp [Json.Plain.str])
  have hto : Json.Plain number (.arr [.str mediatorDid]) := .arr (by simp [Json.Plain.str])
  refine .of_names [js "id", js "typ", js "type", js "body", js "attachments", js "from", js "to"] rfl
    (by decide) ?_
  simp [Json.Plain.str, typPlain, hbody, plain_attachments h, hto]

/-- A forward of a plain message is built. -/
lemma buildForward_ok (hP : P.ReadsJson number) {id : Json} {next from' mediatorDid : JsString}
    {inner : Json} (hnext : next ≠ []) (hfrom : from' ≠ []) (hmediator : mediatorDid ≠ [])
    (h : Json.Plain number inner) :
    buildForward P id next (some from') (some mediatorDid) (some (.str (Json.stringify inner))) =
      .ok (forwardMessage id next [(js "from", .str from'), (js "to", .arr [.str mediatorDid])]
        inner) := by
  have hparse : P.parseJson (Json.stringify inner) = .ok inner := parses_of_plain hP h
  simp only [buildForward, forwardSender, forwardInner, assertNonEmptyString, require_of hnext,
    require_of hfrom, require_of hmediator, ok_bind, parseOr, hparse]
  rfl

/-- A request arrives: the mediator opens the frame with the client's identity and finds the VTA's
DID and a JWE, and the text of the JWE opens for the VTA as the request, with the same identity. The
client waits for a reply to the id of the request, from the VTA. -/
theorem request_relayed (hP : P.ReadsJson number) (hC : C.Lawful) {draws : RequestDraws}
    {client vta mediator : KeyPair C .x25519} (hclient : c.client.Holds client)
    (hvta : c.vta.IsOf vta) (hmediator : c.mediator.IsOf mediator)
    (hinner : draws.inner.entropy.Fresh C .x25519)
    (hforward : draws.forward.entropy.Fresh C .x25519) (hvtaDid : c.vtaDid ≠ [])
    (hmediatorDid : c.mediatorDid ≠ []) {type : JsString} {body : Option Json}
    (hmessage : Json.Plain number (requestMessage c draws.inner type body)) :
    ∃ out forward jwe, sendAndWait c P C draws type body = .ok out ∧
      out.wait = Mailbox.sendAndWait (Draw.idText draws.inner) c.vtaDid ∧
      (requestMessage c draws.inner type body).get (js "id") =
        some (.str (Draw.idText draws.inner)) ∧
      unpack P C out.frame ⟨c.mediator.kidText, some mediator.privateJwk⟩ (some client.publicJwk) =
        .ok (openedFrom c.client forward) ∧
      Relays forward c.vtaDid jwe ∧
      unpack P C (Json.stringify jwe) ⟨c.vta.kidText, some vta.privateJwk⟩
        (some client.publicJwk) =
          .ok (openedFrom c.client (requestMessage c draws.inner type body)) := by
  obtain ⟨jwe, hjwe, -, hpack, hopens⟩ := packTo_opens hP hC hinner hclient hvta rfl hmessage
  have hfrom := did_ne_nil hclient.speaks.toNamesSender
  have hbuild : buildForward P draws.forward.id _ _ _ _ = _ :=
    buildForward_ok hP hvtaDid hfrom hmediatorDid hjwe
  have hplain : Json.Plain number (forwardMessage draws.forward.id c.vtaDid
      [(js "from", .str c.client.did), (js "to", .arr [.str c.mediatorDid])] jwe) :=
    plain_forwardMessage _ c.vtaDid c.client.did c.mediatorDid hjwe
  obtain ⟨frame, -, -, hframe, hrelayed⟩ := packTo_opens hP hC hforward hclient hmediator rfl hplain
  refine ⟨⟨Mailbox.sendAndWait (Draw.idText draws.inner) c.vtaDid, Json.stringify frame⟩, _, jwe, ?_,
    rfl, rfl, hrelayed, relays_forwardMessage draws.forward.id c.vtaDid _ jwe, hopens⟩
  have hpack' : packTo C draws.inner c.client (requestMessage c draws.inner type body) c.vta =
      .ok (Json.stringify jwe) := hpack
  have hframe' : packTo C draws.forward c.client (forwardMessage draws.forward.id c.vtaDid
      [(js "from", .str c.client.did), (js "to", .arr [.str c.mediatorDid])] jwe) c.mediator =
        .ok (Json.stringify frame) := hframe
  simp only [sendAndWait, hpack', ok_bind, hbuild, hframe']
  rfl

/-- Sample randomness of a request. -/
def RequestDraws.sample : RequestDraws := ⟨.sample, .sample⟩

/-- A request of a sample client. -/
theorem request_relayed_example :
    let c : VtaMediatorClient :=
      { vta := .sample 6, client := .sample 5, vtaDid := js "did:ex:vta"
        mediatorDid := js "did:ex:mediator", mediator := .sample 7 }
    ∃ out forward jwe,
      sendAndWait c Platform.json Crypto.sample .sample (js "ping") none = .ok out ∧
      unpack Platform.json Crypto.sample out.frame
        ⟨js "did:ex:bob#1", some (KeyPair.sample 7).privateJwk⟩
        (some (KeyPair.sample 5).publicJwk) = .ok (openedFrom (.sample 5) forward) ∧
      Relays forward (js "did:ex:vta") jwe := by
  intro c
  have hto : Json.Plain id (.arr [.str (js "did:ex:vta")]) := .arr (by simp [Json.Plain.str])
  have hbody : Json.Plain id (.obj []) := .of_names [] rfl rfl (by simp)
  have hmessage : Json.Plain id (requestMessage c RequestDraws.sample.inner (js "ping") none) := by
    refine .of_names [js "id", js "typ", js "type", js "from", js "to", js "created_time", js "body"]
      rfl (by decide) ?_
    simp [Json.Plain.str, Draw.id, typPlain, Json.isNullish, c, hto, hbody, plain_epoch.1,
      RequestDraws.sample]
  obtain ⟨out, forward, jwe, hout, -, -, hopened, hrelays, -⟩ :=
    request_relayed Platform.json_readsJson Crypto.sample_lawful
      (show c.client.Holds (KeyPair.sample 5) from Client.sample_holds 5)
      (show c.vta.IsOf (KeyPair.sample 6) from AgreementKey.sample_isOf 6)
      (show c.mediator.IsOf (KeyPair.sample 7) from AgreementKey.sample_isOf 7)
      (show RequestDraws.sample.inner.entropy.Fresh Crypto.sample .x25519 from
        Entropy.sample_fresh .x25519) (Entropy.sample_fresh .x25519) (by decide) (by decide) hmessage
  exact ⟨out, forward, jwe, hout, hopened, hrelays⟩

/-- A forward that is packed for the mediator without a sender delivers the same JWE, and says
nothing of who sent it. -/
theorem anoncrypt_forward_relayed (hP : P.ReadsJson number) (hC : C.Lawful) {crv : Curve}
    {entropy : Entropy} (hentropy : entropy.Fresh C crv) (mediator : KeyPair C crv)
    {mediatorKid : JsString} (hkid : mediatorKid ≠ []) {uuid next : JsString} (hnext : next ≠ [])
    {jwe : Json} (hjwe : Json.Plain number jwe) :
    ∃ forward frame, buildForward P (.str uuid) next none none (some (.str (Json.stringify jwe))) =
        .ok forward ∧
      packAnoncrypt C entropy forward ⟨mediatorKid, some mediator.publicJwk⟩ = .ok frame ∧
      forward.get (js "from") = none ∧ forward.get (js "to") = none ∧
      ∀ sender, ∃ r, unpack P C frame ⟨mediatorKid, some mediator.privateJwk⟩ sender = .ok r ∧
        r.senderKid = none ∧ r.senderDid = none ∧ Relays r.message next jwe := by
  have hparse : P.parseJson (Json.stringify jwe) = .ok jwe := parses_of_plain hP hjwe
  have hbody : Json.Plain number (.obj [(js "next", .str next)]) :=
    .of_names [js "next"] rfl (by decide) (by simp [Json.Plain.str])
  have hplain : Json.Plain number (forwardMessage (.str uuid) next [] jwe) := by
    refine .of_names [js "id", js "typ", js "type", js "body", js "attachments"] rfl (by decide) ?_
    simp [Json.Plain.str, typPlain, hbody, plain_attachments hjwe]
  have hbuild : buildForward P (.str uuid) next none none (some (.str (Json.stringify jwe))) =
      .ok (forwardMessage (.str uuid) next [] jwe) := by
    simp only [buildForward, forwardSender, forwardInner, assertNonEmptyString, require_of hnext,
      parseOr, hparse]
    rfl
  have hreads (s : Sealed) (h : sealAnoncrypt C entropy (forwardMessage (.str uuid) next [] jwe)
      ⟨mediatorKid, some mediator.publicJwk⟩ = .ok s) :
      Parses P (forwardMessage (.str uuid) next [] jwe) ∧ Parses P s.header ∧ Parses P s.jwe := by
    obtain ⟨hheader, hs⟩ := plain_sealAnoncrypt h
    exact ⟨parses_of_plain hP hplain, parses_of_plain hP hheader, parses_of_plain hP hs⟩
  have hopens (sender : Option Json) :=
    unpack_pack_anoncrypt hC hentropy hkid sender hreads
  obtain ⟨frame, hpack, -⟩ := hopens none
  refine ⟨_, frame, hbuild, hpack, rfl, rfl, fun sender => ?_⟩
  obtain ⟨frame', hpack', hunpack⟩ := hopens sender
  obtain rfl : frame = frame' := Except.ok.inj (hpack.symm.trans hpack')
  exact ⟨_, hunpack, rfl, rfl, relays_forwardMessage (.str uuid) next [] jwe⟩

/-- A forward of an empty object. -/
theorem anoncrypt_forward_relayed_example :
    ∃ forward frame r,
      buildForward Platform.json (.str (js "1")) (js "did:ex:vta") none none
        (some (.str (Json.stringify (.obj [])))) = .ok forward ∧
      packAnoncrypt Crypto.sample .sample forward
        ⟨js "did:ex:bob#1", some (KeyPair.sample 7).publicJwk⟩ = .ok frame ∧
      unpack Platform.json Crypto.sample frame
        ⟨js "did:ex:bob#1", some (KeyPair.sample 7).privateJwk⟩ none = .ok r ∧
      Relays r.message (js "did:ex:vta") (.obj []) := by
  have hjwe : Json.Plain id (.obj []) := .of_names [] rfl rfl (by simp)
  obtain ⟨forward, frame, hbuild, hpack, -, -, hopens⟩ :=
    anoncrypt_forward_relayed Platform.json_readsJson Crypto.sample_lawful
      (Entropy.sample_fresh .x25519) (KeyPair.sample 7) (by decide : js "did:ex:bob#1" ≠ [])
      (by decide : js "did:ex:vta" ≠ []) hjwe
  obtain ⟨r, hr, -, -, hrelays⟩ := hopens none
  exact ⟨forward, frame, r, hbuild, hpack, hr, hrelays⟩

end VtiDidcomm.VtaDidcomm
