import VtiDidcomm.Did.Scid
import VtiDidcomm.Envelope.Jwk
import VtiDidcomm.Js.Platform

/-!
# Opening an envelope

`unpack` of `unpack.js`: a JWE is read (`openJwe`), its content-encryption key unwrapped
(`unwrapCek`), its content decrypted and parsed (`readMessage`), and for authcrypt the claimed
sender bound to the authenticated one (`bindSender`).

`unpack_eq_ok` inverts it: what an accepted envelope went through, stage by stage.
-/

namespace VtiDidcomm
open Js

/-- `ALG_AUTHCRYPT` -/
def algAuthcrypt : JsString := js "ECDH-1PU+A256KW"
/-- `ALG_ANONCRYPT` -/
def algAnoncrypt : JsString := js "ECDH-ES+A256KW"
/-- `ENC` -/
def encA256cbcHs512 : JsString := js "A256CBC-HS512"
/-- `E_SENDER_MISMATCH` -/
def eSenderMismatch : JsString := js "E_SENDER_MISMATCH"

/-- `recipient`: our key id and private key. -/
structure Recipient where
  kid : JsString
  privateJwk : Option Json

/-- What `unpack` returns. -/
structure Unpacked where
  message : Json
  senderKid : Option JsString
  senderDid : Option JsString
  authenticated : Bool
  legacyKekUsed : Bool

/-- A JWE read up to its keys: the checked header, and the parts that are decoded. -/
structure Opened where
  header : Json
  isAuthcrypt : Bool
  crv : Curve
  entry : Json
  iv : Bytes
  ciphertext : Bytes
  tag : Bytes
  aad : Bytes

/-- `j.key` of a parsed value, which throws on `null`. -/
def member (j : Json) (key : JsString) : Except JsError (Option Json) :=
  match j with
  | .null =>
    .error (typeError (js "Cannot read properties of null (reading '" ++ key ++ js "')"))
  | j => .ok (j.get key)

/-- `JSON.parse`, its error rethrown with `label` before the message. -/
def parseOr (P : Platform) (label text : JsString) : Except JsError Json :=
  match P.parseJson text with
  | .ok j => .ok j
  | .error e => .error (error (label ++ e.message))

/-- The loop over the required fields of `assertJweShape`. -/
def assertFields (jwe : Json) : List JsString → Except JsError Unit
  | [] => .ok ()
  | field :: fields => do
    require ((jwe.get field).isSome = true)
      (error (js "unpack: JWE missing field " ++ Json.quote field))
    assertFields jwe fields

/-- `assertJweShape`: the recipients of a JWE of the right shape. -/
def assertJweShape (jwe : Json) : Except JsError (List Json) := do
  require (Json.truthy (some jwe) = true ∧ jwe.isObjectType = true)
    (error (js "unpack: JWE must be a JSON object"))
  assertFields jwe [js "protected", js "recipients", js "iv", js "ciphertext", js "tag"]
  match Json.asArray (jwe.get (js "recipients")) with
  | some (r :: rs) => pure (r :: rs)
  | _ => .error (error (js "unpack: recipients must be a non-empty array"))

/-- `{ kty: epk.kty, crv: epk.crv }`, without the members that are `undefined`. -/
def epkSummary (epk : Option Json) : Json :=
  .obj ([js "kty", js "crv"].filterMap fun name => (Jwk.field epk name).map fun v => (name, v))

/-- `epkCurve` -/
def epkCurve (epk : Option Json) : Except JsError Curve := do
  require (Json.truthy epk = true ∧ Json.typeOf epk = js "object")
    (error (js "unpack: protected header missing epk"))
  let kty := Json.asString (Jwk.field epk (js "kty"))
  let crv := Json.asString (Jwk.field epk (js "crv"))
  if kty = some (js "OKP") ∧ crv = some Curve.x25519.name then pure .x25519
  else if kty = some (js "EC") ∧ crv = some Curve.p256.name then pure .p256
  else
    .error (error (js "unpack: unsupported epk " ++ Json.stringify (epkSummary epk) ++
      js "; expected OKP/X25519 or EC/P-256"))

/-- The `recipients[]` entry for a key id. -/
def findRecipient (recipients : List Json) (kid : JsString) : Option Json :=
  recipients.find? fun r =>
    Json.asString ((r.get (js "header")).bind (·.get (js "kid"))) = some kid

/-- The protected header. -/
def readHeader (P : Platform) (protectedB64 : Option Json) : Except JsError Json := do
  let bytes ← Base64url.decode protectedB64
  parseOr P (js "unpack: protected header not JSON: ") (textDecode bytes)

/-- The parsed JWE and its protected header, with the algorithm it names. -/
def readJwe (P : Platform) (jweJson : JsString) :
    Except JsError (Json × List Json × Json × Option Json) := do
  let jwe ← parseOr P (js "unpack: not a JSON document: ") jweJson
  let recipients ← assertJweShape jwe
  let header ← readHeader P (jwe.get (js "protected"))
  let alg ← member header (js "alg")
  pure (jwe, recipients, header, alg)

/-- Steps 1 to 3: the header is checked, our entry found, and the parts are decoded. -/
def openJwe (P : Platform) (jweJson : JsString) (recipient : Recipient) (sender : Option Json) :
    Except JsError Opened := do
  require (recipient.kid ≠ [] ∧ Json.truthy recipient.privateJwk = true)
    (typeError (js "unpack: recipient.\x7bkid, privateJwk\x7d required"))
  let (jwe, recipients, header, alg) ← readJwe P jweJson
  let isAuthcrypt : Bool := Json.asString alg = some algAuthcrypt
  require (isAuthcrypt = true ∨ Json.asString alg = some algAnoncrypt)
    (error (js "unpack: unsupported alg " ++ Json.stringifyOpt alg ++ js "; expected " ++
      algAuthcrypt ++ js " or " ++ algAnoncrypt))
  let enc := header.get (js "enc")
  require (Json.asString enc = some encA256cbcHs512)
    (error (js "unpack: unsupported enc " ++ Json.stringifyOpt enc ++ js "; expected " ++
      encA256cbcHs512))
  let crv ← epkCurve (header.get (js "epk"))
  require (isAuthcrypt = false ∨ Json.truthy (header.get (js "skid")) = true)
    (error (js "unpack: authcrypt protected header missing skid"))
  require (isAuthcrypt = false ∨ Json.truthy sender = true)
    (typeError (js "unpack: sender.publicJwk required for authcrypt"))
  match findRecipient recipients recipient.kid with
  | none =>
    .error (error (js "unpack: no recipients[] entry for kid " ++ Json.quote recipient.kid))
  | some entry =>
    require (Json.truthy (entry.get (js "encrypted_key")) = true)
      (error (js "unpack: matched recipients[] entry has no encrypted_key"))
    let iv ← Base64url.decode (jwe.get (js "iv"))
    let ciphertext ← Base64url.decode (jwe.get (js "ciphertext"))
    let tag ← Base64url.decode (jwe.get (js "tag"))
    let aad := textEncode ((Json.asString (jwe.get (js "protected"))).getD [])
    pure { header, isAuthcrypt, crv, entry, iv, ciphertext, tag, aad }

/-- `header.apu ? b64u.decode(header.apu) : new Uint8Array()` -/
def partyInfo (v : Option Json) : Except JsError Bytes :=
  if Json.truthy v then Base64url.decode v else .ok []

/-- What the key-encryption key is derived from, the sender's key apart. -/
structure KekInputs where
  recipientPriv : Bytes
  ephemeralPublic : Bytes
  apu : Bytes
  apv : Bytes
  encryptedKey : Bytes

/-- Step 4: the recipient's and the ephemeral key, `apu` and `apv`. -/
def kekInputs (C : Crypto) (o : Opened) (recipient : Recipient) : Except JsError KekInputs := do
  let crv ← Jwk.curveOf recipient.privateJwk
  require (crv = o.crv.name)
    (error (js "unpack: recipient key curve (" ++ crv ++ js ") does not match epk curve (" ++
      o.crv.name ++ js ")"))
  let recipientPriv ← Jwk.rawPrivate recipient.privateJwk
  let ephemeralPublic ← Jwk.rawPublic C (o.header.get (js "epk"))
  let apu ← partyInfo (o.header.get (js "apu"))
  let apv ← partyInfo (o.header.get (js "apv"))
  let encryptedKey ← Base64url.decode (o.entry.get (js "encrypted_key"))
  pure { recipientPriv, ephemeralPublic, apu, apv, encryptedKey }

/-- The `otherInfo` of an authcrypt envelope. -/
def authcryptInfo (apu apv tag : Bytes) (legacy : Bool) : OtherInfo :=
  { alg := algAuthcrypt, apu, apv, suppPrivInfo := some tag, legacyRawSuppPrivInfo := legacy }

/-- The `otherInfo` of an anoncrypt envelope. -/
def anoncryptInfo (apu apv : Bytes) : OtherInfo := { alg := algAnoncrypt, apu, apv }

/-- Step 5 for authcrypt: `apu` is bound to `skid`, and the key is unwrapped under the
key-encryption key of the sender's key, or under its pre-0.5 derivation. -/
def unwrapAuthcrypt (C : Crypto) (o : Opened) (k : KekInputs) (sender : Option Json) :
    Except JsError (Bytes × Bool) := do
  let skid := o.header.get (js "skid")
  let apuStr := textDecode k.apu
  require (Json.asString skid = some apuStr)
    (error (js "unpack: authcrypt apu (" ++ Json.quote apuStr ++ js ") does not match skid (" ++
      Json.stringifyOpt skid ++ js ")"))
  let crv ← Jwk.curveOf sender
  require (crv = o.crv.name)
    (error (js "unpack: sender key curve (" ++ crv ++ js ") does not match epk curve (" ++
      o.crv.name ++ js ")"))
  let senderPublic ← Jwk.rawPublic C sender
  let kek ← recipientKekAuthcrypt C k.recipientPriv k.ephemeralPublic senderPublic
    (authcryptInfo k.apu k.apv o.tag false) o.crv
  match unwrapKey C kek k.encryptedKey with
  | .ok cek => pure (cek, false)
  | .error _ =>
    let legacyKek ← recipientKekAuthcrypt C k.recipientPriv k.ephemeralPublic senderPublic
      (authcryptInfo k.apu k.apv o.tag true) o.crv
    let cek ← unwrapKey C legacyKek k.encryptedKey
    pure (cek, true)

/-- Step 5 for anoncrypt. -/
def unwrapAnoncrypt (C : Crypto) (o : Opened) (k : KekInputs) : Except JsError (Bytes × Bool) := do
  let kek ← recipientKekAnoncrypt C k.recipientPriv k.ephemeralPublic (anoncryptInfo k.apu k.apv)
    o.crv
  let cek ← unwrapKey C kek k.encryptedKey
  pure (cek, false)

/-- Step 5: the content-encryption key, and whether it took the legacy derivation. -/
def unwrapCek (C : Crypto) (o : Opened) (k : KekInputs) (sender : Option Json) :
    Except JsError (Bytes × Bool) :=
  if o.isAuthcrypt then unwrapAuthcrypt C o k sender else unwrapAnoncrypt C o k

/-- Step 6: the content is decrypted. -/
def decryptContent (C : Crypto) (o : Opened) (cek : Bytes) : Except JsError Bytes :=
  match decrypt C cek o.iv o.aad o.ciphertext o.tag with
  | .ok plaintext => .ok plaintext
  | .error e => .error (error (js "unpack: A256CBC-HS512 decrypt failed: " ++ e.message))

/-- Steps 6 and 7: the content is decrypted, and parsed as a JSON object. -/
def readMessage (P : Platform) (C : Crypto) (o : Opened) (cek : Bytes) : Except JsError Json := do
  let plaintext ← decryptContent C o cek
  let message ← parseOr P (js "unpack: plaintext not JSON: ") (textDecode plaintext)
  match message with
  | .obj members => pure (.obj members)
  | _ => .error (error (js "unpack: plaintext is not a JSON object"))

/-- Whether a message's `from` is the DID of the key that authenticated it. -/
def claimsSender (message : Json) (senderDid : JsString) : Bool :=
  startsWith senderDid (js "did:") &&
    match Json.asString (message.get (js "from")) with
    | none => false
    | some claimed => !includes claimed hash && identityOfKid claimed = senderDid

/-- `new SenderMismatchError(message, { senderDid, claimedFrom })` -/
def senderMismatch (skid senderDid : JsString) (claimedFrom : Option Json) : JsError where
  name := js "SenderMismatchError"
  message := js "unpack: authcrypt from (" ++ Json.stringifyOpt claimedFrom ++
    js ") is not the DID of skid (" ++ Json.quote skid ++ js ")"
  code := some eSenderMismatch
  details := [(js "senderDid", senderDid), (js "claimedFrom", Json.stringifyOpt claimedFrom)]

/-- Step 8: the claimed sender is bound to the authenticated one. -/
def bindSender (skid : JsString) (message : Json) : Except JsError JsString := do
  let senderDid := identityOfKid skid
  require (claimsSender message senderDid = true)
    (senderMismatch skid senderDid (message.get (js "from")))
  pure senderDid

/-- `unpack` -/
def unpack (P : Platform) (C : Crypto) (jweJson : JsString) (recipient : Recipient)
    (sender : Option Json) : Except JsError Unpacked := do
  let o ← openJwe P jweJson recipient sender
  let k ← kekInputs C o recipient
  let (cek, legacyKekUsed) ← unwrapCek C o k sender
  let message ← readMessage P C o cek
  if o.isAuthcrypt then
    let skid := (Json.asString (o.header.get (js "skid"))).getD []
    let senderDid ← bindSender skid message
    pure { message, senderKid := some skid, senderDid := some senderDid, authenticated := true,
           legacyKekUsed }
  else
    pure { message, senderKid := none, senderDid := none, authenticated := false, legacyKekUsed }

/-! ## What an accepted envelope went through -/

/-- The content-encryption key is what unwraps under a key-encryption key of the sender's key. -/
def UnwrapsUnder (C : Crypto) (o : Opened) (k : KekInputs) (sender : Option Json) (cek : Bytes)
    (legacy : Bool) : Prop :=
  ∃ senderPublic kek, Jwk.rawPublic C sender = .ok senderPublic ∧
    recipientKekAuthcrypt C k.recipientPriv k.ephemeralPublic senderPublic
      (authcryptInfo k.apu k.apv o.tag legacy) o.crv = .ok kek ∧
    unwrapKey C kek k.encryptedKey = .ok cek

/-- An authcrypt key that unwraps has the `skid` as its `apu`. -/
lemma unwrapAuthcrypt_eq_ok {C : Crypto} {o : Opened} {k : KekInputs} {sender : Option Json}
    {cek : Bytes} {legacy : Bool} (h : unwrapAuthcrypt C o k sender = .ok (cek, legacy)) :
    o.header.get (js "skid") = some (.str (textDecode k.apu)) ∧
      UnwrapsUnder C o k sender cek legacy := by
  obtain ⟨_, hskid, h⟩ := bind_eq_ok.mp h
  obtain ⟨crv, -, h⟩ := bind_eq_ok.mp h
  obtain ⟨_, -, h⟩ := bind_eq_ok.mp h
  obtain ⟨senderPublic, hpub, h⟩ := bind_eq_ok.mp h
  obtain ⟨kek, hkek, h⟩ := bind_eq_ok.mp h
  refine ⟨Json.asString_eq_some.mp (require_eq_ok.mp hskid), ?_⟩
  split at h
  · rename_i cek' hcek
    cases h
    exact ⟨senderPublic, kek, hpub, hkek, hcek⟩
  · obtain ⟨legacyKek, hlegacy, h⟩ := bind_eq_ok.mp h
    obtain ⟨cek', hcek, h⟩ := bind_eq_ok.mp h
    cases h
    exact ⟨senderPublic, legacyKek, hpub, hlegacy, hcek⟩

/-- A JWE that opens was read, under an algorithm that is known. -/
lemma openJwe_eq_ok {P : Platform} {jweJson : JsString} {recipient : Recipient}
    {sender : Option Json} {o : Opened} (h : openJwe P jweJson recipient sender = .ok o) :
    ∃ jwe recipients alg, readJwe P jweJson = .ok (jwe, recipients, o.header, alg) ∧
      o.isAuthcrypt = decide (Json.asString alg = some algAuthcrypt) ∧
      (o.isAuthcrypt = true → Json.truthy (o.header.get (js "skid")) = true) := by
  obtain ⟨_, -, h⟩ := bind_eq_ok.mp h
  obtain ⟨⟨jwe, recipients, header, alg⟩, hread, h⟩ := bind_eq_ok.mp h
  obtain ⟨_, -, h⟩ := bind_eq_ok.mp h
  obtain ⟨_, -, h⟩ := bind_eq_ok.mp h
  obtain ⟨crv, -, h⟩ := bind_eq_ok.mp h
  obtain ⟨_, hskid, h⟩ := bind_eq_ok.mp h
  obtain ⟨_, -, h⟩ := bind_eq_ok.mp h
  split at h
  · cases h
  obtain ⟨_, -, h⟩ := bind_eq_ok.mp h
  obtain ⟨iv, -, h⟩ := bind_eq_ok.mp h
  obtain ⟨ciphertext, -, h⟩ := bind_eq_ok.mp h
  obtain ⟨tag, -, h⟩ := bind_eq_ok.mp h
  cases h
  refine ⟨jwe, recipients, alg, hread, rfl, fun ha => ?_⟩
  obtain hf | ht := require_eq_ok.mp hskid
  · exact absurd ha (by simpa using hf)
  · exact ht

/-- What an accepted envelope went through. -/
structure Accepts (P : Platform) (C : Crypto) (jweJson : JsString) (recipient : Recipient)
    (sender : Option Json) (r : Unpacked) (o : Opened) (k : KekInputs) (cek : Bytes) : Prop where
  opened : openJwe P jweJson recipient sender = .ok o
  inputs : kekInputs C o recipient = .ok k
  unwrapped : unwrapCek C o k sender = .ok (cek, r.legacyKekUsed)
  read : readMessage P C o cek = .ok r.message

/-- An accepted authcrypt envelope names its sender by its `skid`; an accepted anoncrypt envelope
names none. -/
lemma unpack_eq_ok {P : Platform} {C : Crypto} {jweJson : JsString} {recipient : Recipient}
    {sender : Option Json} {r : Unpacked} (h : unpack P C jweJson recipient sender = .ok r) :
    ∃ o k cek, Accepts P C jweJson recipient sender r o k cek ∧
      ((o.isAuthcrypt = true ∧ r.authenticated = true ∧
          ∃ skid, o.header.get (js "skid") = some (.str skid) ∧ r.senderKid = some skid ∧
            r.senderDid = some (identityOfKid skid) ∧
            claimsSender r.message (identityOfKid skid) = true ∧
            UnwrapsUnder C o k sender cek r.legacyKekUsed) ∨
        o.isAuthcrypt = false ∧ r.authenticated = false ∧ r.senderKid = none ∧
          r.senderDid = none) := by
  obtain ⟨o, ho, h⟩ := bind_eq_ok.mp h
  obtain ⟨k, hk, h⟩ := bind_eq_ok.mp h
  obtain ⟨⟨cek, legacy⟩, hcek, h⟩ := bind_eq_ok.mp h
  obtain ⟨message, hmessage, h⟩ := bind_eq_ok.mp h
  cases ha : o.isAuthcrypt with
  | false =>
    simp only [ha, Bool.false_eq_true, if_false] at h
    cases h
    exact ⟨o, k, cek, ⟨ho, hk, hcek, hmessage⟩, .inr ⟨ha, rfl, rfl, rfl⟩⟩
  | true =>
    simp only [ha, if_true] at h
    obtain ⟨senderDid, hbind, h⟩ := bind_eq_ok.mp h
    obtain ⟨_, hclaims, hdid⟩ := bind_eq_ok.mp hbind
    cases h
    have hcek' := hcek
    rw [unwrapCek, if_pos ha] at hcek'
    obtain ⟨hskid, hunder⟩ := unwrapAuthcrypt_eq_ok hcek'
    rw [hskid] at hclaims hdid
    cases hdid
    refine ⟨o, k, cek, ⟨ho, hk, hcek, hmessage⟩, .inl ⟨ha, rfl, textDecode k.apu, hskid, ?_, rfl,
      require_eq_ok.mp hclaims, hunder⟩⟩
    rw [hskid]
    rfl

end VtiDidcomm
