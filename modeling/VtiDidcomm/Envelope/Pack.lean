import VtiDidcomm.Envelope.Unpack

/-!
# Sealing an envelope

`pack` of `pack.js` (authcrypt) and `packAnoncrypt` of `anoncrypt.js`. What they draw at random is
an argument. `sealAuthcrypt` and `sealAnoncrypt` return the protected header beside the JWE, so that
a reader can name it; `pack` and `packAnoncrypt` print the JWE.
-/

namespace VtiDidcomm
open Js

/-- `TYP` -/
def typEncrypted : JsString := js "application/didcomm-encrypted+json"

/-- The `sender` of `pack`. -/
structure PackSender where
  kid : JsString
  privateJwk : Option Json

/-- The `recipient` of `pack` and `packAnoncrypt`. -/
structure PackRecipient where
  kid : JsString
  publicJwk : Option Json

/-- What one call draws at random: an ephemeral key pair of the curve, the key and the IV. -/
structure Entropy where
  ephemeralPrivate : Curve → Bytes
  ephemeralPublic : Curve → Bytes
  cek : Bytes
  iv : Bytes

/-- A sealed envelope and its protected header. -/
structure Sealed where
  header : Json
  jwe : Json

/-- `senderKid`: the `skid` for `kid`, with the `src` of a did:scid `from` added when `kid` is a
bare key of that DID. -/
def senderKid (kid : JsString) (claimed : Option Json) : JsString :=
  match Json.asString claimed with
  | none => kid
  | some claimed =>
    match scidSrc claimed with
    | none => kid
    | some src => if scidIdentity kid ≠ scidIdentity claimed then kid else withScidSrc kid src

/-- The protected header of an authcrypt envelope. -/
def authcryptHeader (apu apv : Bytes) (skid : JsString) (epk : Json) : Json :=
  .obj [(js "typ", .str typEncrypted), (js "alg", .str algAuthcrypt),
    (js "enc", .str encA256cbcHs512), (js "apu", .str (Base64url.encode apu)),
    (js "apv", .str (Base64url.encode apv)), (js "skid", .str skid), (js "epk", epk)]

/-- The protected header of an anoncrypt envelope. -/
def anoncryptHeader (apv : Bytes) (epk : Json) : Json :=
  .obj [(js "typ", .str typEncrypted), (js "alg", .str algAnoncrypt),
    (js "enc", .str encA256cbcHs512), (js "apv", .str (Base64url.encode apv)), (js "epk", epk)]

/-- The protected header as the JWE carries it. -/
def protectedB64 (header : Json) : JsString := Base64url.encode (textEncode (Json.stringify header))

/-- The JWE. -/
def assembleJwe (header : Json) (kid : JsString) (encryptedKey iv ciphertext tag : Bytes) : Json :=
  .obj [(js "protected", .str (protectedB64 header)),
    (js "recipients", .arr [.obj [(js "header", .obj [(js "kid", .str kid)]),
      (js "encrypted_key", .str (Base64url.encode encryptedKey))]]),
    (js "iv", .str (Base64url.encode iv)), (js "ciphertext", .str (Base64url.encode ciphertext)),
    (js "tag", .str (Base64url.encode tag))]

/-- The recipient's curve, which must be one for key agreement. -/
def recipientCurve (who : JsString) (publicJwk : Option Json) : Except JsError Curve := do
  let crv ← Jwk.curveOf publicJwk
  match supportedCurve crv with
  | some crv => pure crv
  | none =>
    .error (error (who ++ js ": recipient key curve " ++ Json.quote crv ++
      js " is not a supported key-agreement curve"))

variable (C : Crypto)

/-- `pack`, up to the printing. -/
def sealAuthcrypt (entropy : Entropy) (message : Json) (sender : PackSender)
    (recipient : PackRecipient) : Except JsError Sealed := do
  require (sender.kid ≠ [] ∧ Json.truthy sender.privateJwk = true)
    (typeError (js "pack: sender.\x7bkid, privateJwk\x7d required"))
  require (recipient.kid ≠ [] ∧ Json.truthy recipient.publicJwk = true)
    (typeError (js "pack: recipient.\x7bkid, publicJwk\x7d required"))
  let crv ← recipientCurve (js "pack") recipient.publicJwk
  let senderCrv ← Jwk.curveOf sender.privateJwk
  require (senderCrv = crv.name)
    (error (js "pack: sender key curve (" ++ senderCrv ++ js ") must match recipient curve (" ++
      crv.name ++ js ") for ECDH-1PU"))
  let senderPriv ← Jwk.rawPrivate sender.privateJwk
  let recipientPub ← Jwk.rawPublic C recipient.publicJwk
  let skid := senderKid sender.kid (message.get (js "from"))
  let apu := textEncode skid
  let apv := C.sha256 (textEncode recipient.kid)
  let epk ← Jwk.publicJwk crv.name (entropy.ephemeralPublic crv) none
  let header := authcryptHeader apu apv skid epk
  -- The content is encrypted first: its tag goes into the key-encryption key.
  let (ciphertext, tag) ← encrypt C entropy.cek entropy.iv (textEncode (protectedB64 header))
    (textEncode (Json.stringify message))
  let kek ← deriveKekAuthcrypt C (entropy.ephemeralPrivate crv) senderPriv recipientPub
    (authcryptInfo apu apv tag false) crv
  let encryptedKey ← wrapKey C kek entropy.cek
  pure ⟨header, assembleJwe header recipient.kid encryptedKey entropy.iv ciphertext tag⟩

/-- `packAnoncrypt`, up to the printing. -/
def sealAnoncrypt (entropy : Entropy) (message : Json) (recipient : PackRecipient) :
    Except JsError Sealed := do
  require (recipient.kid ≠ [] ∧ Json.truthy recipient.publicJwk = true)
    (typeError (js "packAnoncrypt: recipient.\x7bkid, publicJwk\x7d required"))
  let crv ← recipientCurve (js "packAnoncrypt") recipient.publicJwk
  let recipientPub ← Jwk.rawPublic C recipient.publicJwk
  let apv := C.sha256 (textEncode recipient.kid)
  let epk ← Jwk.publicJwk crv.name (entropy.ephemeralPublic crv) none
  let header := anoncryptHeader apv epk
  let (ciphertext, tag) ← encrypt C entropy.cek entropy.iv (textEncode (protectedB64 header))
    (textEncode (Json.stringify message))
  let kek ← deriveKekAnoncrypt C (entropy.ephemeralPrivate crv) recipientPub
    (anoncryptInfo [] apv) crv
  let encryptedKey ← wrapKey C kek entropy.cek
  pure ⟨header, assembleJwe header recipient.kid encryptedKey entropy.iv ciphertext tag⟩

/-- `pack` -/
def pack (entropy : Entropy) (message : Json) (sender : PackSender) (recipient : PackRecipient) :
    Except JsError JsString := do
  let sealed ← sealAuthcrypt C entropy message sender recipient
  pure (Json.stringify sealed.jwe)

/-- `packAnoncrypt` -/
def packAnoncrypt (entropy : Entropy) (message : Json) (recipient : PackRecipient) :
    Except JsError JsString := do
  let sealed ← sealAnoncrypt C entropy message recipient
  pure (Json.stringify sealed.jwe)

end VtiDidcomm
