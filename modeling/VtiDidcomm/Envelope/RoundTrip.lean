import VtiDidcomm.Envelope.Pack
import VtiDidcomm.Envelope.Sample

/-!
# Opening what was sealed

What `pack` seals for a recipient, `unpack` opens with the same message and the sender's identity,
and what `packAnoncrypt` seals, it opens with no sender. Each stage of `unpack` is taken on the
parts the other side assembled: reading (`openJwe_assemble`), the key-encryption inputs, the content
and the sender binding.

`unpack_pack` asks for what the two sides rely on outside this code: lawful primitives, and that
`JSON.parse` reads back the three values printed. Beyond that, a recipient kid must not be empty, a
`src` that is copied into the `skid` must be well-formed, and the `skid` must fit its length prefix.
-/

namespace VtiDidcomm
open Js

variable {P : Platform} {C : Crypto}

/-! ## The sender's key id -/

/-- What is around a code unit that is no surrogate is well-formed when the whole is. -/
lemma isWellFormed_cut {pre post : JsString} {c : CodeUnit} (hc : isSurrogate c = false)
    (h : isWellFormed (pre ++ c :: post) = true) :
    isWellFormed pre = true ∧ isWellFormed (c :: post) = true := by
  induction pre using isWellFormed.induct with
  | case1 => exact ⟨rfl, h⟩
  | case2 d =>
    have hlow : Json.isLowSurrogate c = false := by
      simp only [isSurrogate, Bool.or_eq_false_iff] at hc
      exact hc.2
    simp only [List.singleton_append, isWellFormed, hlow, Bool.and_false, Bool.false_eq_true,
      if_false, Bool.and_eq_true] at h
    exact ⟨by simpa [isWellFormed] using h.1, h.2⟩
  | case3 d e pre hpair ih =>
    rw [List.cons_append, List.cons_append, isWellFormed, if_pos hpair] at h
    rw [isWellFormed, if_pos hpair]
    exact ih h
  | case4 d e pre hpair ih =>
    rw [List.cons_append, List.cons_append, isWellFormed, if_neg hpair, Bool.and_eq_true] at h
    obtain ⟨hpre, hpost⟩ := ih h.2
    rw [isWellFormed, if_neg hpair, h.1, hpre]
    exact ⟨rfl, hpost⟩

/-- A well-formed `src` in a well-formed reference. -/
lemma isWellFormed_withScidSrc {r src : JsString} (hr : isWellFormed r = true)
    (hs : isWellFormed src = true) : isWellFormed (withScidSrc r src) = true := by
  have hquery : isWellFormed (js "?src=" ++ src) = true := isWellFormed_append (by decide) hs
  unfold withScidSrc
  split
  · exact hr
  cases hi : indexOf r hash with
  | none =>
    rw [List.append_assoc]
    exact isWellFormed_append hr hquery
  | some i =>
    obtain ⟨pre, post, rfl, -, rfl⟩ := indexOf_eq_some.mp hi
    obtain ⟨hpre, hpost⟩ := isWellFormed_cut (by decide) hr
    simp only [sliceTo_append, sliceFrom_append]
    rw [List.append_assoc, List.append_assoc, ← List.append_assoc (js "?src=")]
    exact isWellFormed_append hpre (isWellFormed_append hquery hpost)

/-- The `skid` is the kid, or the kid with the `src` of `from`. -/
lemma senderKid_cases (kid claimed : JsString) :
    senderKid kid (some (.str claimed)) = kid ∨
      ∃ src, scidSrc claimed = some src ∧
        senderKid kid (some (.str claimed)) = withScidSrc kid src := by
  simp only [senderKid, Json.asString]
  split
  · exact .inl rfl
  · rename_i src hsrc
    split
    · exact .inl rfl
    · exact .inr ⟨src, hsrc, rfl⟩

/-- The `skid` is a reference to the sender's key. -/
lemma sameReference_senderKid (kid claimed : JsString) :
    sameReference (senderKid kid (some (.str claimed))) kid = true := by
  obtain h | ⟨src, hsrc, h⟩ := senderKid_cases kid claimed
  · rw [h]
    exact sameReference_refl kid
  · rw [h]
    exact sameReference_withScidSrc kid (isSrc_of_scidSrc hsrc)

/-- The `skid` names the sender's identity. -/
lemma identityOfKid_senderKid (kid claimed : JsString) :
    identityOfKid (senderKid kid (some (.str claimed))) = identityOfKid kid := by
  obtain h | ⟨src, hsrc, h⟩ := senderKid_cases kid claimed
  · rw [h]
  · rw [h]
    exact scidIdentity_withScidSrc kid (isSrc_of_scidSrc hsrc)

/-- The `skid` is well formed when the key id and the locator are. -/
lemma isWellFormed_senderKid {kid claimed : JsString} (hkid : isWellFormed kid = true)
    (hsrc : ∀ src, scidSrc claimed = some src → isWellFormed src = true) :
    isWellFormed (senderKid kid (some (.str claimed))) = true := by
  obtain h | ⟨src, hs, h⟩ := senderKid_cases kid claimed
  · rw [h]
    exact hkid
  · rw [h]
    exact isWellFormed_withScidSrc hkid (hsrc src hs)

/-- A text that starts as a DID does is what its bytes decode to. -/
lemma textDecode_did {s : JsString} (h : isWellFormed s = true)
    (hdid : startsWith s (js "did:") = true) : textDecode (textEncode s) = s := by
  obtain ⟨t, rfl⟩ := startsWith_iff.mp hdid
  exact textDecode_textEncode h (by decide) (by decide)

/-! ## Reading -/

/-- The `recipients[]` entry of an assembled JWE. -/
def recipientEntry (kid : JsString) (encryptedKey : Bytes) : Json :=
  .obj [(js "header", .obj [(js "kid", .str kid)]),
    (js "encrypted_key", .str (Base64url.encode encryptedKey))]

/-- An assembled JWE, opened. -/
def assembledJwe (header : Json) (alg : JsString) (crv : Curve) (kid : JsString)
    (encryptedKey iv ciphertext tag : Bytes) : Opened where
  header := header
  isAuthcrypt := decide (alg = algAuthcrypt)
  crv := crv
  entry := recipientEntry kid encryptedKey
  iv := iv
  ciphertext := ciphertext
  tag := tag
  aad := textEncode (protectedB64 header)

/-- `JSON.parse` reads back what `JSON.stringify` prints for a value. -/
def Parses (P : Platform) (j : Json) : Prop := P.parseJson (Json.stringify j) = .ok j

/-- A party info that is encoded is read. -/
lemma partyInfo_encode (bytes : Bytes) :
    partyInfo (some (.str (Base64url.encode bytes))) = .ok bytes := by
  unfold partyInfo
  split
  · exact Base64url.decode_encode bytes
  · rename_i h
    cases bytes with
    | nil => rfl
    | cons a bytes => exact absurd (Base64url.truthy_encode (List.cons_ne_nil a bytes)) h

section Read
variable {members : List (JsString × Json)} {kid : JsString} {encryptedKey iv ciphertext tag : Bytes}

/-- A JWE that is put together is read back. -/
lemma readJwe_assemble
    (hjwe : Parses P (assembleJwe (.obj members) kid encryptedKey iv ciphertext tag))
    (hheader : Parses P (.obj members)) :
    readJwe P (Json.stringify (assembleJwe (.obj members) kid encryptedKey iv ciphertext tag)) =
      .ok (assembleJwe (.obj members) kid encryptedKey iv ciphertext tag,
        [recipientEntry kid encryptedKey], .obj members, Json.lookup (js "alg") members) := by
  have hprotected : (assembleJwe (.obj members) kid encryptedKey iv ciphertext tag).get
      (js "protected") = some (.str (protectedB64 (.obj members))) := rfl
  have hshape : assertJweShape (assembleJwe (.obj members) kid encryptedKey iv ciphertext tag) =
      .ok [recipientEntry kid encryptedKey] := rfl
  have hread : readHeader P (some (.str (protectedB64 (.obj members)))) = .ok (.obj members) := by
    rw [protectedB64]
    simp only [readHeader, Base64url.decode_encode, ok_bind, textDecode_stringify, parseOr]
    rw [show P.parseJson _ = _ from hheader]
  have hparse : parseOr P (js "unpack: not a JSON document: ")
      (Json.stringify (assembleJwe (.obj members) kid encryptedKey iv ciphertext tag)) =
        .ok (assembleJwe (.obj members) kid encryptedKey iv ciphertext tag) := by
    rw [parseOr, show P.parseJson _ = _ from hjwe]
  simp only [readJwe, hparse, hshape, hprotected, hread, ok_bind, member]
  rfl

/-- A JWE that is put together is opened by the recipient it is for. -/
lemma openJwe_assemble (header : Json) (sender : Option Json) {privateJwk : Option Json}
    {alg : JsString} {crv : Curve} {skid : Option Json} (hobj : header = .obj members)
    (hjwe : Parses P (assembleJwe header kid encryptedKey iv ciphertext tag))
    (hheader : Parses P header) (hkid : kid ≠ [])
    (hpriv : Json.truthy privateJwk = true) (hkey : encryptedKey ≠ [])
    (halg : header.get (js "alg") = some (.str alg))
    (henc : header.get (js "enc") = some (.str encA256cbcHs512))
    (hepk : epkCurve (header.get (js "epk")) = .ok crv)
    (hskid : header.get (js "skid") = skid)
    (hcase : alg = algAuthcrypt ∧ Json.truthy skid = true ∧ Json.truthy sender = true ∨
      alg = algAnoncrypt) :
    openJwe P
      (Json.stringify (assembleJwe header kid encryptedKey iv ciphertext tag))
      ⟨kid, privateJwk⟩ sender =
      .ok (assembledJwe header alg crv kid encryptedKey iv ciphertext tag) := by
  subst hobj
  rw [Json.get_obj] at halg henc hepk hskid
  have halg' : alg = algAuthcrypt ∨ alg = algAnoncrypt := hcase.imp (·.1) id
  have hskid' : alg ≠ algAuthcrypt ∨ Json.truthy skid = true := by
    obtain ⟨-, h, -⟩ | rfl := hcase
    · exact .inr h
    · exact .inl (by decide)
  have hsender : alg ≠ algAuthcrypt ∨ Json.truthy sender = true := by
    obtain ⟨-, -, h⟩ | rfl := hcase
    · exact .inr h
    · exact .inl (by decide)
  have hfind : findRecipient [recipientEntry kid encryptedKey] kid =
      some (recipientEntry kid encryptedKey) := by
    have hmatch : Json.asString (((recipientEntry kid encryptedKey).get
        (js "header")).bind (·.get (js "kid"))) = some kid := rfl
    simp only [findRecipient, List.find?_cons, hmatch, decide_true]
  have hkey' : (recipientEntry kid encryptedKey).get (js "encrypted_key") =
      some (.str (Base64url.encode encryptedKey)) := rfl
  have hiv : (assembleJwe (.obj members) kid encryptedKey iv ciphertext tag).get
      (js "iv") = some (.str (Base64url.encode iv)) := rfl
  have hciphertext : (assembleJwe (.obj members) kid encryptedKey iv ciphertext tag).get
      (js "ciphertext") = some (.str (Base64url.encode ciphertext)) := rfl
  have htag : (assembleJwe (.obj members) kid encryptedKey iv ciphertext tag).get
      (js "tag") = some (.str (Base64url.encode tag)) := rfl
  have hprotected : (assembleJwe (.obj members) kid encryptedKey iv ciphertext tag).get
      (js "protected") = some (.str (protectedB64 (.obj members))) := rfl
  simp [openJwe, require_of, hkid, hpriv, readJwe_assemble hjwe hheader, halg, henc, hskid, hepk,
    Json.asString, halg', hskid', hsender, hfind, hkey', Base64url.truthy_encode hkey, hiv,
    hciphertext, htag,
    hprotected, Base64url.decode_encode, assembledJwe, pure, Except.pure]

end Read

/-! ## Keys and content -/

/-- A key pair of a curve, and JWKs that are read as its two keys. -/
structure KeyPair (C : Crypto) (crv : Curve) where
  privateKey : Bytes
  publicKey : Bytes
  privateJwk : Json
  publicJwk : Json
  pair : C.getPublicKey crv privateKey = .ok publicKey
  isPrivate : Jwk.IsPrivate crv privateJwk privateKey
  isPublic : Jwk.IsPublic C crv publicJwk publicKey

/-- What a call draws at random has the form it needs. -/
structure Entropy.Fresh (C : Crypto) (crv : Curve) (entropy : Entropy) : Prop where
  pair : C.getPublicKey crv (entropy.ephemeralPrivate crv) = .ok (entropy.ephemeralPublic crv)
  cek_length : entropy.cek.length = cekBytes
  iv_length : entropy.iv.length = ivBytes

/-- Every key pair has the JWKs `jwk.js` builds for it. -/
lemma KeyPair.of_pair (hC : C.Lawful) {crv : Curve} {a A : Bytes}
    (h : C.getPublicKey crv a = .ok A) :
    ∃ k : KeyPair C crv, k.privateKey = a ∧ k.publicKey = A ∧
      Jwk.privateJwk crv.name a A none = .ok k.privateJwk ∧
      Jwk.publicJwk crv.name A none = .ok k.publicJwk := by
  obtain ⟨priv, hpriv, isPrivate⟩ := Jwk.privateJwk_ok hC h
  obtain ⟨pub, hpub, isPublic⟩ := Jwk.publicJwk_ok hC h
  exact ⟨⟨a, A, priv, pub, h, isPrivate, isPublic⟩, rfl, rfl, hpriv, hpub⟩

/-- A key-agreement curve is supported under its name. -/
lemma supportedCurve_name (crv : Curve) : supportedCurve crv.name = some crv := by
  cases crv <;> decide

/-- A pair's public key is on its curve. -/
lemma KeyPair.recipientCurve {crv : Curve} (k : KeyPair C crv) (who : JsString) :
    recipientCurve who (some k.publicJwk) = .ok crv := by
  simp only [VtiDidcomm.recipientCurve, k.isPublic.curve, ok_bind, supportedCurve_name]
  rfl

/-- An ephemeral key is on its curve. -/
lemma epkCurve_publicJwk {crv : Curve} {A : Bytes} {jwk : Json}
    (h : Jwk.publicJwk crv.name A none = .ok jwk) : epkCurve (some jwk) = .ok crv := by
  cases crv with
  | x25519 =>
    obtain ⟨-, -, rfl⟩ | ⟨hec, -⟩ := Jwk.publicJwk_eq_ok.mp h
    · rfl
    · exact absurd hec (by decide)
  | p256 =>
    obtain ⟨hokp, -⟩ | ⟨-, x, y, -, -, -, rfl⟩ := Jwk.publicJwk_eq_ok.mp h
    · exact absurd hokp (by decide)
    · rfl

/-- What goes into the key-encryption key is read. -/
lemma kekInputs_ok {crv : Curve} (k : KeyPair C crv) (header : Json) (alg kid : JsString)
    (encryptedKey iv ciphertext tag : Bytes) {apu apv E : Bytes}
    (hepk : Jwk.rawPublic C (header.get (js "epk")) = .ok E)
    (hapu : partyInfo (header.get (js "apu")) = .ok apu)
    (hapv : partyInfo (header.get (js "apv")) = .ok apv) :
    kekInputs C (assembledJwe header alg crv kid encryptedKey iv ciphertext tag)
        ⟨kid, some k.privateJwk⟩ =
      .ok ⟨k.privateKey, E, apu, apv, encryptedKey⟩ := by
  have hkey : (recipientEntry kid encryptedKey).get (js "encrypted_key") =
      some (.str (Base64url.encode encryptedKey)) := rfl
  simp [kekInputs, assembledJwe, require_of, hepk, hapu, hapv, hkey, k.isPrivate.curve,
    k.isPrivate.raw, Base64url.decode_encode, pure, Except.pure]

/-- A message that decrypts is read. -/
lemma readMessage_ok {o : Opened} {cek : Bytes} {members : List (JsString × Json)}
    (hdecrypt : decrypt C cek o.iv o.aad o.ciphertext o.tag =
      .ok (textEncode (Json.stringify (.obj members))))
    (hparse : Parses P (.obj members)) : readMessage P C o cek = .ok (.obj members) := by
  simp only [readMessage, decryptContent, hdecrypt, ok_bind, textDecode_stringify, parseOr]
  rw [show P.parseJson _ = _ from hparse]
  rfl

/-! ## The round trips -/

/-- A sender `kid` and a `from` of its identity: a DID without a fragment. -/
structure NamesSender (kid claimed : JsString) : Prop where
  noHash : hash ∉ claimed
  identity : identityOfKid claimed = identityOfKid kid
  isDid : startsWith (identityOfKid kid) (js "did:") = true
  kid_wellFormed : isWellFormed kid = true

/-- A `from` of the sender's identity whose `src` can be sent in the `skid`. -/
structure Speaks (kid claimed : JsString) : Prop extends NamesSender kid claimed where
  src_wellFormed : ∀ src, scidSrc claimed = some src → isWellFormed src = true
  fits : (textEncode (senderKid kid (some (.str claimed)))).length ≤ 0xffffffff

/-- A key id that names its sender is there. -/
lemma NamesSender.kid_ne {kid claimed : JsString} (h : NamesSender kid claimed) : kid ≠ [] := by
  rintro rfl
  exact absurd h.isDid (by decide)

/-- Its `skid` is a DID URL. -/
lemma NamesSender.skid_did {kid claimed : JsString} (h : NamesSender kid claimed) :
    startsWith (senderKid kid (some (.str claimed))) (js "did:") = true := by
  apply startsWith_of_scidIdentity
  have := h.isDid
  rwa [← identityOfKid_senderKid kid claimed] at this

/-- The `skid` survives its way through `apu`. -/
lemma Speaks.textDecode {kid claimed : JsString} (h : Speaks kid claimed) :
    textDecode (textEncode (senderKid kid (some (.str claimed)))) =
      senderKid kid (some (.str claimed)) :=
  textDecode_did (isWellFormed_senderKid h.kid_wellFormed h.src_wellFormed) h.skid_did

/-- A key of the right form wraps and unwraps under a derived key-encryption key. -/
lemma Crypto.Lawful.kek_ok (hC : C.Lawful) (z : Bytes) (info : OtherInfo)
    (halg : info.alg = algAuthcrypt ∨ info.alg = algAnoncrypt)
    (hapu : info.apu.length ≤ 0xffffffff) (hapv : info.apv.length = 32)
    (hsupp : ∀ supp, info.suppPrivInfo = some supp → supp.length = tagBytes) :
    ∃ kek, deriveKey C z info 256 = .ok kek ∧ kek.length = 32 := by
  refine hC.deriveKey_ok z ?_ ?_ hapu (by omega) fun supp hs => ?_
  · obtain h | h := halg <;> rw [h] <;> decide
  · obtain h | h := halg <;> rw [h] <;> decide
  · rw [hsupp supp hs]
    decide

/-- The key for authcrypt is derived on both sides. -/
lemma Crypto.Lawful.kekAuthcrypt_ok (hC : C.Lawful) {crv : Curve} {e E : Bytes}
    (he : C.getPublicKey crv e = .ok E) (s r : KeyPair C crv) {apu apv tag : Bytes}
    (hapu : apu.length ≤ 0xffffffff) (hapv : apv.length = 32) (htag : tag.length = tagBytes) :
    ∃ kek, deriveKekAuthcrypt C e s.privateKey r.publicKey (authcryptInfo apu apv tag false) crv =
        .ok kek ∧
      recipientKekAuthcrypt C r.privateKey E s.publicKey (authcryptInfo apu apv tag false) crv =
        .ok kek ∧ kek.length = 32 := by
  obtain ⟨ze, hze, -⟩ := hC.sharedSecret he r.pair
  obtain ⟨zs, hzs, -⟩ := hC.sharedSecret s.pair r.pair
  have hsupp : ∀ supp, some tag = some supp → supp.length = tagBytes := by
    rintro supp ⟨⟩
    exact htag
  obtain ⟨kek, hkek, hlen⟩ := hC.kek_ok (ze ++ zs) (authcryptInfo apu apv tag false)
    (.inl rfl) hapu hapv hsupp
  have hderive : deriveKekAuthcrypt C e s.privateKey r.publicKey
      (authcryptInfo apu apv tag false) crv = .ok kek := by
    simp only [deriveKekAuthcrypt, hze, hzs, ok_bind, hkek]
  exact ⟨kek, hderive, by rw [← hC.kekAuthcrypt he s.pair r.pair, hderive], hlen⟩

/-- The key for anoncrypt is derived on both sides. -/
lemma Crypto.Lawful.kekAnoncrypt_ok (hC : C.Lawful) {crv : Curve} {e E : Bytes}
    (he : C.getPublicKey crv e = .ok E) (r : KeyPair C crv) {apv : Bytes}
    (hapv : apv.length = 32) :
    ∃ kek, deriveKekAnoncrypt C e r.publicKey (anoncryptInfo [] apv) crv = .ok kek ∧
      recipientKekAnoncrypt C r.privateKey E (anoncryptInfo [] apv) crv = .ok kek ∧
      kek.length = 32 := by
  obtain ⟨z, hz, -⟩ := hC.sharedSecret he r.pair
  obtain ⟨kek, hkek, hlen⟩ := hC.kek_ok z (anoncryptInfo [] apv) (.inr rfl)
    (Nat.zero_le _) hapv (fun supp h => nomatch h)
  have hderive : deriveKekAnoncrypt C e r.publicKey (anoncryptInfo [] apv) crv = .ok kek := by
    simp only [deriveKekAnoncrypt, hz, ok_bind, hkek]
  exact ⟨kek, hderive, by rw [← hC.kekAnoncrypt he r.pair, hderive], hlen⟩

section Authcrypt
variable {crv : Curve} {entropy : Entropy} {members : List (JsString × Json)}
  {kid recipientKid claimed : JsString} {sender recipient : KeyPair C crv}

variable (members sender recipient) in
/-- What an authcrypt call assembles, and the parts the recipient opens. -/
lemma sealAuthcrypt_ok (hC : C.Lawful) (hentropy : entropy.Fresh C crv)
    (hfrom : Json.lookup (js "from") members = some (.str claimed)) (hne : kid ≠ [])
    (hfits : (textEncode (senderKid kid (some (.str claimed)))).length ≤ 0xffffffff)
    (hkid : recipientKid ≠ []) :
    ∃ epk kek ciphertext tag encryptedKey,
      let skid := senderKid kid (some (.str claimed))
      let apu := textEncode skid
      let apv := C.sha256 (textEncode recipientKid)
      let header := authcryptHeader apu apv skid epk
      sealAuthcrypt C entropy (.obj members) ⟨kid, some sender.privateJwk⟩
          ⟨recipientKid, some recipient.publicJwk⟩ =
        .ok ⟨header, assembleJwe header recipientKid encryptedKey entropy.iv ciphertext tag⟩ ∧
      encryptedKey ≠ [] ∧ epkCurve (some epk) = .ok crv ∧
      Jwk.rawPublic C (some epk) = .ok (entropy.ephemeralPublic crv) ∧
      recipientKekAuthcrypt C recipient.privateKey (entropy.ephemeralPublic crv) sender.publicKey
        (authcryptInfo apu apv tag false) crv = .ok kek ∧
      unwrapKey C kek encryptedKey = .ok entropy.cek ∧
      decrypt C entropy.cek entropy.iv (textEncode (protectedB64 header)) ciphertext tag =
        .ok (textEncode (Json.stringify (.obj members))) := by
  obtain ⟨epk, hepk, hpub⟩ := Jwk.publicJwk_ok hC hentropy.pair
  obtain ⟨ciphertext, tag, henc, htag, hdec⟩ := hC.decrypt_of_encrypt hentropy.cek_length
    hentropy.iv_length
    (textEncode (protectedB64 (authcryptHeader (textEncode (senderKid kid (some (.str claimed))))
      (C.sha256 (textEncode recipientKid)) (senderKid kid (some (.str claimed))) epk)))
    (textEncode (Json.stringify (.obj members)))
  obtain ⟨kek, hkek, hkek', hlen⟩ := hC.kekAuthcrypt_ok hentropy.pair sender recipient hfits
    (hC.sha256_length (textEncode recipientKid)) htag
  obtain ⟨encryptedKey, hwrap, hkey, hunwrap⟩ := hC.unwrapKey_wrapKey hlen hentropy.cek_length
  refine ⟨epk, kek, ciphertext, tag, encryptedKey, ?_, hkey, epkCurve_publicJwk hepk, hpub.raw, hkek',
    hunwrap, hdec⟩
  simp [sealAuthcrypt, require_of, hne, hkid, sender.isPrivate.truthy, recipient.isPublic.truthy,
    recipient.recipientCurve, sender.isPrivate.curve, sender.isPrivate.raw, recipient.isPublic.raw,
    hfrom, hepk, henc, hkek, hwrap, pure, Except.pure]

/-- An assembled authcrypt envelope opens with its message and its sender. -/
lemma unpack_authcrypt {skid : JsString} {apu apv E kek encryptedKey cek iv ciphertext tag : Bytes}
    {epk : Json}
    (hmessage : Parses P (.obj members)) (hheader : Parses P (authcryptHeader apu apv skid epk))
    (hjwe : Parses P (assembleJwe (authcryptHeader apu apv skid epk) recipientKid encryptedKey iv
      ciphertext tag))
    (hkid : recipientKid ≠ []) (hskid : skid ≠ []) (hapu : textDecode apu = skid)
    (hne : encryptedKey ≠ []) (hcurve : epkCurve (some epk) = .ok crv)
    (hraw : Jwk.rawPublic C (some epk) = .ok E)
    (hkek : recipientKekAuthcrypt C recipient.privateKey E sender.publicKey
      (authcryptInfo apu apv tag false) crv = .ok kek)
    (hunwrap : unwrapKey C kek encryptedKey = .ok cek)
    (hdec : decrypt C cek iv (textEncode (protectedB64 (authcryptHeader apu apv skid epk)))
      ciphertext tag = .ok (textEncode (Json.stringify (.obj members))))
    (hclaims : claimsSender (.obj members) (identityOfKid skid) = true) :
    unpack P C (Json.stringify (assembleJwe (authcryptHeader apu apv skid epk) recipientKid
        encryptedKey iv ciphertext tag))
      ⟨recipientKid, some recipient.privateJwk⟩ (some sender.publicJwk) =
        .ok
          { message := .obj members
            senderKid := some skid
            senderDid := some (identityOfKid skid)
            authenticated := true
            legacyKekUsed := false } := by
  have hskid' : Json.truthy (some (.str skid)) = true := by simpa [Json.truthy] using hskid
  have hopen := openJwe_assemble (authcryptHeader apu apv skid epk) (some sender.publicJwk) rfl hjwe
    hheader hkid recipient.isPrivate.truthy hne rfl rfl hcurve rfl
    (.inl ⟨rfl, hskid', sender.isPublic.truthy⟩)
  have hinputs := kekInputs_ok recipient (authcryptHeader apu apv skid epk) algAuthcrypt recipientKid
    encryptedKey iv ciphertext tag hraw (partyInfo_encode apu) (partyInfo_encode apv)
  have hcek : unwrapCek C (assembledJwe (authcryptHeader apu apv skid epk) algAuthcrypt crv
      recipientKid encryptedKey iv ciphertext tag)
      ⟨recipient.privateKey, E, apu, apv, encryptedKey⟩ (some sender.publicJwk) =
        .ok (cek, false) := by
    have hget : (authcryptHeader apu apv skid epk).get (js "skid") = some (.str skid) := rfl
    simp [unwrapCek, unwrapAuthcrypt, assembledJwe, hget, Json.asString, require_of, hapu,
      sender.isPublic.curve, sender.isPublic.raw, hkek, hunwrap, pure, Except.pure]
  have hread : readMessage P C (assembledJwe (authcryptHeader apu apv skid epk) algAuthcrypt crv
      recipientKid encryptedKey iv ciphertext tag) cek = .ok (.obj members) :=
    readMessage_ok hdec hmessage
  have hbind : bindSender skid (.obj members) = .ok (identityOfKid skid) := by
    simp only [bindSender, require_of hclaims, ok_bind]
    rfl
  have hauth : (assembledJwe (authcryptHeader apu apv skid epk) algAuthcrypt crv recipientKid
      encryptedKey iv ciphertext tag).isAuthcrypt = true := rfl
  have hget : Json.asString ((assembledJwe (authcryptHeader apu apv skid epk) algAuthcrypt crv
      recipientKid encryptedKey iv ciphertext tag).header.get (js "skid")) = some skid := rfl
  simp only [unpack, hopen, ok_bind, hinputs, hcek, hread, hget, Option.getD_some, hbind]
  rw [if_pos hauth]
  rfl

/-- What is sealed with authcrypt opens. -/
lemma unpack_pack_authcrypt (hC : C.Lawful) (hentropy : entropy.Fresh C crv)
    (hfrom : Json.lookup (js "from") members = some (.str claimed)) (hs : Speaks kid claimed)
    (hkid : recipientKid ≠ [])
    (hjson : ∀ s, sealAuthcrypt C entropy (.obj members) ⟨kid, some sender.privateJwk⟩
        ⟨recipientKid, some recipient.publicJwk⟩ = .ok s →
      Parses P (.obj members) ∧ Parses P s.header ∧ Parses P s.jwe) :
    ∃ frame, pack C entropy (.obj members) ⟨kid, some sender.privateJwk⟩
        ⟨recipientKid, some recipient.publicJwk⟩ = .ok frame ∧
      unpack P C frame ⟨recipientKid, some recipient.privateJwk⟩ (some sender.publicJwk) =
        .ok
          { message := .obj members
            senderKid := some (senderKid kid (some (.str claimed)))
            senderDid := some (identityOfKid kid)
            authenticated := true
            legacyKekUsed := false } := by
  obtain ⟨epk, kek, ciphertext, tag, encryptedKey, hseal, hne, hcurve, hraw, hkek, hunwrap, hdec⟩ :=
    sealAuthcrypt_ok members sender recipient hC hentropy hfrom hs.kid_ne hs.fits hkid
  obtain ⟨hmessage, hheader, hjwe⟩ := hjson _ hseal
  refine ⟨_, by rw [pack, hseal]; rfl, ?_⟩
  have hskid : senderKid kid (some (.str claimed)) ≠ [] := by
    intro h
    have hdid := hs.skid_did
    rw [h] at hdid
    exact absurd hdid (by decide)
  have hclaims : claimsSender (.obj members) (identityOfKid (senderKid kid (some (.str claimed)))) =
      true := by
    simp [claimsSender, identityOfKid_senderKid, hs.isDid, hfrom, Json.asString,
      includes_eq_false.mpr hs.noHash, hs.identity]
  rw [← identityOfKid_senderKid kid claimed]
  exact unpack_authcrypt hmessage hheader hjwe hkid hskid hs.textDecode hne hcurve hraw hkek hunwrap
    hdec hclaims

end Authcrypt

section Anoncrypt
variable {crv : Curve} {entropy : Entropy} {members : List (JsString × Json)}
  {recipientKid : JsString} {recipient : KeyPair C crv}

variable (members recipient) in
/-- What an anoncrypt call assembles, and the parts the recipient opens. -/
lemma sealAnoncrypt_ok (hC : C.Lawful) (hentropy : entropy.Fresh C crv) (hkid : recipientKid ≠ []) :
    ∃ epk kek ciphertext tag encryptedKey,
      let apv := C.sha256 (textEncode recipientKid)
      let header := anoncryptHeader apv epk
      sealAnoncrypt C entropy (.obj members) ⟨recipientKid, some recipient.publicJwk⟩ =
        .ok ⟨header, assembleJwe header recipientKid encryptedKey entropy.iv ciphertext tag⟩ ∧
      encryptedKey ≠ [] ∧ epkCurve (some epk) = .ok crv ∧
      Jwk.rawPublic C (some epk) = .ok (entropy.ephemeralPublic crv) ∧
      recipientKekAnoncrypt C recipient.privateKey (entropy.ephemeralPublic crv)
        (anoncryptInfo [] apv) crv = .ok kek ∧
      unwrapKey C kek encryptedKey = .ok entropy.cek ∧
      decrypt C entropy.cek entropy.iv (textEncode (protectedB64 header)) ciphertext tag =
        .ok (textEncode (Json.stringify (.obj members))) := by
  obtain ⟨epk, hepk, hpub⟩ := Jwk.publicJwk_ok hC hentropy.pair
  obtain ⟨ciphertext, tag, henc, htag, hdec⟩ := hC.decrypt_of_encrypt hentropy.cek_length
    hentropy.iv_length
    (textEncode (protectedB64 (anoncryptHeader (C.sha256 (textEncode recipientKid)) epk)))
    (textEncode (Json.stringify (.obj members)))
  obtain ⟨kek, hkek, hkek', hlen⟩ := hC.kekAnoncrypt_ok hentropy.pair recipient
    (hC.sha256_length (textEncode recipientKid))
  obtain ⟨encryptedKey, hwrap, hne, hunwrap⟩ := hC.unwrapKey_wrapKey hlen hentropy.cek_length
  refine ⟨epk, kek, ciphertext, tag, encryptedKey, ?_, hne, epkCurve_publicJwk hepk, hpub.raw, hkek',
    hunwrap, hdec⟩
  simp [sealAnoncrypt, require_of, hkid, recipient.isPublic.truthy, recipient.recipientCurve,
    recipient.isPublic.raw, hepk, henc, hkek, hwrap, pure, Except.pure]

/-- An anoncrypt envelope opens with its message and no sender, whatever sender key is given. -/
lemma unpack_pack_anoncrypt (hC : C.Lawful) (hentropy : entropy.Fresh C crv)
    (hkid : recipientKid ≠ []) (sender : Option Json)
    (hjson : ∀ s, sealAnoncrypt C entropy (.obj members)
        ⟨recipientKid, some recipient.publicJwk⟩ = .ok s →
      Parses P (.obj members) ∧ Parses P s.header ∧ Parses P s.jwe) :
    ∃ frame, packAnoncrypt C entropy (.obj members) ⟨recipientKid, some recipient.publicJwk⟩ =
        .ok frame ∧
      unpack P C frame ⟨recipientKid, some recipient.privateJwk⟩ sender =
        .ok
          { message := .obj members
            senderKid := none
            senderDid := none
            authenticated := false
            legacyKekUsed := false } := by
  obtain ⟨epk, kek, ciphertext, tag, encryptedKey, hseal, hne, hcurve, hraw, hkek, hunwrap, hdec⟩ :=
    sealAnoncrypt_ok members recipient hC hentropy hkid
  obtain ⟨hmessage, hheader, hjwe⟩ := hjson _ hseal
  refine ⟨_, by rw [packAnoncrypt, hseal]; rfl, ?_⟩
  generalize hapv : C.sha256 (textEncode recipientKid) = apv at *
  have hopen := openJwe_assemble (anoncryptHeader apv epk) sender rfl hjwe hheader hkid
    recipient.isPrivate.truthy hne rfl rfl hcurve rfl (.inr rfl)
  have hinputs := kekInputs_ok recipient (anoncryptHeader apv epk) algAnoncrypt recipientKid
    encryptedKey entropy.iv ciphertext tag hraw rfl (partyInfo_encode apv)
  have hcek : unwrapCek C (assembledJwe (anoncryptHeader apv epk) algAnoncrypt crv recipientKid
      encryptedKey entropy.iv ciphertext tag)
      ⟨recipient.privateKey, entropy.ephemeralPublic crv, [], apv, encryptedKey⟩ sender =
        .ok (entropy.cek, false) := by
    have hne : algAnoncrypt ≠ algAuthcrypt := by decide
    simp [unwrapCek, unwrapAnoncrypt, assembledJwe, hne, hkek, hunwrap, pure, Except.pure]
  have hread : readMessage P C (assembledJwe (anoncryptHeader apv epk) algAnoncrypt crv recipientKid
      encryptedKey entropy.iv ciphertext tag) entropy.cek = .ok (.obj members) :=
    readMessage_ok hdec hmessage
  have hauth : (assembledJwe (anoncryptHeader apv epk) algAnoncrypt crv recipientKid encryptedKey
      entropy.iv ciphertext tag).isAuthcrypt = false :=
    show decide (algAnoncrypt = algAuthcrypt) = false by decide
  simp only [unpack, hopen, ok_bind, hinputs, hcek, hread, hauth, Bool.false_eq_true, if_false]
  rfl

end Anoncrypt

/-- `JSON.parse` reads back the three values a sealed envelope is printed from. -/
def Reads (P : Platform) (members : List (JsString × Json)) (sealed : Except JsError Sealed) : Prop :=
  ∀ s, sealed = .ok s → Parses P (.obj members) ∧ Parses P s.header ∧ Parses P s.jwe

/-- Authcrypt and anoncrypt round trips, on either curve: what was packed opens with the same
message; an authcrypt envelope with its sender, under the current key derivation, an anoncrypt
envelope with none. -/
theorem unpack_pack (hC : C.Lawful) {crv : Curve} {entropy : Entropy}
    (hentropy : entropy.Fresh C crv) (recipient : KeyPair C crv) {recipientKid : JsString}
    (hkid : recipientKid ≠ []) (members : List (JsString × Json)) :
    (∀ (sender : KeyPair C crv) (kid claimed : JsString),
      Json.lookup (js "from") members = some (.str claimed) → Speaks kid claimed →
      Reads P members (sealAuthcrypt C entropy (.obj members) ⟨kid, some sender.privateJwk⟩
        ⟨recipientKid, some recipient.publicJwk⟩) →
      ∃ frame r, pack C entropy (.obj members) ⟨kid, some sender.privateJwk⟩
          ⟨recipientKid, some recipient.publicJwk⟩ = .ok frame ∧
        unpack P C frame ⟨recipientKid, some recipient.privateJwk⟩ (some sender.publicJwk) = .ok r ∧
        r.message = .obj members ∧ r.authenticated = true ∧ r.legacyKekUsed = false ∧
        r.senderDid = some (identityOfKid kid) ∧
        ∃ skid, r.senderKid = some skid ∧ sameReference skid kid = true) ∧
    (∀ sender : Option Json,
      Reads P members (sealAnoncrypt C entropy (.obj members)
        ⟨recipientKid, some recipient.publicJwk⟩) →
      ∃ frame r, packAnoncrypt C entropy (.obj members) ⟨recipientKid, some recipient.publicJwk⟩ =
          .ok frame ∧
        unpack P C frame ⟨recipientKid, some recipient.privateJwk⟩ sender = .ok r ∧
        r.message = .obj members ∧ r.authenticated = false ∧ r.senderKid = none ∧
        r.senderDid = none) := by
  constructor
  · intro sender kid claimed hfrom hs hjson
    obtain ⟨frame, hpack, hunpack⟩ := unpack_pack_authcrypt hC hentropy hfrom hs hkid hjson
    exact ⟨frame, _, hpack, hunpack, rfl, rfl, rfl, rfl, _, rfl, sameReference_senderKid kid claimed⟩
  · intro sender hjson
    obtain ⟨frame, hpack, hunpack⟩ := unpack_pack_anoncrypt hC hentropy hkid sender hjson
    exact ⟨frame, _, hpack, hunpack, rfl, rfl, rfl, rfl⟩

/-! ## A sample run -/

/-- The JWK of a sample key spells it, with a private key or without. -/
lemma spells_sample (n : UInt8) :
    Jwk.Spells Crypto.sample (Jwk.okpJwk (js "X25519") (List.replicate 32 n) none) Curve.x25519.name
        (List.replicate 32 n) ∧
      ∀ d, Jwk.Spells Crypto.sample
        (Jwk.withPrivate (Jwk.okpJwk (js "X25519") (List.replicate 32 n) none) d) Curve.x25519.name
        (List.replicate 32 n) :=
  Jwk.spells_publicJwk rfl fun hec => absurd hec (by decide)

/-- An X25519 key pair of the sample primitives. -/
def KeyPair.sample (n : UInt8) : KeyPair Crypto.sample .x25519 where
  privateKey := List.replicate 32 n
  publicKey := List.replicate 32 n
  privateJwk := Jwk.withPrivate (Jwk.okpJwk (js "X25519") (List.replicate 32 n) none)
    (List.replicate 32 n)
  publicJwk := Jwk.okpJwk (js "X25519") (List.replicate 32 n) none
  pair := rfl
  isPrivate := ((spells_sample n).2 _).isPrivate rfl rfl
  isPublic := (spells_sample n).1.isPublic

/-- Sample randomness. -/
def Entropy.sample : Entropy where
  ephemeralPrivate _ := List.replicate 32 1
  ephemeralPublic crv := samplePublic crv (List.replicate 32 1)
  cek := List.replicate 64 2
  iv := List.replicate 16 3

/-- The sample randomness is fresh. -/
lemma Entropy.sample_fresh (crv : Curve) : Entropy.sample.Fresh Crypto.sample crv :=
  ⟨rfl, rfl, rfl⟩

lemma reads_reading {claimed : JsString} {alg : JsString × Json}
    {members : List (JsString × Json)} {kid : JsString} {encryptedKey iv ciphertext tag : Bytes} :
    let message := Json.obj [(js "from", .str claimed)]
    let header := Json.obj ((js "typ", .str typEncrypted) :: alg :: members)
    let jwe := assembleJwe header kid encryptedKey iv ciphertext tag
    let P := Platform.reading [message, header, jwe]
    Parses P message ∧ Parses P header ∧ Parses P jwe := by
  intro message header jwe P
  -- The three texts differ in their third character.
  have hmessage : (Json.stringify message)[2]? = some 0x66 := rfl
  have hheader : (Json.stringify header)[2]? = some 0x74 := rfl
  have hjwe : (Json.stringify jwe)[2]? = some 0x70 := rfl
  have hne₁ : Json.stringify message ≠ Json.stringify header := by
    intro h
    rw [h, hheader] at hmessage
    exact absurd hmessage (by decide)
  have hne₂ : Json.stringify message ≠ Json.stringify jwe := by
    intro h
    rw [h, hjwe] at hmessage
    exact absurd hmessage (by decide)
  have hne₃ : Json.stringify header ≠ Json.stringify jwe := by
    intro h
    rw [h, hjwe] at hheader
    exact absurd hheader (by decide)
  refine ⟨?_, ?_, ?_⟩
  · simp [Parses, P, Platform.reading]
  · simp [Parses, P, Platform.reading, hne₁]
  · simp [Parses, P, Platform.reading, hne₂, hne₃]

/-- A did:scid sender with a `src`: the envelope opens as its bare identity. -/
theorem unpack_pack_example :
    ∃ (P : Platform) (frame : JsString) (r : Unpacked),
      pack Crypto.sample Entropy.sample
          (.obj [(js "from", .str (js "did:scid:vh:1:Qm?src=a.example"))])
          ⟨js "did:scid:vh:1:Qm#k", some (KeyPair.sample 5).privateJwk⟩
          ⟨js "did:ex:bob#1", some (KeyPair.sample 6).publicJwk⟩ = .ok frame ∧
        unpack P Crypto.sample frame ⟨js "did:ex:bob#1", some (KeyPair.sample 6).privateJwk⟩
          (some (KeyPair.sample 5).publicJwk) = .ok r ∧
        r.senderDid = some (js "did:scid:vh:1:Qm") := by
  have hs : Speaks (js "did:scid:vh:1:Qm#k") (js "did:scid:vh:1:Qm?src=a.example") :=
    { noHash := by decide
      identity := by decide
      isDid := by decide
      kid_wellFormed := by decide
      src_wellFormed := by
        intro src h
        have hsrc : src = js "a.example" := (Option.some_inj.mp h).symm
        rw [hsrc]
        decide
      fits := by decide }
  have hkid : js "did:ex:bob#1" ≠ [] := by decide
  obtain ⟨epk, kek, ciphertext, tag, encryptedKey, hseal, -⟩ :=
    sealAuthcrypt_ok [(js "from", .str (js "did:scid:vh:1:Qm?src=a.example"))] (KeyPair.sample 5)
      (KeyPair.sample 6) Crypto.sample_lawful (Entropy.sample_fresh .x25519) rfl hs.kid_ne hs.fits
      hkid
  have hroundtrip := (unpack_pack Crypto.sample_lawful (Entropy.sample_fresh .x25519)
    (KeyPair.sample 6) hkid _).1 (KeyPair.sample 5) _ _ rfl hs fun s h => by
      cases hseal.symm.trans h
      exact reads_reading
  obtain ⟨frame, r, hpack, hunpack, -, -, -, hdid, -⟩ := hroundtrip
  exact ⟨_, frame, r, hpack, hunpack, hdid⟩

/-! ## What the conditions exclude -/

/-- A sealed envelope has a recipient kid, and its `skid` fits its length prefix. -/
lemma sealAuthcrypt_eq_ok {entropy : Entropy} {message : Json} {sender : PackSender}
    {recipient : PackRecipient} {s : Sealed}
    (h : sealAuthcrypt C entropy message sender recipient = .ok s) :
    recipient.kid ≠ [] ∧
      (textEncode (senderKid sender.kid (message.get (js "from")))).length ≤ 0xffffffff := by
  obtain ⟨_, -, h⟩ := bind_eq_ok.mp h
  obtain ⟨_, hkid, h⟩ := bind_eq_ok.mp h
  obtain ⟨crv, -, h⟩ := bind_eq_ok.mp h
  obtain ⟨senderCrv, -, h⟩ := bind_eq_ok.mp h
  obtain ⟨_, -, h⟩ := bind_eq_ok.mp h
  obtain ⟨senderPriv, -, h⟩ := bind_eq_ok.mp h
  obtain ⟨recipientPub, -, h⟩ := bind_eq_ok.mp h
  obtain ⟨epk, -, h⟩ := bind_eq_ok.mp h
  obtain ⟨⟨ciphertext, tag⟩, -, h⟩ := bind_eq_ok.mp h
  obtain ⟨kek, hkek, -⟩ := bind_eq_ok.mp h
  refine ⟨(require_eq_ok.mp hkid).1, ?_⟩
  obtain ⟨ze, -, hkek⟩ := bind_eq_ok.mp hkek
  obtain ⟨zs, -, hkek⟩ := bind_eq_ok.mp hkek
  obtain ⟨_, -, hkek⟩ := bind_eq_ok.mp hkek
  obtain ⟨_, -, hkek⟩ := bind_eq_ok.mp hkek
  obtain ⟨supp, -, hkek⟩ := bind_eq_ok.mp hkek
  obtain ⟨algInfo, -, hkek⟩ := bind_eq_ok.mp hkek
  obtain ⟨apuInfo, hapu, -⟩ := bind_eq_ok.mp hkek
  obtain ⟨size, hsize, -⟩ := bind_eq_ok.mp hapu
  obtain ⟨_, hle, -⟩ := bind_eq_ok.mp hsize
  exact require_eq_ok.mp hle

/-- An authcrypt envelope only opens when its `apu` decodes to its `skid`. -/
lemma textDecode_of_unpack {kid skid : JsString} {apu apv encryptedKey iv ciphertext tag : Bytes}
    {epk : Json} {recipient : Recipient} {sender : Option Json} {r : Unpacked}
    (hheader : Parses P (authcryptHeader apu apv skid epk))
    (hjwe : Parses P (assembleJwe (authcryptHeader apu apv skid epk) kid encryptedKey iv ciphertext
      tag))
    (h : unpack P C (Json.stringify (assembleJwe (authcryptHeader apu apv skid epk) kid encryptedKey
      iv ciphertext tag)) recipient sender = .ok r) : textDecode apu = skid := by
  obtain ⟨o, k, cek, haccepts, -⟩ := unpack_eq_ok h
  obtain ⟨jwe, recipients, alg, hread, hauth, -⟩ := openJwe_eq_ok haccepts.opened
  have hassembled := readJwe_assemble hjwe hheader
  have hparts := hread.symm.trans hassembled
  simp only [Except.ok.injEq, Prod.mk.injEq] at hparts
  obtain ⟨-, -, hheader', rfl⟩ := hparts
  have hauth' : o.isAuthcrypt = true := by
    rw [hauth]
    exact decide_eq_true rfl
  have hcek := haccepts.unwrapped
  rw [unwrapCek, if_pos hauth'] at hcek
  obtain ⟨hskid, -⟩ := unwrapAuthcrypt_eq_ok hcek
  obtain ⟨crv, -, hinputs⟩ := bind_eq_ok.mp haccepts.inputs
  obtain ⟨_, -, hinputs⟩ := bind_eq_ok.mp hinputs
  obtain ⟨recipientPriv, -, hinputs⟩ := bind_eq_ok.mp hinputs
  obtain ⟨E, -, hinputs⟩ := bind_eq_ok.mp hinputs
  obtain ⟨apu', hapu, hinputs⟩ := bind_eq_ok.mp hinputs
  obtain ⟨apv', -, hinputs⟩ := bind_eq_ok.mp hinputs
  obtain ⟨encryptedKey', -, hinputs⟩ := bind_eq_ok.mp hinputs
  cases hinputs
  rw [hheader'] at hskid hapu
  have hapu' := (partyInfo_encode apu).symm.trans hapu
  cases hapu'
  have hget : (authcryptHeader apu apv skid epk).get (js "skid") = some (.str skid) := rfl
  have := hget.symm.trans hskid
  simp only [Option.some.injEq, Json.str.injEq] at this
  exact this.symm

/-- A `from` whose `src` is a lone surrogate. -/
def surrogateFrom : JsString := js "did:scid:vh:1:Qm?src=" ++ [0xD800]

/-- A kid too long for the length prefix of `apu`. -/
def longKid (n : Nat) : JsString := js "did:" ++ List.replicate n 0x61

/-- A long key id names its sender. -/
lemma namesSender_longKid (n : Nat) : NamesSender (longKid n) (longKid n) where
  noHash := by
    simp only [longKid, List.mem_append, List.mem_replicate, not_or]
    exact ⟨by decide, fun h => absurd h.2 (by decide)⟩
  identity := rfl
  isDid := startsWith_scidIdentity (startsWith_append _ _) (by decide) (by decide)
  kid_wellFormed := by
    refine isWellFormed_append (by decide) (isWellFormed_of_forall fun c hc => ?_)
    rw [List.eq_of_mem_replicate hc]
    decide

/-- A long key id is its own `skid`. -/
lemma senderKid_longKid (n : Nat) :
    senderKid (longKid n) (some (.str (longKid n))) = longKid n := by
  obtain h | ⟨src, hsrc, -⟩ := senderKid_cases (longKid n) (longKid n)
  · exact h
  · obtain ⟨did, fragment, hshape⟩ := scidSrc_eq_some.mp hsrc
    have hmem : question ∈ longKid n := by
      rw [hshape.eq]
      simp
    simp only [longKid, List.mem_append, List.mem_replicate] at hmem
    obtain hmem | ⟨-, hmem⟩ := hmem
    · exact absurd hmem (by decide)
    · exact absurd hmem (by decide)

/-- `pack` refuses a kid of more bytes than a length prefix can count. -/
lemma pack_longKid {n : Nat} (hn : 0xffffffff < n) (entropy : Entropy) (privateJwk : Option Json)
    (recipient : PackRecipient) (frame : JsString) :
    pack C entropy (.obj [(js "from", .str (longKid n))]) ⟨longKid n, privateJwk⟩ recipient ≠
      .ok frame := by
  intro h
  obtain ⟨s, hs, -⟩ := bind_eq_ok.mp h
  have hfits := (sealAuthcrypt_eq_ok hs).2
  rw [Json.get_obj, Json.lookup_cons_self, senderKid_longKid] at hfits
  have hlen := length_le_textEncode (longKid n)
  have hkid : n ≤ (longKid n).length := by simp [longKid]
  omega

/-- The round trip fails for an empty recipient kid, which `pack` refuses, for a `src` that is not
well-formed, whose envelope does not open, and for a `skid` of 2^32 bytes, which `pack` refuses. -/
theorem unpack_pack_limits :
    (NamesSender (js "did:ex:alice#1") (js "did:ex:alice") ∧
      ∀ frame, pack Crypto.sample Entropy.sample (.obj [(js "from", .str (js "did:ex:alice"))])
        ⟨js "did:ex:alice#1", some (KeyPair.sample 5).privateJwk⟩
        ⟨[], some (KeyPair.sample 6).publicJwk⟩ ≠ .ok frame) ∧
    (NamesSender (js "did:scid:vh:1:Qm#k") surrogateFrom ∧
      ∃ frame, pack Crypto.sample Entropy.sample (.obj [(js "from", .str surrogateFrom)])
          ⟨js "did:scid:vh:1:Qm#k", some (KeyPair.sample 5).privateJwk⟩
          ⟨js "did:ex:bob#1", some (KeyPair.sample 6).publicJwk⟩ = .ok frame ∧
        ∀ P : Platform, Reads P [(js "from", .str surrogateFrom)]
            (sealAuthcrypt Crypto.sample Entropy.sample (.obj [(js "from", .str surrogateFrom)])
              ⟨js "did:scid:vh:1:Qm#k", some (KeyPair.sample 5).privateJwk⟩
              ⟨js "did:ex:bob#1", some (KeyPair.sample 6).publicJwk⟩) →
          ∀ recipient sender r, unpack P Crypto.sample frame recipient sender ≠ .ok r) ∧
    (NamesSender (longKid (2 ^ 32)) (longKid (2 ^ 32)) ∧
      ∀ frame, pack Crypto.sample Entropy.sample (.obj [(js "from", .str (longKid (2 ^ 32)))])
        ⟨longKid (2 ^ 32), some (KeyPair.sample 5).privateJwk⟩
        ⟨js "did:ex:bob#1", some (KeyPair.sample 6).publicJwk⟩ ≠ .ok frame) := by
  refine ⟨⟨⟨by decide, by decide, by decide, by decide⟩, ?_⟩,
    ⟨⟨by decide, by decide, by decide, by decide⟩, ?_⟩, namesSender_longKid _, ?_⟩
  · intro frame h
    obtain ⟨s, hs, -⟩ := bind_eq_ok.mp h
    exact absurd rfl (sealAuthcrypt_eq_ok hs).1
  · obtain ⟨epk, kek, ciphertext, tag, encryptedKey, hseal, -⟩ :=
      sealAuthcrypt_ok [(js "from", .str surrogateFrom)] (KeyPair.sample 5) (KeyPair.sample 6)
        Crypto.sample_lawful (Entropy.sample_fresh .x25519) rfl
        (show js "did:scid:vh:1:Qm#k" ≠ [] by decide) (by decide)
        (show js "did:ex:bob#1" ≠ [] by decide)
    refine ⟨_, by rw [pack, hseal]; rfl, fun P hreads recipient sender r h => ?_⟩
    obtain ⟨-, hheader, hjwe⟩ := hreads _ hseal
    exact absurd (textDecode_of_unpack hheader hjwe h) (by decide)
  · exact pack_longKid (by decide) _ _ _

end VtiDidcomm
