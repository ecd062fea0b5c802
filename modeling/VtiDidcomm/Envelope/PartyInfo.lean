import VtiDidcomm.Envelope.RoundTrip
import VtiDidcomm.Js.Utf8Exact

/-!
# The sender in the key derivation

`unpack` compares the text of `apu` with the `skid`, and derives the key from the bytes. The two are
the same for bytes that survive decoding (`apu_pinned_iff`); the holder of a sender's key can seal
an envelope under any others of the same text (`exists_accepted`).
-/

namespace VtiDidcomm
open Js

variable {P : Platform} {C : Crypto}

/-- What an accepted authcrypt envelope is derived from: `apu` of the text that it returns as the
sender's kid. -/
lemma apu_of_unpack {jweJson : JsString} {recipient : Recipient} {sender : Option Json} {r : Unpacked}
    {o : Opened} {k : KekInputs} (h : unpack P C jweJson recipient sender = .ok r)
    (hopen : openJwe P jweJson recipient sender = .ok o) (hinputs : kekInputs C o recipient = .ok k)
    (hauth : o.isAuthcrypt = true) :
    r.senderKid = some (textDecode k.apu) ∧
      ∃ cek, UnwrapsUnder C o k sender cek r.legacyKekUsed := by
  obtain ⟨o', k', cek, haccepts, hcase⟩ := unpack_eq_ok h
  cases haccepts.opened.symm.trans hopen
  cases haccepts.inputs.symm.trans hinputs
  have hcek := haccepts.unwrapped
  rw [unwrapCek, if_pos hauth] at hcek
  obtain ⟨hskid, hunder⟩ := unwrapAuthcrypt_eq_ok hcek
  cases hcase with
  | inl hnamed =>
    obtain ⟨-, -, skid, hget, hkid, -⟩ := hnamed
    cases hget.symm.trans hskid
    exact ⟨hkid, cek, hunder⟩
  | inr hanon =>
    rw [hanon.1] at hauth
    cases hauth

/-- The bytes that an accepted authcrypt envelope's key is derived from are the UTF-8 of the
sender's kid that it returns, exactly when they are UTF-8 that begins with no byte order mark. -/
theorem apu_pinned_iff {jweJson : JsString} {recipient : Recipient} {sender : Option Json}
    {r : Unpacked} {o : Opened} {k : KekInputs} (h : unpack P C jweJson recipient sender = .ok r)
    (hopen : openJwe P jweJson recipient sender = .ok o) (hinputs : kekInputs C o recipient = .ok k)
    (hauth : o.isAuthcrypt = true) :
    ∃ skid cek, r.senderKid = some skid ∧ UnwrapsUnder C o k sender cek r.legacyKekUsed ∧
      (k.apu = textEncode skid ↔ IsUtf8 k.apu ∧ ¬ markBytes <+: k.apu) := by
  obtain ⟨hkid, cek, hunder⟩ := apu_of_unpack h hopen hinputs hauth
  refine ⟨_, cek, hkid, hunder, ?_⟩
  rw [← textEncode_textDecode_iff, eq_comm]

/-! ## Envelopes of any `apu` -/

section

variable {crv : Curve} {entropy : Entropy} {skid recipientKid : JsString}

/-- What the sender of `skid` can send under an `apu`: an envelope that is accepted with it. -/
structure AcceptedUnder (P : Platform) (C : Crypto) (skid : JsString) (apu : Bytes) (jweJson : JsString)
    (recipient : Recipient) (sender : Option Json) (r : Unpacked) (o : Opened) (k : KekInputs) :
    Prop where
  accepted : unpack P C jweJson recipient sender = .ok r
  opened : openJwe P jweJson recipient sender = .ok o
  inputs : kekInputs C o recipient = .ok k
  isAuthcrypt : o.isAuthcrypt = true
  apu : k.apu = apu
  senderKid : r.senderKid = some skid

/-- Any bytes that decode to `skid` are accepted as `apu`. -/
lemma exists_accepted (hC : C.Lawful) (hentropy : entropy.Fresh C crv) (sender recipient : KeyPair C crv)
    (members : List (JsString × Json)) (hskid : skid ≠ []) (hkid : recipientKid ≠ [])
    (hclaims : claimsSender (.obj members) (identityOfKid skid) = true) {apu : Bytes}
    (hapu : textDecode apu = skid) (hfits : apu.length ≤ 0xffffffff) :
    ∃ epk encryptedKey ciphertext tag,
      let header := authcryptHeader apu (C.sha256 (textEncode recipientKid)) skid epk
      let jwe := assembleJwe header recipientKid encryptedKey entropy.iv ciphertext tag
      ∀ P, Parses P (.obj members) → Parses P header → Parses P jwe →
        ∃ r o k, AcceptedUnder P C skid apu (Json.stringify jwe)
          ⟨recipientKid, some recipient.privateJwk⟩ (some sender.publicJwk) r o k := by
  obtain ⟨epk, hepk, hpub⟩ := Jwk.publicJwk_ok hC hentropy.pair
  obtain ⟨ciphertext, tag, -, htag, hdec⟩ := hC.decrypt_of_encrypt hentropy.cek_length
    hentropy.iv_length
    (textEncode (protectedB64 (authcryptHeader apu (C.sha256 (textEncode recipientKid)) skid epk)))
    (textEncode (Json.stringify (.obj members)))
  obtain ⟨kek, -, hkek, hlen⟩ := hC.kekAuthcrypt_ok hentropy.pair sender recipient hfits
    (hC.sha256_length (textEncode recipientKid)) htag
  obtain ⟨encryptedKey, -, hne, hunwrap⟩ := hC.unwrapKey_wrapKey hlen hentropy.cek_length
  refine ⟨epk, encryptedKey, ciphertext, tag, ?_⟩
  intro header jwe P hmessage hheader hjwe
  have hskid' : Json.truthy (some (.str skid)) = true := by simpa [Json.truthy] using hskid
  have hcurve := epkCurve_publicJwk hepk
  have hopen := openJwe_assemble header (some sender.publicJwk) rfl hjwe hheader hkid
    recipient.isPrivate.truthy hne rfl rfl hcurve rfl
    (.inl ⟨rfl, hskid', sender.isPublic.truthy⟩)
  have hinputs := kekInputs_ok recipient header algAuthcrypt recipientKid encryptedKey entropy.iv
    ciphertext tag hpub.raw (partyInfo_encode apu) (partyInfo_encode _)
  have hunpack := unpack_authcrypt hmessage hheader hjwe hkid hskid hapu hne hcurve hpub.raw hkek
    hunwrap hdec hclaims
  exact ⟨_, _, _, hunpack, hopen, hinputs, rfl, rfl, rfl⟩

end

/-- An envelope from a sample sender under `apu`. -/
lemma exists_accepted_sample (apu : Bytes) (hapu : textDecode apu = js "did:ex:alice#1")
    (hfits : apu.length ≤ 0xffffffff) :
    ∃ P jweJson recipient sender r o k,
      AcceptedUnder P Crypto.sample (js "did:ex:alice#1") apu jweJson recipient sender r o k := by
  obtain ⟨epk, encryptedKey, ciphertext, tag, h⟩ := exists_accepted Crypto.sample_lawful
    (Entropy.sample_fresh .x25519) (KeyPair.sample 5) (KeyPair.sample 6)
    [(js "from", .str (js "did:ex:alice"))] (by decide)
    (show js "did:ex:bob#1" ≠ [] by decide) (by decide) hapu hfits
  obtain ⟨hmessage, hheader, hjwe⟩ := @reads_reading (js "did:ex:alice") _ _ _ _ _ _ _
  obtain ⟨r, o, k, haccepted⟩ := h _ hmessage hheader hjwe
  exact ⟨_, _, _, _, r, o, k, haccepted⟩

theorem apu_pinned_iff_sample :
    ∃ P jweJson recipient sender r o k,
      AcceptedUnder P Crypto.sample (js "did:ex:alice#1") (textEncode (js "did:ex:alice#1")) jweJson
        recipient sender r o k ∧
      ∃ skid, r.senderKid = some skid ∧ IsUtf8 k.apu ∧ ¬ markBytes <+: k.apu := by
  obtain ⟨P, jweJson, recipient, sender, r, o, k, h⟩ :=
    exists_accepted_sample (textEncode (js "did:ex:alice#1")) (by decide) (by decide)
  obtain ⟨skid, -, hkid, -, hiff⟩ := apu_pinned_iff h.accepted h.opened h.inputs h.isAuthcrypt
  have hskid : js "did:ex:alice#1" = skid := Option.some.inj (h.senderKid.symm.trans hkid)
  exact ⟨P, jweJson, recipient, sender, r, o, k, h, skid, hkid, hiff.mp (by rw [h.apu, hskid])⟩

/-- A byte order mark before the sender's kid passes the check. -/
theorem apu_not_pinned :
    ¬ ∀ (P : Platform) (C : Crypto) (jweJson : JsString) (recipient : Recipient)
        (sender : Option Json) (r : Unpacked) (o : Opened) (k : KekInputs),
      unpack P C jweJson recipient sender = .ok r → openJwe P jweJson recipient sender = .ok o →
        kekInputs C o recipient = .ok k → o.isAuthcrypt = true →
          ∃ skid, r.senderKid = some skid ∧ k.apu = textEncode skid := by
  intro hpinned
  obtain ⟨P, jweJson, recipient, sender, r, o, k, h⟩ :=
    exists_accepted_sample (markBytes ++ textEncode (js "did:ex:alice#1")) (by decide)
      (by decide)
  obtain ⟨skid, hkid, hapu⟩ := hpinned P Crypto.sample jweJson recipient sender r o k h.accepted
    h.opened h.inputs h.isAuthcrypt
  have hskid : js "did:ex:alice#1" = skid := Option.some.inj (h.senderKid.symm.trans hkid)
  rw [h.apu, ← hskid] at hapu
  exact absurd hapu (by decide)

end VtiDidcomm
