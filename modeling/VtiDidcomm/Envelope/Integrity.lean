import VtiDidcomm.Codec.Base64Text
import VtiDidcomm.Envelope.ContentTag
import VtiDidcomm.Envelope.JwkForms
import VtiDidcomm.Envelope.KdfInput
import VtiDidcomm.Envelope.PartyInfo
import VtiDidcomm.Envelope.Printed

/-!
# Integrity of an envelope

What another envelope can differ in that is accepted too. Its parts are tied to each other: the text
of the protected header is the additional data of the content's tag, and the tag is in the input of
the key-encryption key. `envelope_integrity` follows these ties from the key-encryption key down.
The other members of the JWE are not looked at (`unpack_congr`).
-/

namespace VtiDidcomm
open Js

/-! ## The protected text -/

namespace Base64url

/-- Only ASCII decodes. -/
lemma lt_of_mem_decodeText {s : JsString} {bytes : List UInt8} (h : decodeText s = .ok bytes)
    {c : CodeUnit} (hc : c ∈ s) : c < 0x80 := by
  obtain ⟨ds, hnorm, hds, -⟩ := decodeText_eq_ok.mp h
  have table : ∀ d : Fin 64, b64Char d < 0x80 := by decide +kernel
  by_cases hspecial : c = 0x2B ∨ c = 0x2F ∨ c = 0x3D
  · obtain rfl | rfl | rfl := hspecial <;> decide
  · simp only [not_or] at hspecial
    obtain ⟨hplus, hslash, hpad⟩ := hspecial
    have hmem : c ∈ replaceAll (replaceAll s 0x2B 0x2D) 0x2F 0x5F := by
      simp only [replaceAll, List.mem_map]
      exact ⟨c, ⟨c, hc, if_neg hplus⟩, if_neg hslash⟩
    have hdigit : c ∈ norm s := mem_trimEnd hmem hpad
    rw [hnorm] at hdigit
    obtain ⟨d, hd, rfl⟩ := List.mem_map.mp hdigit
    exact table ⟨d, hds d hd⟩

/-- A text that decodes is well formed. -/
lemma isWellFormed_of_decodeText {s : JsString} {bytes : List UInt8}
    (h : decodeText s = .ok bytes) : isWellFormed s = true := by
  apply isWellFormed_of_forall
  intro c hc
  have hlt := lt_of_mem_decodeText h hc
  simp only [isSurrogate, Json.isHighSurrogate, Json.isLowSurrogate, Bool.or_eq_false_iff,
    Bool.and_eq_false_iff, decide_eq_false_iff_not]
  have hnat : c.toNat < 0x80 := hlt
  have hnot (n : CodeUnit) (hn : 0x80 ≤ n.toNat) : ¬ n ≤ c := by
    rw [UInt16.le_iff_toNat_le]
    omega
  exact ⟨.inl (hnot _ (by decide)), .inl (hnot _ (by decide))⟩

end Base64url

variable {P : Platform} {C : Crypto} {frame frame' : JsString} {recipient recipient' : Recipient}
  {sender sender' : Option Json} {r r' : Unpacked} {o o' : Opened} {k k' : KekInputs}
  {cek cek' : Bytes}

/-- The additional data is the text that the header was read from. -/
lemma header_of_openJwe (h : openJwe P frame recipient sender = .ok o) :
    ∃ text alg, isWellFormed text = true ∧ o.aad = textEncode text ∧
      readHeader P (some (.str text)) = .ok o.header ∧ member o.header (js "alg") = .ok alg ∧
      o.isAuthcrypt = decide (Json.asString alg = some algAuthcrypt) ∧
      epkCurve (o.header.get (js "epk")) = .ok o.crv := by
  obtain ⟨_, -, h⟩ := bind_eq_ok.mp h
  obtain ⟨⟨jwe, recipients, header, alg⟩, hread, h⟩ := bind_eq_ok.mp h
  obtain ⟨_, -, h⟩ := bind_eq_ok.mp h
  obtain ⟨_, -, h⟩ := bind_eq_ok.mp h
  obtain ⟨crv, hcrv, h⟩ := bind_eq_ok.mp h
  obtain ⟨_, -, h⟩ := bind_eq_ok.mp h
  obtain ⟨_, -, h⟩ := bind_eq_ok.mp h
  split at h
  · cases h
  obtain ⟨_, -, h⟩ := bind_eq_ok.mp h
  obtain ⟨iv, -, h⟩ := bind_eq_ok.mp h
  obtain ⟨ciphertext, -, h⟩ := bind_eq_ok.mp h
  obtain ⟨tag, -, h⟩ := bind_eq_ok.mp h
  cases h
  obtain ⟨jwe', -, hread⟩ := bind_eq_ok.mp hread
  obtain ⟨recipients', -, hread⟩ := bind_eq_ok.mp hread
  obtain ⟨header', hheader, hread⟩ := bind_eq_ok.mp hread
  obtain ⟨alg', halg, hread⟩ := bind_eq_ok.mp hread
  cases hread
  cases htext : Json.asString (jwe.get (js "protected")) with
  | none =>
    obtain ⟨bytes, hbytes, -⟩ := bind_eq_ok.mp hheader
    rw [Base64url.decode, htext] at hbytes
    cases hbytes
  | some text =>
    have hstr := Json.asString_eq_some.mp htext
    rw [hstr] at hheader
    obtain ⟨bytes, hbytes, -⟩ := bind_eq_ok.mp hheader
    exact ⟨text, alg, Base64url.isWellFormed_of_decodeText hbytes, rfl, hheader, halg, rfl, hcrv⟩

/-- The additional data determines all that is read of the header. -/
lemma header_eq_of_aad (h : openJwe P frame recipient sender = .ok o)
    (h' : openJwe P frame' recipient' sender' = .ok o') (haad : o'.aad = o.aad) :
    o'.header = o.header ∧ o'.isAuthcrypt = o.isAuthcrypt ∧ o'.crv = o.crv := by
  obtain ⟨text, alg, hwf, hbytes, hheader, halg, hauth, hcrv⟩ := header_of_openJwe h
  obtain ⟨text', alg', hwf', hbytes', hheader', halg', hauth', hcrv'⟩ := header_of_openJwe h'
  have htext : text' = text := eq_of_textEncode hwf' hwf (by rw [← hbytes, ← hbytes', haad])
  subst htext
  have heq : o'.header = o.header := Except.ok.inj (hheader'.symm.trans hheader)
  rw [heq] at halg' hcrv'
  cases halg'.symm.trans halg
  exact ⟨heq, hauth'.trans hauth.symm, Except.ok.inj (hcrv'.symm.trans hcrv)⟩

/-! ## The members that count -/

/-- Two envelopes with the same text of the header, and the same bytes in the other parts. -/
structure SameParts (o o' : Opened) : Prop where
  aad : o'.aad = o.aad
  iv : o'.iv = o.iv
  ciphertext : o'.ciphertext = o.ciphertext
  tag : o'.tag = o.tag
  encryptedKey : Base64url.decode (o'.entry.get (js "encrypted_key")) =
    Base64url.decode (o.entry.get (js "encrypted_key"))

/-- Nothing else of an envelope counts. -/
lemma unpack_congr (h : openJwe P frame recipient sender = .ok o)
    (h' : openJwe P frame' recipient sender = .ok o') (hsame : SameParts o o') :
    unpack P C frame' recipient sender = unpack P C frame recipient sender := by
  obtain ⟨hheader, hauth, hcrv⟩ := header_eq_of_aad h h' hsame.aad
  have ho' : o' = { o with entry := o'.entry } := by
    cases o
    cases o'
    obtain ⟨haad, hiv, hciphertext, htag, -⟩ := hsame
    dsimp only at *
    subst hheader hauth hcrv haad hiv hciphertext htag
    rfl
  have hinputs : kekInputs C o' recipient = kekInputs C o recipient := by
    have hkey := hsame.encryptedKey
    rw [ho'] at hkey ⊢
    unfold kekInputs
    dsimp only at hkey ⊢
    rw [hkey]
  rw [unpack, unpack, h, h', ok_bind, ok_bind, hinputs, ho']
  rfl

/-! ## The tag of the content -/

/-- An envelope that is accepted, what it went through and what is returned of it. -/
structure Unpacks (P : Platform) (C : Crypto) (frame : JsString) (recipient : Recipient)
    (sender : Option Json) (r : Unpacked) (o : Opened) (k : KekInputs) (cek : Bytes) : Prop where
  returned : unpack P C frame recipient sender = .ok r
  accepts : Accepts P C frame recipient sender r o k cek

/-- Two accepted envelopes that say the same: their header, their content and their sender. -/
structure SameContent (o o' : Opened) (r r' : Unpacked) : Prop where
  aad : o'.aad = o.aad
  header : o'.header = o.header
  iv : o'.iv = o.iv
  ciphertext : o'.ciphertext = o.ciphertext
  tag : o'.tag = o.tag
  message : r'.message = r.message
  senderKid : r'.senderKid = r.senderKid
  senderDid : r'.senderDid = r.senderDid
  authenticated : r'.authenticated = r.authenticated

/-- What the tag of an envelope is computed over. -/
def Opened.macInput (o : Opened) : Bytes := VtiDidcomm.macInput o.aad o.iv o.ciphertext

/-- The second envelope has the right tag of another input under the key of the first. -/
structure Forges (C : Crypto) (cek : Bytes) (o o' : Opened) : Prop where
  other : o'.macInput ≠ o.macInput
  tag : o'.tag = (C.hmacSha512 (cek.take 32) o'.macInput).take tagBytes

/-- A message that is read was decrypted and parsed. -/
lemma decrypt_of_readMessage {message : Json} (h : readMessage P C o cek = .ok message) :
    ∃ plaintext, decrypt C cek o.iv o.aad o.ciphertext o.tag = .ok plaintext ∧
      parseOr P (js "unpack: plaintext not JSON: ") (textDecode plaintext) = .ok message := by
  obtain ⟨plaintext, hdecrypt, h⟩ := bind_eq_ok.mp h
  obtain ⟨parsed, hparse, h⟩ := bind_eq_ok.mp h
  split at h
  · cases h
    refine ⟨plaintext, ?_, hparse⟩
    unfold decryptContent at hdecrypt
    split at hdecrypt
    · rename_i hok
      cases hdecrypt
      exact hok
    · cases hdecrypt
  · cases h

/-- The sender that is returned is read off the header. -/
lemma Unpacks.sender_of_header (h : Unpacks P C frame recipient sender r o k cek)
    (h' : Unpacks P C frame' recipient' sender' r' o' k' cek') (hheader : o'.header = o.header)
    (hauth : o'.isAuthcrypt = o.isAuthcrypt) : r'.senderKid = r.senderKid ∧
      r'.senderDid = r.senderDid ∧ r'.authenticated = r.authenticated := by
  obtain ⟨o₁, k₁, cek₁, haccepts, hcase⟩ := unpack_eq_ok h.returned
  obtain ⟨o₂, k₂, cek₂, haccepts', hcase'⟩ := unpack_eq_ok h'.returned
  cases haccepts.opened.symm.trans h.accepts.opened
  cases haccepts'.opened.symm.trans h'.accepts.opened
  obtain ⟨ha, hr, skid, hskid, hkid, hdid, -⟩ | ⟨ha, hr, hkid, hdid⟩ := hcase
  · obtain ⟨-, hr', skid', hskid', hkid', hdid', -⟩ | ⟨ha', -⟩ := hcase'
    · rw [hheader, hskid] at hskid'
      cases hskid'
      exact ⟨hkid'.trans hkid.symm, hdid'.trans hdid.symm, hr'.trans hr.symm⟩
    · rw [hauth, ha] at ha'
      cases ha'
  · obtain ⟨ha', -⟩ | ⟨-, hr', hkid', hdid'⟩ := hcase'
    · rw [hauth, ha] at ha'
      cases ha'
    · exact ⟨hkid'.trans hkid.symm, hdid'.trans hdid.symm, hr'.trans hr.symm⟩

/-- Under one content key an envelope says what another does, or its tag is forged. -/
lemma Unpacks.same_or_forges (h : Unpacks P C frame recipient sender r o k cek)
    (h' : Unpacks P C frame' recipient' sender' r' o' k' cek) (hlen : o.aad.length < 2 ^ 53)
    (hlen' : o'.aad.length < 2 ^ 53) : SameContent o o' r r' ∨ Forges C cek o o' := by
  obtain ⟨plaintext, hdecrypt, hparse⟩ := decrypt_of_readMessage h.accepts.read
  obtain ⟨plaintext', hdecrypt', hparse'⟩ := decrypt_of_readMessage h'.accepts.read
  obtain ⟨-, hiv, -, htag, hplain⟩ := decrypt_eq_ok.mp hdecrypt
  obtain ⟨-, hiv', -, htag', hplain'⟩ := decrypt_eq_ok.mp hdecrypt'
  rw [hmacTag_eq] at htag htag'
  by_cases hinput : o'.macInput = o.macInput
  · obtain ⟨haad, hivs, hciphertext⟩ := macInput_inj hlen' hlen (hiv'.trans hiv.symm) hinput
    obtain ⟨hheader, hauth, -⟩ := header_eq_of_aad h.accepts.opened h'.accepts.opened haad
    obtain ⟨hkid, hdid, hr⟩ := h.sender_of_header h' hheader hauth
    rw [hivs, hciphertext] at hplain'
    cases hplain'.symm.trans hplain
    have htags : o'.tag = o.tag := by
      rw [htag, htag', haad, hivs, hciphertext]
    exact .inl ⟨haad, hheader, hivs, hciphertext, htags, Except.ok.inj (hparse'.symm.trans hparse),
      hkid, hdid, hr⟩
  · exact .inr ⟨hinput, htag'⟩

/-! ## The key-encryption key -/

/-- The bytes of a public key. -/
def Curve.publicLength : Curve → Nat
  | .x25519 => 32
  | .p256 => uncompressedLen

/-- A shared secret is 32 bytes. -/
def Crypto.SecretsOf32 (C : Crypto) : Prop := ∀ {crv : Curve} {a B z : Bytes}, a.length = 32 →
  B.length = crv.publicLength → sharedSecret C crv a B = .ok z → z.length = 32

/-- A public key that is read has the length of its curve. -/
lemma Jwk.length_rawPublic {jwk : Option Json} {crv : Curve} {key : Bytes}
    (hcurve : Jwk.curveOf jwk = .ok crv.name) (h : Jwk.rawPublic C jwk = .ok key) :
    key.length = crv.publicLength := by
  cases jwk with
  | none => cases h
  | some jwk =>
    have hspells := Jwk.spells_iff.mp ⟨hcurve, h⟩
    generalize hname : crv.name = name at hspells
    cases hspells with
    | okp hokp hx hlen =>
      cases crv with
      | x25519 => exact hlen
      | p256 =>
        subst hname
        exact absurd hokp.curve (by decide)
    | @ec x y px py hec hx hy hpx hpy hpoint =>
      cases crv with
      | x25519 =>
        subst hname
        exact absurd hec.curve (by decide)
      | p256 => simp [Curve.publicLength, uncompressedLen, hpx, hpy]

/-- The curve of the ephemeral key is the one its JWK names. -/
lemma curveOf_of_epkCurve {epk : Option Json} {crv : Curve} {key : Bytes}
    (h : epkCurve epk = .ok crv) (hraw : Jwk.rawPublic C epk = .ok key) :
    Jwk.curveOf epk = .ok crv.name := by
  obtain ⟨_, hshape, -⟩ := bind_eq_ok.mp hraw
  obtain ⟨_, -, h⟩ := bind_eq_ok.mp h
  have hcrv : Json.asString (Jwk.field epk (js "crv")) = some crv.name := by
    dsimp only at h
    split at h
    · rename_i hokp
      cases h
      exact hokp.2
    split at h
    · rename_i hec
      cases h
      exact hec.2
    · cases h
  rw [Jwk.curveOf, hshape, ok_bind, hcrv]
  rfl

/-- A private key that is read has 32 bytes. -/
lemma Jwk.length_rawPrivate {jwk : Option Json} {d : Bytes} (h : Jwk.rawPrivate jwk = .ok d) :
    d.length = 32 := by
  obtain ⟨_, -, h⟩ := bind_eq_ok.mp h
  obtain ⟨_, -, h⟩ := bind_eq_ok.mp h
  obtain ⟨bytes, -, h⟩ := bind_eq_ok.mp h
  obtain ⟨_, hlen, h⟩ := bind_eq_ok.mp h
  cases h
  exact require_eq_ok.mp hlen

/-- The text that the key-encryption key of an authcrypt envelope is the digest of. -/
def IsKekInput (C : Crypto) (o : Opened) (k : KekInputs) (sender : Option Json) (legacy : Bool)
    (input : Bytes) : Prop :=
  ∃ senderPublic ze zs, Jwk.rawPublic C sender = .ok senderPublic ∧
    sharedSecret C o.crv k.recipientPriv k.ephemeralPublic = .ok ze ∧
    sharedSecret C o.crv k.recipientPriv senderPublic = .ok zs ∧
    kdfInput 1 (ze ++ zs) (authcryptInfo k.apu k.apv o.tag legacy) 256 = .ok input

/-- The sender's key is on the curve of the ephemeral key. -/
lemma senderCurve_of_unwrapAuthcrypt {legacy : Bool}
    (h : unwrapAuthcrypt C o k sender = .ok (cek, legacy)) :
    Jwk.curveOf sender = .ok o.crv.name := by
  obtain ⟨_, -, h⟩ := bind_eq_ok.mp h
  obtain ⟨crv, hcurve, h⟩ := bind_eq_ok.mp h
  obtain ⟨_, hcrv, -⟩ := bind_eq_ok.mp h
  rw [hcurve, require_eq_ok.mp hcrv]

/-- A key-encryption key is the digest of one text. -/
lemma kek_eq_digest {z : Bytes} {info : OtherInfo} {kek : Bytes}
    (h : deriveKey C z info 256 = .ok kek) :
    ∃ input, kdfInput 1 z info 256 = .ok input ∧ kek = (C.sha256 input).take 32 := by
  obtain ⟨inputs, hlen, hkek, hinputs⟩ := deriveKey_eq_ok h
  obtain ⟨input, rfl⟩ := List.length_eq_one_iff.mp (show inputs.length = 1 from hlen)
  refine ⟨input, hinputs 0 Nat.one_pos, ?_⟩
  rw [hkek, List.flatMap_cons, List.flatMap_nil, List.append_nil]

/-- What the key of an accepted authcrypt envelope was unwrapped under. -/
lemma Unpacks.kekInput (hsecrets : C.SecretsOf32)
    (h : Unpacks P C frame recipient sender r o k cek) (hauth : o.isAuthcrypt = true) :
    ∃ z input, z.length = 64 ∧
      kdfInput 1 z (authcryptInfo k.apu k.apv o.tag r.legacyKekUsed) 256 = .ok input ∧
      IsKekInput C o k sender r.legacyKekUsed input ∧
      unwrapKey C ((C.sha256 input).take 32) k.encryptedKey = .ok cek := by
  obtain ⟨_, -, hinputs⟩ := bind_eq_ok.mp h.accepts.inputs
  obtain ⟨_, -, hinputs⟩ := bind_eq_ok.mp hinputs
  obtain ⟨recipientPriv, hpriv, hinputs⟩ := bind_eq_ok.mp hinputs
  obtain ⟨ephemeralPublic, hephemeral, hinputs⟩ := bind_eq_ok.mp hinputs
  obtain ⟨apu, -, hinputs⟩ := bind_eq_ok.mp hinputs
  obtain ⟨apv, -, hinputs⟩ := bind_eq_ok.mp hinputs
  obtain ⟨encryptedKey, -, hinputs⟩ := bind_eq_ok.mp hinputs
  cases hinputs
  obtain ⟨_, _, -, -, -, -, -, hepk⟩ := header_of_openJwe h.accepts.opened
  have hlen := Jwk.length_rawPublic (curveOf_of_epkCurve hepk hephemeral) hephemeral
  have hcek := h.accepts.unwrapped
  rw [unwrapCek, if_pos hauth] at hcek
  have hsender := senderCurve_of_unwrapAuthcrypt hcek
  obtain ⟨-, senderPublic, kek, hraw, hkek, hunwrap⟩ := unwrapAuthcrypt_eq_ok hcek
  obtain ⟨ze, hze, hkek⟩ := bind_eq_ok.mp hkek
  obtain ⟨zs, hzs, hkek⟩ := bind_eq_ok.mp hkek
  obtain ⟨input, hinput, rfl⟩ := kek_eq_digest hkek
  refine ⟨ze ++ zs, input, ?_, hinput, ⟨senderPublic, ze, zs, hraw, hze, hzs, hinput⟩, hunwrap⟩
  rw [List.length_append, hsecrets (Jwk.length_rawPrivate hpriv) hlen hze,
    hsecrets (Jwk.length_rawPrivate hpriv) (Jwk.length_rawPublic hsender hraw) hzs]

/-- The key derivation of an accepted envelope takes a tag. -/
lemma Unpacks.tagged (h : Unpacks P C frame recipient sender r o k cek) {legacy : Bool} :
    (authcryptInfo k.apu k.apv o.tag legacy).Tagged := by
  obtain ⟨plaintext, hdecrypt, -⟩ := decrypt_of_readMessage h.accepts.read
  obtain ⟨-, -, hlen, -⟩ := decrypt_eq_ok.mp hdecrypt
  rintro tag ⟨⟩
  exact hlen

/-- How the parts of accepted envelopes are tied to each other. Of two that were opened with one
content key, the second says what the first does, or has the tag of another input. The key-encryption
key of an authcrypt envelope is the digest of a text; where two have it from the same text, they
have the same sender, party information and tag, and the content keys that they wrap alike are the
same. And for one recipient and sender the text of the header and the bytes of the other four parts
are all that counts. -/
theorem envelope_integrity (hsecrets : C.SecretsOf32)
    (h : Unpacks P C frame recipient sender r o k cek)
    (h' : Unpacks P C frame' recipient' sender' r' o' k' cek') :
    (o.aad.length < 2 ^ 53 → o'.aad.length < 2 ^ 53 → cek' = cek →
      SameContent o o' r r' ∨ Forges C cek o o') ∧
    (o.isAuthcrypt = true → o'.isAuthcrypt = true → ∃ input input',
      IsKekInput C o k sender r.legacyKekUsed input ∧
      IsKekInput C o' k' sender' r'.legacyKekUsed input' ∧
      (input' = input → r'.senderKid = r.senderKid ∧ k'.apu = k.apu ∧ k'.apv = k.apv ∧
        o'.tag = o.tag ∧ (k'.encryptedKey = k.encryptedKey → cek' = cek))) ∧
    (recipient' = recipient → sender' = sender → SameParts o o' → r' = r) := by
  refine ⟨?content, ?key, ?others⟩
  case content =>
    rintro hlen hlen' rfl
    exact h.same_or_forges h' hlen hlen'
  case key =>
    intro hauth hauth'
    obtain ⟨z, input, hz, hinput, hkek, hunwrap⟩ := h.kekInput hsecrets hauth
    obtain ⟨z', input', hz', hinput', hkek', hunwrap'⟩ := h'.kekInput hsecrets hauth'
    refine ⟨input, input', hkek, hkek', ?_⟩
    rintro rfl
    have hsame := kdfInput_injective (hz'.trans hz.symm) h'.tagged h.tagged hinput' hinput
    have hapu : k'.apu = k.apu := hsame.apu
    obtain ⟨hkid, -⟩ := apu_of_unpack h.returned h.accepts.opened h.accepts.inputs hauth
    obtain ⟨hkid', -⟩ := apu_of_unpack h'.returned h'.accepts.opened h'.accepts.inputs hauth'
    refine ⟨?_, hapu, hsame.apv, Option.some.inj hsame.suppPrivInfo, fun hwrapped => ?_⟩
    · rw [hkid, hkid', hapu]
    · rw [hwrapped] at hunwrap'
      exact Except.ok.inj (hunwrap'.symm.trans hunwrap)
  case others =>
    rintro rfl rfl hsame
    have hresult := unpack_congr (C := C) h.accepts.opened h'.accepts.opened hsame
    rw [h.returned, h'.returned] at hresult
    exact Except.ok.inj hresult

/-! ## Two envelopes of one sender -/

/-- The sample secrets have 32 bytes. -/
lemma Crypto.sample_secretsOf32 : Crypto.sample.SecretsOf32 := by
  intro crv a B z ha hB h
  cases crv with
  | x25519 =>
    obtain ⟨_, -, h⟩ := bind_eq_ok.mp h
    obtain ⟨_, -, h⟩ := bind_eq_ok.mp h
    cases h
    have hlen : B.length = 32 := hB
    simp [sumBytes, ha, hlen]
  | p256 =>
    obtain ⟨_, -, h⟩ := bind_eq_ok.mp h
    cases h
    have hlen : B.length = 65 := hB
    simp [sumBytes, coordLen, ha, hlen]

/-- What a sample sender packs is accepted. -/
lemma exists_unpacks_sample {kid : JsString} (hs : Speaks kid (js "did:ex:alice")) :
    ∃ frame r o k cek, Unpacks Platform.json Crypto.sample frame
        ⟨js "did:ex:bob#1", some (KeyPair.sample 6).privateJwk⟩ (some (KeyPair.sample 5).publicJwk)
        r o k cek ∧
      o.isAuthcrypt = true ∧
      r.senderKid = some (senderKid kid (some (.str (js "did:ex:alice")))) := by
  have hmessage : Json.Plain id (.obj [(js "from", .str (js "did:ex:alice"))]) := by
    refine .of_names [js "from"] rfl (by decide) ?_
    simp [Json.Plain.str]
  have hopens := @unpack_pack_authcrypt Platform.json Crypto.sample .x25519 Entropy.sample
    [(js "from", .str (js "did:ex:alice"))] kid (js "did:ex:bob#1") (js "did:ex:alice")
    (KeyPair.sample 5) (KeyPair.sample 6) Crypto.sample_lawful (Entropy.sample_fresh .x25519) rfl hs
    (by decide) fun s h => by
      obtain ⟨hheader, hjwe⟩ := plain_sealAuthcrypt h
      exact ⟨parses_of_plain Platform.json_readsJson hmessage,
        parses_of_plain Platform.json_readsJson hheader,
        parses_of_plain Platform.json_readsJson hjwe⟩
  obtain ⟨frame, -, hunpack⟩ := hopens
  obtain ⟨o, k, cek, haccepts, hcase⟩ := unpack_eq_ok hunpack
  obtain ⟨hauth, -⟩ | ⟨-, hr, -⟩ := hcase
  · exact ⟨frame, _, o, k, cek, ⟨hunpack, haccepts⟩, hauth, rfl⟩
  · cases hr

/-- Two envelopes of one sender under two key ids: their keys come from different texts. -/
theorem envelope_integrity_example : ∃ frame frame' recipient sender r r' o o' k k' cek cek',
    Unpacks Platform.json Crypto.sample frame recipient sender r o k cek ∧
    Unpacks Platform.json Crypto.sample frame' recipient sender r' o' k' cek' ∧
    ∃ input input', IsKekInput Crypto.sample o k sender r.legacyKekUsed input ∧
      IsKekInput Crypto.sample o' k' sender r'.legacyKekUsed input' ∧ input' ≠ input := by
  have speaks (kid : JsString) (hkid : kid = js "did:ex:alice#1" ∨ kid = js "did:ex:alice#2") :
      Speaks kid (js "did:ex:alice") := by
    obtain rfl | rfl := hkid <;> exact
      { noHash := by decide
        identity := by decide
        isDid := by decide
        kid_wellFormed := by decide
        src_wellFormed := nofun
        fits := by decide }
  obtain ⟨frame, r, o, k, cek, h, hauth, hkid⟩ := exists_unpacks_sample (speaks _ (.inl rfl))
  obtain ⟨frame', r', o', k', cek', h', hauth', hkid'⟩ := exists_unpacks_sample (speaks _ (.inr rfl))
  obtain ⟨-, hkey, -⟩ := envelope_integrity Crypto.sample_secretsOf32 h h'
  obtain ⟨input, input', hinput, hinput', hsame⟩ := hkey hauth hauth'
  refine ⟨frame, frame', _, _, r, r', o, o', k, k', cek, cek', h, h', input, input', hinput, hinput',
    fun heq => ?_⟩
  have hsender := (hsame heq).1
  rw [hkid, hkid'] at hsender
  exact absurd hsender (by decide)

end VtiDidcomm
