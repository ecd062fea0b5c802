import VtiDidcomm.Envelope.RoundTrip
import VtiDidcomm.Js.JsonParse

/-!
# What an envelope is printed from

The header and the JWE that `pack` and `packAnoncrypt` print are values that a JSON text can stand
for, so that `JSON.parse` reads them back.
-/

namespace VtiDidcomm
open Js

variable {P : Platform} {C : Crypto} {number : List UInt8 → List UInt8}

/-- A plain value parses back. -/
lemma parses_of_plain (hP : P.ReadsJson number) {j : Json} (h : Json.Plain number j) : Parses P j :=
  hP _ _ (Json.parse_stringify h)

/-- A JWK that is built is a message that JSON keeps. -/
lemma plain_publicJwk {crv : JsString} {A : Bytes} {jwk : Json}
    (h : Jwk.publicJwk crv A none = .ok jwk) : Json.Plain number jwk := by
  obtain ⟨-, -, rfl⟩ | ⟨-, x, y, -, -, -, rfl⟩ := Jwk.publicJwk_eq_ok.mp h
  · refine .of_names [js "kty", js "crv", js "x"] rfl (by decide) ?_
    simp [Json.Plain.str, Jwk.keepKid]
  · refine .of_names [js "kty", js "crv", js "x", js "y"] rfl (by decide) ?_
    simp [Json.Plain.str, Jwk.keepKid]

/-- An authcrypt header is plain. -/
lemma plain_authcryptHeader (apu apv : Bytes) (skid : JsString) {epk : Json}
    (hepk : Json.Plain number epk) : Json.Plain number (authcryptHeader apu apv skid epk) := by
  refine .of_names [js "typ", js "alg", js "enc", js "apu", js "apv", js "skid", js "epk"] rfl
    (by decide) ?_
  simp [Json.Plain.str, hepk]

/-- An anoncrypt header is plain. -/
lemma plain_anoncryptHeader (apv : Bytes) {epk : Json} (hepk : Json.Plain number epk) :
    Json.Plain number (anoncryptHeader apv epk) := by
  refine .of_names [js "typ", js "alg", js "enc", js "apv", js "epk"] rfl (by decide) ?_
  simp [Json.Plain.str, hepk]

/-- A JWE is plain. -/
lemma plain_assembleJwe (header : Json) (kid : JsString) (encryptedKey iv ciphertext tag : Bytes) :
    Json.Plain number (assembleJwe header kid encryptedKey iv ciphertext tag) := by
  have hkid : Json.Plain number (.obj [(js "kid", .str kid)]) := by
    refine .of_names [js "kid"] rfl (by decide) ?_
    simp [Json.Plain.str]
  have hentry : Json.Plain number (recipientEntry kid encryptedKey) := by
    refine .of_names [js "header", js "encrypted_key"] rfl (by decide) ?_
    simp [Json.Plain.str, hkid]
  have hrecipients : Json.Plain number (.arr [recipientEntry kid encryptedKey]) :=
    .arr (by simpa using hentry)
  refine .of_names [js "protected", js "recipients", js "iv", js "ciphertext", js "tag"] rfl
    (by decide) ?_
  rw [recipientEntry] at hrecipients
  simp [Json.Plain.str, hrecipients]

/-- What an authcrypt envelope is made of. -/
lemma sealAuthcrypt_parts {entropy : Entropy} {message : Json} {sender : PackSender}
    {recipient : PackRecipient} {s : Sealed}
    (h : sealAuthcrypt C entropy message sender recipient = .ok s) :
    ∃ apu apv skid crv key epk kid encryptedKey iv ciphertext tag,
      Jwk.publicJwk crv key none = .ok epk ∧ s.header = authcryptHeader apu apv skid epk ∧
        s.jwe = assembleJwe s.header kid encryptedKey iv ciphertext tag := by
  obtain ⟨_, -, h⟩ := bind_eq_ok.mp h
  obtain ⟨_, -, h⟩ := bind_eq_ok.mp h
  obtain ⟨crv, -, h⟩ := bind_eq_ok.mp h
  obtain ⟨senderCrv, -, h⟩ := bind_eq_ok.mp h
  obtain ⟨_, -, h⟩ := bind_eq_ok.mp h
  obtain ⟨senderPriv, -, h⟩ := bind_eq_ok.mp h
  obtain ⟨recipientPub, -, h⟩ := bind_eq_ok.mp h
  obtain ⟨epk, hepk, h⟩ := bind_eq_ok.mp h
  obtain ⟨content, -, h⟩ := bind_eq_ok.mp h
  obtain ⟨kek, -, h⟩ := bind_eq_ok.mp h
  obtain ⟨encryptedKey, -, h⟩ := bind_eq_ok.mp h
  cases h
  exact ⟨_, _, _, _, _, _, _, _, _, _, _, hepk, rfl, rfl⟩

/-- What an anoncrypt envelope is made of. -/
lemma sealAnoncrypt_parts {entropy : Entropy} {message : Json} {recipient : PackRecipient} {s : Sealed}
    (h : sealAnoncrypt C entropy message recipient = .ok s) :
    ∃ apv crv key epk kid encryptedKey iv ciphertext tag,
      Jwk.publicJwk crv key none = .ok epk ∧ s.header = anoncryptHeader apv epk ∧
        s.jwe = assembleJwe s.header kid encryptedKey iv ciphertext tag := by
  obtain ⟨_, -, h⟩ := bind_eq_ok.mp h
  obtain ⟨crv, -, h⟩ := bind_eq_ok.mp h
  obtain ⟨recipientPub, -, h⟩ := bind_eq_ok.mp h
  obtain ⟨epk, hepk, h⟩ := bind_eq_ok.mp h
  obtain ⟨content, -, h⟩ := bind_eq_ok.mp h
  obtain ⟨kek, -, h⟩ := bind_eq_ok.mp h
  obtain ⟨encryptedKey, -, h⟩ := bind_eq_ok.mp h
  cases h
  exact ⟨_, _, _, _, _, _, _, _, _, hepk, rfl, rfl⟩

/-- The values an authcrypt envelope is printed from. -/
lemma plain_sealAuthcrypt {entropy : Entropy} {message : Json} {sender : PackSender}
    {recipient : PackRecipient} {s : Sealed}
    (h : sealAuthcrypt C entropy message sender recipient = .ok s) :
    Json.Plain number s.header ∧ Json.Plain number s.jwe := by
  obtain ⟨_, _, _, _, _, _, _, _, _, _, _, hepk, hheader, hjwe⟩ := sealAuthcrypt_parts h
  exact ⟨hheader ▸ plain_authcryptHeader _ _ _ (plain_publicJwk hepk),
    hjwe ▸ plain_assembleJwe _ _ _ _ _ _⟩

/-- The values an anoncrypt envelope is printed from. -/
lemma plain_sealAnoncrypt {entropy : Entropy} {message : Json} {recipient : PackRecipient} {s : Sealed}
    (h : sealAnoncrypt C entropy message recipient = .ok s) :
    Json.Plain number s.header ∧ Json.Plain number s.jwe := by
  obtain ⟨_, _, _, _, _, _, _, _, _, hepk, hheader, hjwe⟩ := sealAnoncrypt_parts h
  exact ⟨hheader ▸ plain_anoncryptHeader _ (plain_publicJwk hepk),
    hjwe ▸ plain_assembleJwe _ _ _ _ _ _⟩

end VtiDidcomm
