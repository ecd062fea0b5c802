import VtiDidcomm.Client.MediatorAuth
import VtiDidcomm.Envelope.Printed

/-!
# Packed between two parties

What `packTo` sends from a client to a key-agreement key is a JSON text, and whoever holds the private
key opens it with the same message, authenticated as the client (`packTo_opens`). The two sides need
not have their keys in the same JWK: only the raw keys count.
-/

namespace VtiDidcomm
open Js

variable {P : Platform} {C : Crypto} {number : List UInt8 → List UInt8}

/-- What a message of a client opens as. -/
def openedFrom (client : Client) (message : Json) : Unpacked where
  message := message
  senderKid := some (senderKid client.kid (some (.str client.did)))
  senderDid := some (identityOfKid client.kid)
  authenticated := true
  legacyKekUsed := false

/-- A client whose key pair is `k`, and which can send under its DID. -/
structure Client.Holds (client : Client) (k : KeyPair C .x25519) : Prop where
  privateKey : k.privateKey = client.privateKey
  publicKey : k.publicKey = client.publicKey
  speaks : Speaks client.kid client.did

/-- A key-agreement key whose private key the party with the pair `k` has. -/
structure AgreementKey.IsOf (key : AgreementKey) (k : KeyPair C .x25519) : Prop where
  x25519Pub : key.x25519Pub = k.publicKey
  kid : key.kidText ≠ []

variable (C number) in
/-- What a message draws has its form, and its times are numbers of a JSON text. -/
structure Draw.Ready (draw : Draw) : Prop where
  fresh : draw.entropy.Fresh C .x25519
  created : Json.Plain number (jsonNat draw.now)
  expires : Json.Plain number (jsonNat (draw.now + 300))

/-- What `packTo` sends opens for the recipient, with the message and the client's identity. -/
lemma packTo_opens (hP : P.ReadsJson number) (hC : C.Lawful) {draw : Draw} {client : Client}
    {sender recipient : KeyPair C .x25519} {key : AgreementKey} {members : List (JsString × Json)}
    (hdraw : draw.entropy.Fresh C .x25519) (hclient : client.Holds sender) (hkey : key.IsOf recipient)
    (hfrom : Json.lookup (js "from") members = some (.str client.did))
    (hmessage : Json.Plain number (.obj members)) :
    ∃ jwe, Json.Plain number jwe ∧ (∃ parts, jwe = .obj parts) ∧
      packTo C draw client (.obj members) key = .ok (Json.stringify jwe) ∧
      unpack P C (Json.stringify jwe) ⟨key.kidText, some recipient.privateJwk⟩
        (some sender.publicJwk) = .ok (openedFrom client (.obj members)) := by
  obtain ⟨s, hsPriv, hsPub, hsJwk, -⟩ := KeyPair.of_pair hC sender.pair
  obtain ⟨r, hrPriv, hrPub, -, hrJwk⟩ := KeyPair.of_pair hC recipient.pair
  have hspeaks := hclient.speaks
  obtain ⟨epk, kek, ciphertext, tag, encryptedKey, hseal, hne, hcurve, hraw, hkek, hunwrap, hdec⟩ :=
    sealAuthcrypt_ok members s r hC hdraw hfrom hspeaks.kid_ne hspeaks.fits hkey.kid
  -- only the raw keys went into the key-encryption key
  rw [hrPriv, hsPub] at hkek
  obtain ⟨hheader, hjwe⟩ := plain_sealAuthcrypt hseal
  refine ⟨_, hjwe, ⟨_, rfl⟩, ?_, ?_⟩
  · rw [hclient.privateKey, hclient.publicKey] at hsJwk
    rw [← hkey.x25519Pub] at hrJwk
    simp only [Curve.name] at hsJwk hrJwk
    simp only [packTo, hsJwk, hrJwk, ok_bind, pack, hseal]
    rfl
  · have hskid : senderKid client.kid (some (.str client.did)) ≠ [] := by
      intro h
      have hdid := hspeaks.skid_did
      rw [h] at hdid
      exact absurd hdid (by decide)
    have hclaims : claimsSender (.obj members)
        (identityOfKid (senderKid client.kid (some (.str client.did)))) = true := by
      simp [claimsSender, identityOfKid_senderKid, hspeaks.isDid, hfrom, Json.asString,
        includes_eq_false.mpr hspeaks.noHash, hspeaks.identity]
    rw [openedFrom, ← identityOfKid_senderKid client.kid client.did]
    exact unpack_authcrypt (parses_of_plain hP hmessage)
      (parses_of_plain hP hheader) (parses_of_plain hP hjwe) hkey.kid hskid hspeaks.textDecode hne
      hcurve hraw hkek hunwrap hdec hclaims

/-- Whatever `packTo` sent opens for the recipient. -/
lemma opens_of_packTo (hP : P.ReadsJson number) (hC : C.Lawful) {draw : Draw} {client : Client}
    {key : AgreementKey} {sender recipient : KeyPair C .x25519} {members : List (JsString × Json)}
    {frame : JsString} (hdraw : draw.entropy.Fresh C .x25519) (hclient : client.Holds sender)
    (hkey : key.IsOf recipient) (hfrom : Json.lookup (js "from") members = some (.str client.did))
    (hmessage : Json.Plain number (.obj members))
    (h : packTo C draw client (.obj members) key = .ok frame) :
    unpack P C frame ⟨key.kidText, some recipient.privateJwk⟩ (some sender.publicJwk) =
      .ok (openedFrom client (.obj members)) := by
  obtain ⟨jwe, -, -, hpack, hopens⟩ := packTo_opens hP hC hdraw hclient hkey hfrom hmessage
  cases hpack.symm.trans h
  exact hopens

/-! ## Sample parties -/

/-- A client with a sample key pair. -/
def Client.sample (n : UInt8) : Client where
  did := js "did:ex:alice"
  kid := js "did:ex:alice#1"
  privateKey := List.replicate 32 n
  publicKey := List.replicate 32 n

/-- The public half of a sample key pair. -/
def AgreementKey.sample (n : UInt8) : AgreementKey where
  kid := some (.str (js "did:ex:bob#1"))
  x25519Pub := List.replicate 32 n

/-- Sample randomness, at the epoch. -/
def Draw.sample : Draw where
  uuid := js "1"
  now := 0
  entropy := Entropy.sample

/-- The sample client can send. -/
lemma speaks_alice : Speaks (js "did:ex:alice#1") (js "did:ex:alice") where
  noHash := by decide
  identity := by decide
  isDid := by decide
  kid_wellFormed := by decide
  src_wellFormed := by
    rintro src ⟨⟩
  fits := by decide

/-- The sample client holds the sample pair. -/
lemma Client.sample_holds (n : UInt8) : (Client.sample n).Holds (KeyPair.sample n) where
  privateKey := rfl
  publicKey := rfl
  speaks := speaks_alice

/-- The times of a sample. -/
lemma plain_epoch : Json.Plain id (jsonNat Draw.sample.now) ∧
    Json.Plain id (jsonNat (Draw.sample.now + 300)) := by
  have htext : (Nat.repr 0).toUTF8.toList = [0x30] ∧
      (Nat.repr 300).toUTF8.toList = [0x33, 0x30, 0x30] := by decide +kernel
  rw [jsonNat, jsonNat, show Draw.sample.now = 0 from rfl, htext.1, htext.2]
  refine ⟨.num (by decide) ?_ rfl, .num (by decide) ?_ rfl⟩
  · simp [Json.isNumberUnit, isDigit]
  · simp [Json.isNumberUnit, isDigit]

/-- The sample draw is ready. -/
lemma ready_sample : Draw.sample.Ready Crypto.sample id where
  fresh := Entropy.sample_fresh .x25519
  created := plain_epoch.1
  expires := plain_epoch.2

/-- The sample key is of the sample pair. -/
lemma AgreementKey.sample_isOf (n : UInt8) : (AgreementKey.sample n).IsOf (KeyPair.sample n) where
  x25519Pub := rfl
  kid := (by decide : js "did:ex:bob#1" ≠ [])

end VtiDidcomm
