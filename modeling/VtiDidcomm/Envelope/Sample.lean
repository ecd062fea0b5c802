import Mathlib.Data.List.Zip
import VtiDidcomm.Envelope.Jwk
import VtiDidcomm.Js.Platform

/-!
# A lawful instance

Primitives that keep every law of `Crypto.Lawful` and can be computed with, and a platform whose
`JSON.parse` reads given values back: the laws are consistent, and a run can be followed on them.
-/

namespace VtiDidcomm
open Js

/-- The symmetric sum two keys agree on. -/
def sumBytes (a b : Bytes) : Bytes := List.zipWith (· + ·) a b

/-- The public key of a private key. -/
def samplePublic (crv : Curve) (a : Bytes) : Bytes :=
  match crv with
  | .x25519 => a
  | .p256 => 0x04 :: a ++ a

/-- Primitives without any secrecy: a public key is its private key, keys agree on their sum, and
nothing is encrypted. -/
def Crypto.sample : Crypto where
  getPublicKey crv a :=
    if a.length = 32 then .ok (samplePublic crv a)
    else .error { name := js "TypeError", message := js "private key must be 32 bytes" }
  getSharedSecret crv a B :=
    match crv with
    | .x25519 => .ok (sumBytes a B)
    | .p256 => .ok (0x02 :: sumBytes a ((B.drop 1).take 32))
  fromBytes _ := .ok ()
  sha256 bytes := (bytes ++ List.replicate 32 0).take 32
  hmacSha512 key bytes := (key ++ bytes ++ List.replicate 64 0).take 64
  aesKwWrap _ cek := .ok (List.replicate 8 0xA6 ++ cek)
  aesKwUnwrap _ wrapped :=
    if wrapped.take 8 = List.replicate 8 0xA6 then .ok (wrapped.drop 8)
    else .error { name := js "OperationError", message := js "the operation failed" }
  aesCbcEncrypt _ _ plaintext := plaintext
  aesCbcDecrypt _ _ ciphertext := .ok ciphertext

/-- The public keys of the sample primitives. -/
lemma Crypto.sample_getPublicKey {crv : Curve} {a A : Bytes}
    (h : Crypto.sample.getPublicKey crv a = .ok A) : a.length = 32 ∧ A = samplePublic crv a := by
  simp only [Crypto.sample] at h
  split at h
  · rename_i hlen
    cases h
    exact ⟨hlen, rfl⟩
  · cases h

/-- Adding bytes is commutative. -/
lemma sumBytes_comm (a b : Bytes) : sumBytes a b = sumBytes b a :=
  List.zipWith_comm_of_comm UInt8.add_comm

/-- A sample point has the private key as its coordinate. -/
lemma take_samplePublic {a : Bytes} (h : a.length = 32) :
    ((samplePublic .p256 a).drop 1).take 32 = a := by
  rw [samplePublic, List.cons_append, List.drop_succ_cons, List.drop_zero, ← h, List.take_left]

/-- The sample primitives keep the laws. -/
lemma Crypto.sample_lawful : Crypto.sample.Lawful where
  private_length h := (sample_getPublicKey h).1
  x25519_length h := by
    obtain ⟨hlen, rfl⟩ := sample_getPublicKey h
    exact hlen
  p256_point h := by
    obtain ⟨hlen, rfl⟩ := sample_getPublicKey h
    exact ⟨by simp [samplePublic, hlen, uncompressedLen], rfl, rfl⟩
  commutes {crv a A b B} ha hb := by
    obtain ⟨hla, rfl⟩ := sample_getPublicKey ha
    obtain ⟨hlb, rfl⟩ := sample_getPublicKey hb
    cases crv with
    | x25519 => exact ⟨sumBytes a b, rfl, by rw [sumBytes_comm]; rfl⟩
    | p256 =>
      refine ⟨0x02 :: sumBytes a b, ?_, ?_⟩
      · simp only [Crypto.sample, take_samplePublic hlb]
      · simp only [Crypto.sample, take_samplePublic hla, sumBytes_comm a b]
  sha256_length bytes := by simp [Crypto.sample]
  hmac_length key bytes := by
    simp [Crypto.sample]
    omega
  unwrap_wrap {kek cek} _ _ := ⟨_, rfl, by simp, by simp [Crypto.sample]⟩
  decrypt_encrypt _ _ := rfl

/-- A platform whose `JSON.parse` reads back the text of each of these values. -/
def Platform.reading (values : List Json) : Platform :=
  { Platform.plain with
    parseJson := fun text =>
      match values.find? fun j => Json.stringify j = text with
      | some j => .ok j
      | none => .error { name := js "SyntaxError", message := js "Unexpected token in JSON" } }

end VtiDidcomm
