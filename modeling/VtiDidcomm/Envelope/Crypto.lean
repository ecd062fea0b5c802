import VtiDidcomm.Js.Error
import VtiDidcomm.Js.Utf8

/-!
# Key agreement, key derivation and content encryption

What the envelope code does over the primitives of Web Crypto and the elliptic-curve library, which
are the fields of `Crypto`: the curve dispatch of `key-agreement.js` with the length checks of
`x25519.js` and `p256.js`, the Concat KDF (`concat-kdf.js`), the two key-encryption keys
(`ecdh-1pu.js`, `ecdh-es.js`), AES key wrap (`aes.js`) and A256CBC-HS512 (`a256cbc-hs512.js`).

`Crypto.Lawful` says what the two sides of an envelope rely on: key agreement commutes, unwrapping
and decrypting invert wrapping and encrypting, and outputs have their lengths.
-/

namespace VtiDidcomm
open Js

/-- A byte array. -/
abbrev Bytes := List UInt8

/-- A key-agreement curve. -/
inductive Curve where
  | x25519
  | p256
  deriving DecidableEq, Repr

/-- The name of a curve in a JWK. -/
def Curve.name : Curve → JsString
  | .x25519 => js "X25519"
  | .p256 => js "P-256"

/-- The primitives of the crypto libraries. -/
structure Crypto where
  /-- `x25519.getPublicKey` and `p256.getPublicKey(_, false)` -/
  getPublicKey : Curve → Bytes → Except Exception Bytes
  /-- `x25519.getSharedSecret` and `p256.getSharedSecret(_, _, true)` -/
  getSharedSecret : Curve → Bytes → Bytes → Except Exception Bytes
  /-- `p256.Point.fromBytes` -/
  fromBytes : Bytes → Except Exception Unit
  /-- `digest("SHA-256", _)` -/
  sha256 : Bytes → Bytes
  /-- `sign("HMAC", _, _)` with SHA-512 -/
  hmacSha512 : Bytes → Bytes → Bytes
  /-- `wrapKey("raw", _, _, "AES-KW")` -/
  aesKwWrap : Bytes → Bytes → Except Exception Bytes
  /-- `unwrapKey("raw", _, _, "AES-KW", …)` -/
  aesKwUnwrap : Bytes → Bytes → Except Exception Bytes
  /-- `encrypt({ name: "AES-CBC", iv }, _, _)` -/
  aesCbcEncrypt : Bytes → Bytes → Bytes → Bytes
  /-- `decrypt({ name: "AES-CBC", iv }, _, _)` -/
  aesCbcDecrypt : Bytes → Bytes → Bytes → Except Exception Bytes

/-- `COORD_LEN` -/
def coordLen : Nat := 32
/-- `UNCOMPRESSED_LEN` -/
def uncompressedLen : Nat := 65
/-- `HASH_LEN` -/
def hashLen : Nat := 32
/-- `CEK_BYTES` -/
def cekBytes : Nat := 64
/-- `IV_BYTES` -/
def ivBytes : Nat := 16
/-- `TAG_BYTES` -/
def tagBytes : Nat := 32

variable (C : Crypto)

/-! ## Key agreement -/

/-- `keyAgreement.isSupported`, with the curve it found. -/
def supportedCurve (crv : JsString) : Option Curve :=
  if crv = Curve.x25519.name then some .x25519
  else if crv = Curve.p256.name then some .p256
  else none

/-- `keyAgreement.sharedSecret` -/
def sharedSecret (crv : Curve) (privateKey peerPublicKey : Bytes) : Except JsError Bytes :=
  match crv with
  | .x25519 => do
    require (privateKey.length = 32) (typeError (js "X25519 privateKey must be 32 bytes"))
    require (peerPublicKey.length = 32) (typeError (js "X25519 peerPublicKey must be 32 bytes"))
    raised (C.getSharedSecret .x25519 privateKey peerPublicKey)
  | .p256 => do
    require (privateKey.length = coordLen) (typeError (js "P-256 privateKey must be 32 bytes"))
    let point ← raised (C.getSharedSecret .p256 privateKey peerPublicKey)
    -- The sign byte is dropped; the coordinate is the secret.
    pure ((point.drop 1).take coordLen)

/-- `x25519.generateKeyPair`, from the secret key it draws: the private and the public key. -/
def generateKeyPair (secretKey : Bytes) : Except JsError (Bytes × Bytes) := do
  let publicKey ← raised (C.getPublicKey .x25519 secretKey)
  pure (secretKey, publicKey)

/-- `pointCoordinates` -/
def pointCoordinates (publicKey : Bytes) : Except JsError (Bytes × Bytes) := do
  require (publicKey.length = uncompressedLen ∧ publicKey.head? = some 0x04)
    (typeError (js
      "P-256 public key must be a 65-byte uncompressed SEC1 point (0x04 prefix)"))
  pure ((publicKey.drop 1).take coordLen, publicKey.drop (1 + coordLen))

/-- `pointFromCoordinates` -/
def pointFromCoordinates (x y : Bytes) : Except JsError Bytes := do
  require (x.length = coordLen) (typeError (js "P-256 x-coordinate must be 32 bytes"))
  require (y.length = coordLen) (typeError (js "P-256 y-coordinate must be 32 bytes"))
  let point := 0x04 :: x ++ y
  raised (C.fromBytes point)
  pure point

/-! ## The Concat KDF -/

/-- `uint32be` -/
def uint32be (n : Nat) : Except JsError Bytes := do
  require (n ≤ 0xffffffff) (rangeError (js "uint32be: out of range: " ++ natText n))
  pure [(n >>> 24).toUInt8, (n >>> 16).toUInt8, (n >>> 8).toUInt8, n.toUInt8]

/-- `lengthPrefix` -/
def lengthPrefix (bytes : Bytes) : Except JsError Bytes := do
  let size ← uint32be bytes.length
  pure (size ++ bytes)

/-- The `otherInfo` argument of `deriveKey`. -/
structure OtherInfo where
  alg : JsString
  apu : Bytes
  apv : Bytes
  suppPrivInfo : Option Bytes := none
  legacyRawSuppPrivInfo : Bool := false

/-- The digests of `deriveKey`'s loop, from the `i`-th on. -/
def digests (z otherInfo : Bytes) (i : Nat) : Nat → Except JsError Bytes
  | 0 => pure []
  | reps + 1 => do
    let counter ← uint32be i
    let rest ← digests z otherInfo (i + 1) reps
    pure (C.sha256 (counter ++ z ++ otherInfo) ++ rest)

/-- SuppPrivInfo: length-prefixed like the other fields, or raw for the pre-0.5 derivation. -/
def OtherInfo.supp (info : OtherInfo) : Except JsError Bytes :=
  match info.suppPrivInfo with
  | none => pure []
  | some supp => if info.legacyRawSuppPrivInfo then pure supp else lengthPrefix supp

/-- `concatKdf.deriveKey` -/
def deriveKey (z : Bytes) (info : OtherInfo) (keyDataLenBits : Nat) : Except JsError Bytes := do
  require (info.alg ≠ []) (typeError (js "ConcatKDF: alg must be a non-empty string"))
  require (0 < keyDataLenBits ∧ keyDataLenBits % 8 = 0 ∧ keyDataLenBits ≤ 4096)
    (error (js "ConcatKDF: keyDataLenBits must be a positive multiple of 8 ≤ 4096; got " ++
      natText keyDataLenBits))
  let keyDataLenBytes := keyDataLenBits / 8
  let supp ← info.supp
  let algInfo ← lengthPrefix (textEncode info.alg)
  let apuInfo ← lengthPrefix info.apu
  let apvInfo ← lengthPrefix info.apv
  let bits ← uint32be keyDataLenBits
  let otherInfo := algInfo ++ apuInfo ++ apvInfo ++ bits ++ supp
  let out ← digests C z otherInfo 1 ((keyDataLenBytes + hashLen - 1) / hashLen)
  pure (out.take keyDataLenBytes)

/-! ## The key-encryption keys -/

/-- `deriveKekAuthcrypt` -/
def deriveKekAuthcrypt (ephemeralPrivate senderPrivate recipientPublic : Bytes) (info : OtherInfo)
    (crv : Curve) : Except JsError Bytes := do
  let ze ← sharedSecret C crv ephemeralPrivate recipientPublic
  let zs ← sharedSecret C crv senderPrivate recipientPublic
  deriveKey C (ze ++ zs) info 256

/-- `recipientKekAuthcrypt` -/
def recipientKekAuthcrypt (recipientPrivate ephemeralPublic senderPublic : Bytes) (info : OtherInfo)
    (crv : Curve) : Except JsError Bytes := do
  let ze ← sharedSecret C crv recipientPrivate ephemeralPublic
  let zs ← sharedSecret C crv recipientPrivate senderPublic
  deriveKey C (ze ++ zs) info 256

/-- `deriveKekAnoncrypt` -/
def deriveKekAnoncrypt (ephemeralPrivate recipientPublic : Bytes) (info : OtherInfo) (crv : Curve) :
    Except JsError Bytes := do
  let z ← sharedSecret C crv ephemeralPrivate recipientPublic
  deriveKey C z info 256

/-- `recipientKekAnoncrypt` -/
def recipientKekAnoncrypt (recipientPrivate ephemeralPublic : Bytes) (info : OtherInfo)
    (crv : Curve) : Except JsError Bytes := do
  let z ← sharedSecret C crv recipientPrivate ephemeralPublic
  deriveKey C z info 256

/-! ## Key wrap and content encryption -/

/-- `assertBytes` with a length. -/
def assertBytes (name : JsString) (value : Bytes) (exactLen : Nat) : Except JsError Unit :=
  require (value.length = exactLen)
    (error (name ++ js " must be " ++ natText exactLen ++ js " bytes, got " ++
      natText value.length))

/-- `aes.wrapKey` -/
def wrapKey (kek cek : Bytes) : Except JsError Bytes := do
  assertBytes (js "kek") kek 32
  raised (C.aesKwWrap kek cek)

/-- `aes.unwrapKey` -/
def unwrapKey (kek wrapped : Bytes) : Except JsError Bytes := do
  assertBytes (js "kek") kek 32
  raised (C.aesKwUnwrap kek wrapped)

/-- `uint64beBitLen`. A number is a double, and `&` takes it modulo 2^32. -/
def uint64beBitLen (byteLen : Nat) : Bytes :=
  [7, 6, 5, 4, 3, 2, 1, 0].map fun i => ((toDouble ((byteLen * 8) >>> (i * 8))).getD 0).toUInt8

/-- `hmacTag` -/
def hmacTag (macKey aad iv ciphertext : Bytes) : Bytes :=
  (C.hmacSha512 macKey (aad ++ iv ++ ciphertext ++ uint64beBitLen aad.length)).take tagBytes

/-- `constantTimeEqual` -/
def constantTimeEqual (a b : Bytes) : Bool :=
  a.length = b.length && (a.zip b).foldl (fun acc p => acc ||| (p.1 ^^^ p.2)) 0 = 0

/-- `a256cbcHs512.encrypt` -/
def encrypt (cek iv aad plaintext : Bytes) : Except JsError (Bytes × Bytes) := do
  assertBytes (js "a256cbc-hs512: cek") cek cekBytes
  assertBytes (js "a256cbc-hs512: iv") iv ivBytes
  let macKey := cek.take 32
  let encKey := (cek.drop 32).take 32
  let ciphertext := C.aesCbcEncrypt encKey iv plaintext
  pure (ciphertext, hmacTag C macKey aad iv ciphertext)

/-- `a256cbcHs512.decrypt` -/
def decrypt (cek iv aad ciphertext tag : Bytes) : Except JsError Bytes := do
  assertBytes (js "a256cbc-hs512: cek") cek cekBytes
  assertBytes (js "a256cbc-hs512: iv") iv ivBytes
  assertBytes (js "a256cbc-hs512: tag") tag tagBytes
  let macKey := cek.take 32
  let encKey := (cek.drop 32).take 32
  require (constantTimeEqual (hmacTag C macKey aad iv ciphertext) tag = true)
    (error (js "A256CBC-HS512: authentication tag mismatch"))
  raised (C.aesCbcDecrypt encKey iv ciphertext)

/-! ## What the primitives promise -/

/-- The behaviour of the primitives that the two sides of an envelope rely on. -/
structure Crypto.Lawful : Prop where
  /-- A key pair's private part is 32 bytes. -/
  private_length : ∀ {crv a A}, C.getPublicKey crv a = .ok A → a.length = 32
  /-- An X25519 public key is 32 bytes. -/
  x25519_length : ∀ {a A}, C.getPublicKey .x25519 a = .ok A → A.length = 32
  /-- A P-256 public key is an uncompressed point on the curve. -/
  p256_point : ∀ {a A}, C.getPublicKey .p256 a = .ok A →
    A.length = uncompressedLen ∧ A.head? = some 0x04 ∧ C.fromBytes A = .ok ()
  /-- Key agreement commutes. -/
  commutes : ∀ {crv a A b B}, C.getPublicKey crv a = .ok A → C.getPublicKey crv b = .ok B →
    ∃ z, C.getSharedSecret crv a B = .ok z ∧ C.getSharedSecret crv b A = .ok z
  sha256_length : ∀ bytes, (C.sha256 bytes).length = 32
  hmac_length : ∀ key bytes, (C.hmacSha512 key bytes).length = 64
  /-- Wrapping adds a block, and unwrapping inverts it. -/
  unwrap_wrap : ∀ {kek cek}, kek.length = 32 → cek.length = cekBytes →
    ∃ wrapped, C.aesKwWrap kek cek = .ok wrapped ∧ wrapped.length = cek.length + 8 ∧
      C.aesKwUnwrap kek wrapped = .ok cek
  /-- Decrypting inverts encrypting. -/
  decrypt_encrypt : ∀ {key iv plaintext}, key.length = 32 → iv.length = ivBytes →
    C.aesCbcDecrypt key iv (C.aesCbcEncrypt key iv plaintext) = .ok plaintext

variable {C}

/-- Both sides of a key agreement compute the same secret. -/
lemma Crypto.Lawful.sharedSecret (hC : C.Lawful) {crv : Curve} {a A b B : Bytes}
    (ha : C.getPublicKey crv a = .ok A) (hb : C.getPublicKey crv b = .ok B) :
    ∃ z, sharedSecret C crv a B = .ok z ∧ VtiDidcomm.sharedSecret C crv b A = .ok z := by
  obtain ⟨z, hz, hz'⟩ := hC.commutes ha hb
  cases crv with
  | x25519 =>
    refine ⟨z, ?_, ?_⟩
    · simp only [VtiDidcomm.sharedSecret, require_of (hC.private_length ha),
        require_of (hC.x25519_length hb), ok_bind, hz, raised_ok]
    · simp only [VtiDidcomm.sharedSecret, require_of (hC.private_length hb),
        require_of (hC.x25519_length ha), ok_bind, hz', raised_ok]
  | p256 =>
    have ha' : a.length = coordLen := hC.private_length ha
    have hb' : b.length = coordLen := hC.private_length hb
    refine ⟨(z.drop 1).take coordLen, ?_, ?_⟩
    · simp only [VtiDidcomm.sharedSecret, require_of ha', ok_bind, hz, raised_ok]
      rfl
    · simp only [VtiDidcomm.sharedSecret, require_of hb', ok_bind, hz', raised_ok]
      rfl

/-- Bytes with a length of 32 bits have a prefix. -/
lemma lengthPrefix_ok {bytes : Bytes} (h : bytes.length ≤ 0xffffffff) :
    ∃ out, lengthPrefix bytes = .ok out := by
  simp only [lengthPrefix, uint32be, require_of h, ok_bind]
  exact ⟨_, rfl⟩

/-- Supplementary bytes with lengths of 32 bits can be written. -/
lemma OtherInfo.supp_ok {info : OtherInfo}
    (h : ∀ supp, info.suppPrivInfo = some supp → supp.length ≤ 0xffffffff) :
    ∃ out, info.supp = .ok out := by
  unfold OtherInfo.supp
  split
  · exact ⟨_, rfl⟩
  · rename_i supp hs
    split
    · exact ⟨_, rfl⟩
    · exact lengthPrefix_ok (h supp hs)

/-- One round is one digest. -/
lemma digests_one (z otherInfo : Bytes) :
    digests C z otherInfo 1 1 = .ok (C.sha256 ([0, 0, 0, 1] ++ z ++ otherInfo) ++ []) := rfl

/-- A key of one digest is derived whenever the inputs fit their length prefixes. -/
lemma Crypto.Lawful.deriveKey_ok (hC : C.Lawful) (z : Bytes) {info : OtherInfo}
    (halg : info.alg ≠ []) (halg' : (textEncode info.alg).length ≤ 0xffffffff)
    (hapu : info.apu.length ≤ 0xffffffff) (hapv : info.apv.length ≤ 0xffffffff)
    (hsupp : ∀ supp, info.suppPrivInfo = some supp → supp.length ≤ 0xffffffff) :
    ∃ kek, deriveKey C z info 256 = .ok kek ∧ kek.length = 32 := by
  obtain ⟨algInfo, h₁⟩ := lengthPrefix_ok halg'
  obtain ⟨apuInfo, h₂⟩ := lengthPrefix_ok hapu
  obtain ⟨apvInfo, h₃⟩ := lengthPrefix_ok hapv
  obtain ⟨supp, h₄⟩ := OtherInfo.supp_ok hsupp
  have hbits : uint32be 256 = .ok [0, 0, 1, 0] := rfl
  have hreps : (256 / 8 + hashLen - 1) / hashLen = 1 := rfl
  have hkey : deriveKey C z info 256 = .ok
      ((C.sha256 ([0, 0, 0, 1] ++ z ++ (algInfo ++ apuInfo ++ apvInfo ++ [0, 0, 1, 0] ++ supp)) ++
        []).take (256 / 8)) := by
    simp only [deriveKey, require_of halg, h₁, h₂, h₃, h₄, hbits, hreps,
      digests_one, ok_bind]
    rfl
  exact ⟨_, hkey, by simp [hC.sha256_length]⟩

/-- Sender and recipient derive one key for authcrypt. -/
lemma Crypto.Lawful.kekAuthcrypt (hC : C.Lawful) {crv : Curve} {e E s S r R : Bytes}
    (he : C.getPublicKey crv e = .ok E) (hs : C.getPublicKey crv s = .ok S)
    (hr : C.getPublicKey crv r = .ok R) (info : OtherInfo) :
    deriveKekAuthcrypt C e s R info crv = recipientKekAuthcrypt C r E S info crv := by
  obtain ⟨ze, h₁, h₁'⟩ := hC.sharedSecret he hr
  obtain ⟨zs, h₂, h₂'⟩ := hC.sharedSecret hs hr
  simp only [deriveKekAuthcrypt, recipientKekAuthcrypt, h₁, h₁', h₂, h₂']

/-- Sender and recipient derive one key for anoncrypt. -/
lemma Crypto.Lawful.kekAnoncrypt (hC : C.Lawful) {crv : Curve} {e E r R : Bytes}
    (he : C.getPublicKey crv e = .ok E) (hr : C.getPublicKey crv r = .ok R) (info : OtherInfo) :
    deriveKekAnoncrypt C e R info crv = recipientKekAnoncrypt C r E info crv := by
  obtain ⟨z, h, h'⟩ := hC.sharedSecret he hr
  simp only [deriveKekAnoncrypt, recipientKekAnoncrypt, h, h']

/-- A key that is wrapped is unwrapped. -/
lemma Crypto.Lawful.unwrapKey_wrapKey (hC : C.Lawful) {kek cek : Bytes} (hk : kek.length = 32)
    (hc : cek.length = cekBytes) :
    ∃ wrapped, wrapKey C kek cek = .ok wrapped ∧ wrapped ≠ [] ∧
      unwrapKey C kek wrapped = .ok cek := by
  obtain ⟨wrapped, hw, hlen, hu⟩ := hC.unwrap_wrap hk hc
  refine ⟨wrapped, ?_, List.ne_nil_of_length_pos (by omega), ?_⟩
  · simp only [wrapKey, assertBytes, require_of hk, ok_bind, hw, raised_ok]
  · simp only [unwrapKey, assertBytes, require_of hk, ok_bind, hu, raised_ok]

/-- Bytes are equal to themselves. -/
lemma constantTimeEqual_refl (a : Bytes) : constantTimeEqual a a = true := by
  have hxor : (a.zip a).foldl (fun acc p => acc ||| (p.1 ^^^ p.2)) (0 : UInt8) = 0 := by
    induction a with
    | nil => rfl
    | cons b a ih => simpa using ih
  simp [constantTimeEqual, hxor]

/-- A tag has 32 bytes. -/
lemma Crypto.Lawful.hmacTag_length (hC : C.Lawful) (macKey aad iv ciphertext : Bytes) :
    (hmacTag C macKey aad iv ciphertext).length = tagBytes := by
  simp [hmacTag, hC.hmac_length, tagBytes]

/-- Decrypting under the content-encryption key and the additional data of the encryption. -/
lemma Crypto.Lawful.decrypt_of_encrypt (hC : C.Lawful) {cek iv : Bytes} (hc : cek.length = cekBytes)
    (hi : iv.length = ivBytes) (aad plaintext : Bytes) :
    ∃ ciphertext tag, encrypt C cek iv aad plaintext = .ok (ciphertext, tag) ∧
      tag.length = tagBytes ∧ decrypt C cek iv aad ciphertext tag = .ok plaintext := by
  have hkey : ((cek.drop 32).take 32).length = 32 := by
    rw [cekBytes] at hc
    simp [hc]
  let ciphertext := C.aesCbcEncrypt ((cek.drop 32).take 32) iv plaintext
  refine ⟨ciphertext, hmacTag C (cek.take 32) aad iv ciphertext, ?_, hC.hmacTag_length _ _ _ _, ?_⟩
  · simp only [encrypt, assertBytes, require_of hc, require_of hi, ok_bind]
    rfl
  · simp only [decrypt, assertBytes, require_of hc, require_of hi,
      require_of (hC.hmacTag_length _ _ _ _), require_of (constantTimeEqual_refl _), ok_bind]
    rw [hC.decrypt_encrypt hkey hi, raised_ok]

end VtiDidcomm
