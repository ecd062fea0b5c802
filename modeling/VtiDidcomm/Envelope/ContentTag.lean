import Mathlib.Data.Nat.Digits.Defs
import VtiDidcomm.Envelope.Sample

/-!
# The authentication tag

What the tag of `a256cbc-hs512.js` is computed over. The additional data and the ciphertext are both
of any length, and only the eight bytes at the end say where the first stops: they write its length
in bits (`ofDigits_uint64beBitLen`), and the input is cut from the end.
-/

namespace VtiDidcomm
open Js

variable {C : Crypto}

/-- `macInput` of `hmacTag`. -/
def macInput (aad iv ciphertext : Bytes) : Bytes :=
  aad ++ iv ++ ciphertext ++ uint64beBitLen aad.length

/-- The tag is the first half of a MAC over one text. -/
lemma hmacTag_eq (macKey aad iv ciphertext : Bytes) :
    hmacTag C macKey aad iv ciphertext =
      (C.hmacSha512 macKey (macInput aad iv ciphertext)).take tagBytes := rfl

/-! ## The length at the end -/

/-- A number of bits is a double: only its three lowest bits can fall below the last place. -/
lemma toDouble_mul_eight {n : Nat} (h : n < 2 ^ 53) : toDouble (n * 8) = some (n * 8) := by
  by_cases hn : n = 0
  · subst hn
    rfl
  apply toDouble_of_dvd
  · have hlog : (n * 8).log2 < 56 := by
      rw [Nat.log2_lt (by omega)]
      omega
    -- the unit in the last place is at most 8
    have hulp : 2 ^ ((n * 8).log2 - 52) ∣ 2 ^ 3 := by
      apply Nat.pow_dvd_pow
      omega
    exact Nat.dvd_trans hulp (Nat.dvd_mul_left 8 n)
  · omega

/-- A length below 2⁵³ is written in bits, as eight bytes. -/
lemma uint64beBitLen_eq {n : Nat} (h : n < 2 ^ 53) :
    uint64beBitLen n = [7, 6, 5, 4, 3, 2, 1, 0].map fun i => (n * 8 / 256 ^ i).toUInt8 := by
  apply List.map_congr_left
  intro i hi
  have hshift : (n * 8) >>> (i * 8) = n * 8 / 256 ^ i := by
    rw [Nat.shiftRight_eq_div_pow, Nat.mul_comm i 8, Nat.pow_mul]
  rw [hshift]
  by_cases hi0 : i = 0
  · subst hi0
    rw [Nat.pow_zero, Nat.div_one, toDouble_mul_eight h]
    rfl
  · -- the lowest byte shifted out, what is left is a safe integer
    have hpow : 256 ^ 1 ≤ 256 ^ i := Nat.pow_le_pow_right (by omega) (by omega)
    have hlt : n * 8 / 256 ^ i < 2 ^ 53 := by
      calc n * 8 / 256 ^ i ≤ n * 8 / 256 ^ 1 := Nat.div_le_div_left hpow (by omega)
        _ < 2 ^ 53 := by omega
    rw [toDouble_of_lt hlt]
    rfl

/-- A length takes eight bytes. -/
lemma length_uint64beBitLen (n : Nat) : (uint64beBitLen n).length = 8 := rfl

/-- The eight bytes write the number of bits, the highest byte first. -/
lemma ofDigits_uint64beBitLen {n : Nat} (h : n < 2 ^ 53) :
    Nat.ofDigits 256 ((uint64beBitLen n).reverse.map UInt8.toNat) = 8 * n := by
  rw [uint64beBitLen_eq h]
  simp only [List.map_cons, List.map_nil, List.reverse_cons, List.reverse_nil, List.nil_append,
    List.cons_append, Nat.ofDigits_cons, Nat.ofDigits_nil, Nat.toUInt8_eq, UInt8.toNat_ofNat']
  omega

/-! ## Where the input is cut -/

/-- The tag's input determines what it was joined from. -/
lemma macInput_inj {aad aad' iv iv' ciphertext ciphertext' : Bytes} (ha : aad.length < 2 ^ 53)
    (ha' : aad'.length < 2 ^ 53) (hiv : iv.length = iv'.length)
    (h : macInput aad iv ciphertext = macInput aad' iv' ciphertext') :
    aad = aad' ∧ iv = iv' ∧ ciphertext = ciphertext' := by
  obtain ⟨hparts, hlen⟩ := List.append_inj' h rfl
  have haad : aad.length = aad'.length := by
    have hbits := congrArg (fun al => Nat.ofDigits 256 (al.reverse.map UInt8.toNat)) hlen
    simp only [ofDigits_uint64beBitLen ha, ofDigits_uint64beBitLen ha'] at hbits
    omega
  rw [List.append_assoc, List.append_assoc] at hparts
  obtain ⟨h₁, hparts⟩ := List.append_inj hparts haad
  obtain ⟨h₂, h₃⟩ := List.append_inj hparts hiv
  exact ⟨h₁, h₂, h₃⟩

/-! ## The comparison -/

/-- The accumulator is zero as long as the bytes agree. -/
lemma foldl_xor_eq_zero (ps : List (UInt8 × UInt8)) (acc : UInt8) :
    ps.foldl (fun acc p => acc ||| (p.1 ^^^ p.2)) acc = 0 ↔ acc = 0 ∧ ∀ p ∈ ps, p.1 = p.2 := by
  induction ps generalizing acc with
  | nil => simp
  | cons p ps ih =>
    rw [List.foldl_cons, ih, UInt8.or_eq_zero_iff, UInt8.xor_eq_zero_iff, List.forall_mem_cons,
      and_assoc]

/-- Lists of one length that agree place by place are equal. -/
lemma eq_of_forall_mem_zip {a b : Bytes} (hlen : a.length = b.length)
    (h : ∀ p ∈ a.zip b, p.1 = p.2) : a = b := by
  induction a generalizing b with
  | nil => exact (List.length_eq_zero_iff.mp hlen.symm).symm
  | cons x a ih =>
    cases b with
    | nil => cases hlen
    | cons y b =>
      rw [List.zip_cons_cons, List.forall_mem_cons] at h
      obtain ⟨hxy, h⟩ := h
      rw [show x = y from hxy, ih (Nat.succ.inj hlen) h]

/-- The comparison is equality. -/
lemma constantTimeEqual_iff {a b : Bytes} : constantTimeEqual a b = true ↔ a = b := by
  constructor
  · intro h
    simp only [constantTimeEqual, Bool.and_eq_true, decide_eq_true_eq, foldl_xor_eq_zero] at h
    obtain ⟨hlen, -, h⟩ := h
    exact eq_of_forall_mem_zip hlen h
  · intro h
    rw [h]
    exact constantTimeEqual_refl b

/-! ## Encrypting and decrypting -/

/-- A plaintext is returned exactly when the tag is the one of the triple given. -/
lemma decrypt_eq_ok {cek iv aad ciphertext tag plaintext : Bytes} :
    decrypt C cek iv aad ciphertext tag = .ok plaintext ↔
      cek.length = cekBytes ∧ iv.length = ivBytes ∧ tag.length = tagBytes ∧
        tag = hmacTag C (cek.take 32) aad iv ciphertext ∧
        C.aesCbcDecrypt ((cek.drop 32).take 32) iv ciphertext = .ok plaintext := by
  simp only [decrypt, assertBytes, bind_eq_ok, require_eq_ok, exists_const, constantTimeEqual_iff,
    raised_eq_ok]
  constructor
  · rintro ⟨hc, hi, ht, htag, hp⟩
    exact ⟨hc, hi, ht, htag.symm, hp⟩
  · rintro ⟨hc, hi, ht, htag, hp⟩
    exact ⟨hc, hi, ht, htag.symm, hp⟩

/-- What is encrypted, and its tag. -/
lemma encrypt_eq_ok {cek iv : Bytes} (hc : cek.length = cekBytes) (hi : iv.length = ivBytes)
    (aad plaintext : Bytes) :
    encrypt C cek iv aad plaintext =
      .ok (C.aesCbcEncrypt ((cek.drop 32).take 32) iv plaintext,
        hmacTag C (cek.take 32) aad iv (C.aesCbcEncrypt ((cek.drop 32).take 32) iv plaintext)) := by
  simp only [encrypt, assertBytes, require_of hc, require_of hi, ok_bind]
  rfl

section

variable (hmac_length : ∀ key bytes, (C.hmacSha512 key bytes).length = 64)
  (decrypt_encrypt : ∀ {key iv plaintext}, key.length = 32 → iv.length = ivBytes →
    C.aesCbcDecrypt key iv (C.aesCbcEncrypt key iv plaintext) = .ok plaintext)

include hmac_length decrypt_encrypt in
/-- What is encrypted is decrypted. -/
lemma decrypt_of_encrypt {cek iv : Bytes} (hc : cek.length = cekBytes) (hi : iv.length = ivBytes)
    (aad plaintext : Bytes) :
    ∃ ciphertext tag, encrypt C cek iv aad plaintext = .ok (ciphertext, tag) ∧
      decrypt C cek iv aad ciphertext tag = .ok plaintext := by
  refine ⟨_, _, encrypt_eq_ok hc hi aad plaintext, ?_⟩
  apply decrypt_eq_ok.mpr
  refine ⟨hc, hi, ?_, rfl, ?_⟩
  · rw [hmacTag_eq, List.length_take, hmac_length]
    rfl
  · apply decrypt_encrypt
    · rw [cekBytes] at hc
      simp [hc]
    · exact hi

include hmac_length decrypt_encrypt in
/-- The tag's input determines the additional data, the initialisation vector and the ciphertext; a
plaintext is returned only under the tag of exactly these, and what was encrypted is decrypted. -/
theorem content_tag_unambiguous :
    (∀ byteLen < 2 ^ 53, (uint64beBitLen byteLen).length = 8 ∧
      Nat.ofDigits 256 ((uint64beBitLen byteLen).reverse.map UInt8.toNat) = 8 * byteLen) ∧
    (∀ {aad aad' iv iv' ciphertext ciphertext' : Bytes}, aad.length < 2 ^ 53 →
      aad'.length < 2 ^ 53 → iv.length = 16 → iv'.length = 16 →
      macInput aad iv ciphertext = macInput aad' iv' ciphertext' →
        aad = aad' ∧ iv = iv' ∧ ciphertext = ciphertext') ∧
    (∀ {cek iv aad ciphertext tag plaintext : Bytes},
      decrypt C cek iv aad ciphertext tag = .ok plaintext →
        tag = (C.hmacSha512 (cek.take 32) (macInput aad iv ciphertext)).take 32) ∧
    (∀ {cek iv : Bytes}, cek.length = 64 → iv.length = 16 → ∀ aad plaintext,
      ∃ ciphertext tag, encrypt C cek iv aad plaintext = .ok (ciphertext, tag) ∧
        decrypt C cek iv aad ciphertext tag = .ok plaintext) := by
  refine ⟨?length, ?input, ?tag, ?inverse⟩
  case length =>
    intro byteLen h
    exact ⟨length_uint64beBitLen byteLen, ofDigits_uint64beBitLen h⟩
  case input =>
    intro aad aad' iv iv' ciphertext ciphertext' ha ha' hi hi' h
    exact macInput_inj ha ha' (hi.trans hi'.symm) h
  case tag =>
    intro cek iv aad ciphertext tag plaintext h
    obtain ⟨-, -, -, htag, -⟩ := decrypt_eq_ok.mp h
    exact htag
  case inverse =>
    intro cek iv hc hi aad plaintext
    exact decrypt_of_encrypt hmac_length decrypt_encrypt hc hi aad plaintext

end

theorem content_tag_unambiguous_sample :
    Nat.ofDigits 256 ((uint64beBitLen 3).reverse.map UInt8.toNat) = 24 ∧
    ∃ ciphertext tag,
      encrypt Crypto.sample (List.replicate 64 1) (List.replicate 16 2) [3] [4] =
        .ok (ciphertext, tag) ∧
      decrypt Crypto.sample (List.replicate 64 1) (List.replicate 16 2) [3] ciphertext tag =
        .ok [4] := by
  obtain ⟨hlength, -, -, hinverse⟩ := content_tag_unambiguous (C := Crypto.sample)
    Crypto.sample_lawful.hmac_length Crypto.sample_lawful.decrypt_encrypt
  exact ⟨(hlength 3 (by omega)).2,
    hinverse List.length_replicate List.length_replicate [3] [4]⟩

end VtiDidcomm
