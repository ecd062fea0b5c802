import VtiDidcomm.Data.Pratt
import VtiDidcomm.Envelope.Crypto
import Mathlib.FieldTheory.Finite.Basic

/-!
# From Ed25519 to X25519

`ed25519PublicKeyToX25519` of `did-key.js` with its `BigInt` helpers. The compressed point is read
as the coordinate `y`, the top bit dropped, and the key written is `u = (1 + y) / (1 - y)` in the
field of `2^255 - 19`, where the inverse is a power (`modInverse`). The remainder of a `BigInt` has
the sign of the dividend: `Int.tmod`.
-/

namespace VtiDidcomm
open Js

/-- `ED25519_FIELD_PRIME` -/
def ed25519FieldPrime : Int := 2 ^ 255 - 19

/-- `leToBigInt`: the next byte goes into the low bits that the shift leaves free. -/
def leToBigInt (bytes : Bytes) : Int := bytes.foldr (fun b out => out * 256 + b.toNat) 0

/-- The loop of `bigIntToLe32` over the remaining `i` bytes: `n & 0xffn`, then `n >>= 8n`. -/
def leBytes : Nat → Int → Bytes
  | 0, _ => []
  | i + 1, n => (n % 256).toNat.toUInt8 :: leBytes i (n / 256)

/-- `bigIntToLe32` -/
def bigIntToLe32 (n : Int) : Bytes := leBytes 32 n

/-- The loop of `modPow`. -/
def modPowLoop (result base : Int) (e : Nat) (mod : Int) : Int :=
  if e = 0 then result
  else
    let result := if e % 2 = 1 then (result * base).tmod mod else result
    modPowLoop result ((base * base).tmod mod) (e / 2) mod
termination_by e

/-- `modPow` -/
def modPow (base : Int) (exp : Nat) (mod : Int) : Int :=
  let base := base.tmod mod
  let base := if base < 0 then base + mod else base
  modPowLoop 1 base exp mod

/-- `modInverse` -/
def modInverse (a p : Int) : Int := modPow a (p - 2).toNat p

/-- The `u` of `ed25519PublicKeyToX25519`: the quotient of `1 + y` and `1 - y` modulo `p`. -/
def montgomeryU (y p : Int) : Int :=
  let num := (1 + y).tmod p
  let denomRaw := (1 - y).tmod p
  let denom := if denomRaw < 0 then denomRaw + p else denomRaw
  (num * modInverse denom p).tmod p

/-- `ed25519PublicKeyToX25519` -/
def ed25519PublicKeyToX25519 (edPub : Bytes) : Except JsError Bytes := do
  require (edPub.length = 32)
    (typeError (js "ed25519PublicKeyToX25519: input must be 32 bytes"))
  let yLe := edPub.modify 31 (· &&& 0x7f)
  let y := leToBigInt yLe
  pure (bigIntToLe32 (montgomeryU y ed25519FieldPrime))

/-! ## Powers -/

/-- A remainder is congruent to the number. -/
lemma cast_tmod (a : Int) (m : Nat) : ((a.tmod m : Int) : ZMod m) = a := by
  rw [Int.tmod_def]
  push_cast
  simp

/-- The loop of `modPow` computes a power. -/
lemma cast_modPowLoop (result base : Int) (e m : Nat) :
    ((modPowLoop result base e m : Int) : ZMod m) = (result : ZMod m) * (base : ZMod m) ^ e := by
  induction e using Nat.strong_induction_on generalizing result base with
  | _ e ih =>
    rw [modPowLoop]
    by_cases he : e = 0
    · simp [he]
    have hsq : ((base * base).tmod m : ZMod m) ^ (e / 2) = (base : ZMod m) ^ (2 * (e / 2)) := by
      rw [cast_tmod, Int.cast_mul, ← pow_two, ← pow_mul]
    rw [if_neg he, ih _ (Nat.div_lt_self (Nat.pos_of_ne_zero he) (by decide)), hsq]
    by_cases hodd : e % 2 = 1
    · have e2 : (base : ZMod m) ^ e = base * (base : ZMod m) ^ (2 * (e / 2)) := by
        rw [← pow_succ']
        congr 1
        omega
      rw [if_pos hodd, cast_tmod, Int.cast_mul, e2, mul_assoc]
    · have e2 : 2 * (e / 2) = e := by omega
      rw [if_neg hodd, e2]

/-- The result stays a remainder. -/
lemma modPowLoop_bounds {result base : Int} (e : Nat) {m : Int} (h0 : 0 ≤ result) (hm : result < m)
    (hb : 0 ≤ base) : 0 ≤ modPowLoop result base e m ∧ modPowLoop result base e m < m := by
  induction e using Nat.strong_induction_on generalizing result base with
  | _ e ih =>
    rw [modPowLoop]
    by_cases he : e = 0
    · rw [if_pos he]
      exact ⟨h0, hm⟩
    rw [if_neg he]
    apply ih _ (Nat.div_lt_self (Nat.pos_of_ne_zero he) (by decide))
    · split
      · exact Int.tmod_nonneg _ (Int.mul_nonneg h0 hb)
      · exact h0
    · split
      · exact Int.tmod_lt_of_pos _ (lt_of_le_of_lt h0 hm)
      · exact hm
    · exact Int.tmod_nonneg _ (Int.mul_nonneg hb hb)

/-- A remainder made non-negative. -/
lemma nonneg_tmod (a : Int) {m : Int} (hm : 0 < m) :
    0 ≤ (if a.tmod m < 0 then a.tmod m + m else a.tmod m) := by
  have h := Int.lt_tmod_of_pos a hm
  split <;> omega

/-- A remainder that is made non-negative is congruent to the number. -/
lemma cast_nonneg_tmod (a : Int) (m : Nat) :
    (((if a.tmod m < 0 then a.tmod m + m else a.tmod m : Int)) : ZMod m) = a := by
  split
  · rw [Int.cast_add, cast_tmod]
    simp
  · exact cast_tmod a m

/-- `modPow` computes a power. -/
lemma cast_modPow (base : Int) (exp m : Nat) :
    ((modPow base exp m : Int) : ZMod m) = (base : ZMod m) ^ exp := by
  rw [modPow, cast_modPowLoop, cast_nonneg_tmod]
  simp

/-- The result of `modPow` is reduced. -/
lemma modPow_bounds (base : Int) (exp : Nat) {m : Int} (hm : 1 < m) :
    0 ≤ modPow base exp m ∧ modPow base exp m < m :=
  modPowLoop_bounds exp (by decide) hm (nonneg_tmod base (by omega))

/-- Fermat: the power `p - 2` is the inverse, and zero has zero. -/
lemma cast_modInverse (a : Int) {p : Nat} [Fact p.Prime] (hp : 2 < p) :
    ((modInverse a p : Int) : ZMod p) = (a : ZMod p)⁻¹ := by
  have e : ((p : Int) - 2).toNat = p - 2 := by omega
  rw [modInverse, e, cast_modPow]
  by_cases h0 : (a : ZMod p) = 0
  · rw [h0, inv_zero, zero_pow (by omega)]
  · apply eq_inv_of_mul_eq_one_left
    have hone : (a : ZMod p) ^ (p - 1) = 1 := ZMod.pow_card_sub_one_eq_one h0
    rw [← pow_succ, ← hone]
    congr 1
    omega

/-- The result of `modInverse` is reduced. -/
lemma modInverse_bounds (a : Int) {p : Int} (hp : 1 < p) :
    0 ≤ modInverse a p ∧ modInverse a p < p :=
  modPow_bounds a _ hp

/-- A Montgomery coordinate is reduced. -/
lemma montgomeryU_bounds {y p : Int} (hy : 0 ≤ y) (hp : 1 < p) :
    0 ≤ montgomeryU y p ∧ montgomeryU y p < p := by
  unfold montgomeryU
  constructor
  · apply Int.tmod_nonneg
    exact Int.mul_nonneg (Int.tmod_nonneg _ (by omega)) (modInverse_bounds _ hp).1
  · exact Int.tmod_lt_of_pos _ (by omega)

/-- The coordinate is `(1 + y) / (1 - y)` in the field. -/
lemma cast_montgomeryU (y : Int) {p : Nat} [Fact p.Prime] (hp : 2 < p) :
    ((montgomeryU y p : Int) : ZMod p) = (1 + (y : ZMod p)) * (1 - (y : ZMod p))⁻¹ := by
  simp only [montgomeryU]
  rw [cast_tmod, Int.cast_mul, cast_modInverse _ hp, cast_nonneg_tmod, cast_tmod]
  push_cast
  rfl

/-! ## Bytes -/

/-- The little-endian value of bytes. -/
def leValue (bytes : Bytes) : Nat := Nat.ofDigits 256 (bytes.map UInt8.toNat)

@[simp] lemma leValue_cons (b : UInt8) (bytes : Bytes) :
    leValue (b :: bytes) = b.toNat + 256 * leValue bytes := by
  simp [leValue, Nat.ofDigits_cons]

/-- The number that bytes are read as is their value. -/
lemma leToBigInt_eq (bytes : Bytes) : leToBigInt bytes = leValue bytes := by
  induction bytes with
  | nil => rfl
  | cons b bytes ih =>
    have e : leToBigInt (b :: bytes) = leToBigInt bytes * 256 + b.toNat := rfl
    rw [e, ih, leValue_cons]
    push_cast
    omega

/-- A number that fits is written as bytes of its value. -/
lemma leBytes_spec (i : Nat) {n : Int} (h0 : 0 ≤ n) (hn : n < 256 ^ i) :
    (leBytes i n).length = i ∧ (leValue (leBytes i n) : Int) = n := by
  induction i generalizing n with
  | zero =>
    have e : n = 0 := by
      rw [pow_zero] at hn
      omega
    exact ⟨rfl, e.symm⟩
  | succ i ih =>
    have hdiv : n / 256 < 256 ^ i := by
      rw [pow_succ] at hn
      exact Int.ediv_lt_of_lt_mul (by decide) hn
    obtain ⟨hlen, hvalue⟩ := ih (Int.ediv_nonneg h0 (by decide)) hdiv
    have hbyte : ((n % 256).toNat.toUInt8).toNat = (n % 256).toNat := by
      have := Int.emod_lt_of_pos n (show (0 : Int) < 256 by decide)
      exact toNat_toUInt8 (by omega)
    constructor
    · rw [leBytes, List.length_cons, hlen]
    · rw [leBytes, leValue_cons, hbyte]
      push_cast
      rw [hvalue]
      omega

/-- The value of bytes is bounded by their number. -/
lemma leValue_lt (bytes : Bytes) : leValue bytes < 256 ^ bytes.length := by
  have hlen : (bytes.map UInt8.toNat).length = bytes.length := List.length_map UInt8.toNat
  rw [← hlen]
  apply Nat.ofDigits_lt_base_pow_length (by decide)
  intro d hd
  obtain ⟨b, -, rfl⟩ := List.mem_map.mp hd
  exact b.toNat_lt

/-- The bytes behind have the higher weight. -/
lemma leValue_append (a b : Bytes) : leValue (a ++ b) = leValue a + 256 ^ a.length * leValue b := by
  rw [leValue, List.map_append, Nat.ofDigits_append, List.length_map]
  rfl

/-- The value of one byte. -/
lemma leValue_singleton (b : UInt8) : leValue [b] = b.toNat := by
  simp [leValue]

/-- The last of 32 bytes is the highest. -/
lemma modify_last {low : Bytes} (h : low.length = 31) (top : UInt8) (f : UInt8 → UInt8) :
    (low ++ [top]).modify 31 f = low ++ [f top] := by
  rw [← h, List.modify_eq_take_drop, List.take_left, List.drop_left]
  rfl

/-- Thirty-two bytes are thirty-one low ones and the one that holds the sign. -/
lemma exists_last {bytes : Bytes} (h : bytes.length = 32) :
    ∃ low top, bytes = low ++ [top] ∧ low.length = 31 := by
  have hne : bytes ≠ [] := List.ne_nil_of_length_pos (by omega)
  exact ⟨_, _, (List.dropLast_append_getLast hne).symm, by simp [h]⟩

/-- Clearing the top bit of 32 bytes leaves the value below it. -/
lemma leValue_clear {bytes : Bytes} (h : bytes.length = 32) :
    leValue (bytes.modify 31 (· &&& 0x7f)) = leValue bytes % 2 ^ 255 := by
  obtain ⟨low, top, rfl, hlow⟩ := exists_last h
  have htop : (top &&& 0x7f).toNat = top.toNat % 128 := by
    rw [UInt8.toNat_and]
    exact Nat.and_two_pow_sub_one_eq_mod top.toNat 7
  have hlt := leValue_lt low
  rw [hlow] at hlt
  rw [modify_last hlow, leValue_append, leValue_append, hlow, leValue_singleton, leValue_singleton,
    htop]
  omega

/-- Clearing the top bit undoes flipping it. -/
lemma clear_flip (bytes : Bytes) :
    (bytes.modify 31 (· ^^^ 0x80)).modify 31 (· &&& 0x7f) = bytes.modify 31 (· &&& 0x7f) := by
  rw [List.modify_modify_eq]
  congr 1
  funext b
  rw [Function.comp_apply, ← UInt8.toNat_inj, UInt8.toNat_and, UInt8.toNat_xor,
    Nat.and_xor_distrib_right, UInt8.toNat_and]
  exact Nat.xor_zero _

/-! ## The conversion -/

/-- `2 ^ 255 - 19` -/
def fieldPrime : Nat := 2 ^ 255 - 19

instance : Fact fieldPrime.Prime := ⟨Pratt.prime_curve25519⟩

/-- The prime of the source is that of the field. -/
lemma ed25519FieldPrime_eq : ed25519FieldPrime = (fieldPrime : Int) := by
  decide

/-- The coordinate that an Ed25519 key stands for. -/
def edY (edPub : Bytes) : Nat := leValue edPub % 2 ^ 255

/-- The numbers `u` below the prime with `u * (1 - y) = 1 + y` in the field. -/
def IsMontgomeryU (y u : Nat) : Prop :=
  u < fieldPrime ∧ (u : Int) * (1 - y) ≡ 1 + y [ZMOD fieldPrime]

/-- What a key of 32 bytes is converted to. -/
lemma ed25519PublicKeyToX25519_eq {edPub : Bytes} (h : edPub.length = 32) :
    ed25519PublicKeyToX25519 edPub = .ok (bigIntToLe32 (montgomeryU (edY edPub) fieldPrime)) := by
  rw [ed25519PublicKeyToX25519, require_of h, ok_bind]
  simp only [leToBigInt_eq, leValue_clear h, ed25519FieldPrime_eq]
  rfl

/-- What is written is the quotient in the field. -/
lemma leValue_montgomeryU (y : Nat) :
    (bigIntToLe32 (montgomeryU y fieldPrime)).length = 32 ∧
      leValue (bigIntToLe32 (montgomeryU y fieldPrime)) < fieldPrime ∧
      (leValue (bigIntToLe32 (montgomeryU y fieldPrime)) : ZMod fieldPrime) =
        (1 + (y : ZMod fieldPrime)) * (1 - (y : ZMod fieldPrime))⁻¹ := by
  obtain ⟨h0, hlt⟩ := montgomeryU_bounds (y := y) (p := fieldPrime) (by omega) (by decide)
  obtain ⟨hlen, hvalue⟩ := leBytes_spec 32 h0 (lt_of_lt_of_le hlt (by decide))
  have hcast := cast_montgomeryU y (p := fieldPrime) (by decide)
  rw [← hvalue] at hlt
  rw [← hvalue, Int.cast_natCast, Int.cast_natCast] at hcast
  exact ⟨hlen, Int.ofNat_lt.mp hlt, hcast⟩

/-- The number written depends on the coordinate modulo the prime only. -/
lemma montgomeryU_congr {y y' : Nat} (h : y ≡ y' [MOD fieldPrime]) :
    montgomeryU y fieldPrime = montgomeryU y' fieldPrime := by
  have hcast : ((y : Int) : ZMod fieldPrime) = ((y' : Int) : ZMod fieldPrime) := by
    rw [Int.cast_natCast, Int.cast_natCast]
    exact (ZMod.natCast_eq_natCast_iff _ _ _).mpr h
  have e : ((montgomeryU y fieldPrime : Int) : ZMod fieldPrime) = montgomeryU y' fieldPrime := by
    rw [cast_montgomeryU _ (by decide), cast_montgomeryU _ (by decide), hcast]
  obtain ⟨h0, hlt⟩ := montgomeryU_bounds (y := y) (p := fieldPrime) (by omega) (by decide)
  obtain ⟨h0', hlt'⟩ := montgomeryU_bounds (y := y') (p := fieldPrime) (by omega) (by decide)
  rw [ZMod.intCast_eq_intCast_iff'] at e
  rwa [Int.emod_eq_of_lt h0 hlt, Int.emod_eq_of_lt h0' hlt'] at e

/-- Where `1 - y` is not zero in the field, the quotient is the one solution. -/
lemma isMontgomeryU_iff {y : Nat} (hy : y % fieldPrime ≠ 1) (u : Nat) :
    IsMontgomeryU y u ↔ u = leValue (bigIntToLe32 (montgomeryU y fieldPrime)) := by
  obtain ⟨-, hlt, hcast⟩ := leValue_montgomeryU y
  have hne : (1 - (y : ZMod fieldPrime)) ≠ 0 := by
    intro h0
    have e : ((1 : Nat) : ZMod fieldPrime) = (y : ZMod fieldPrime) := by
      rw [Nat.cast_one]
      exact sub_eq_zero.mp h0
    rw [ZMod.natCast_eq_natCast_iff'] at e
    exact hy (e.symm.trans (Nat.mod_eq_of_lt (by decide)))
  have hcongr : (u : Int) * (1 - y) ≡ 1 + y [ZMOD fieldPrime] ↔
      (u : ZMod fieldPrime) * (1 - (y : ZMod fieldPrime)) = 1 + (y : ZMod fieldPrime) := by
    rw [← ZMod.intCast_eq_intCast_iff]
    push_cast
    rfl
  rw [IsMontgomeryU, hcongr, ← eq_mul_inv_iff_mul_eq₀ hne, ← hcast,
    ZMod.natCast_eq_natCast_iff', Nat.mod_eq_of_lt hlt]
  constructor
  · intro ⟨hu, e⟩
    rwa [Nat.mod_eq_of_lt hu] at e
  · intro e
    rw [e]
    exact ⟨hlt, Nat.mod_eq_of_lt hlt⟩

/-- The point with `y = 1` is converted to zero. -/
lemma leValue_montgomeryU_one {y : Nat} (hy : y % fieldPrime = 1) :
    leValue (bigIntToLe32 (montgomeryU y fieldPrime)) = 0 := by
  obtain ⟨-, hlt, hcast⟩ := leValue_montgomeryU y
  have e : (y : ZMod fieldPrime) = ((1 : Nat) : ZMod fieldPrime) := by
    rw [ZMod.natCast_eq_natCast_iff', hy, Nat.mod_eq_of_lt (by decide)]
  have h0 : (leValue (bigIntToLe32 (montgomeryU y fieldPrime)) : ZMod fieldPrime) = (0 : Nat) := by
    rw [hcast, e, Nat.cast_one, sub_self, inv_zero, mul_zero, Nat.cast_zero]
  rwa [ZMod.natCast_eq_natCast_iff', Nat.mod_eq_of_lt hlt, Nat.zero_mod] at h0

/-- The conversion of 32 bytes is the 32-byte encoding of the one `u` below the prime with `u * (1 -
y) = 1 + y` in the field, of zero where `y` is one there. It is the same for all bytes whose `y` is
the same in the field, and when the top bit is flipped. -/
theorem ed25519PublicKeyToX25519_spec {edPub : Bytes} (h : edPub.length = 32) :
    ∃ out, ed25519PublicKeyToX25519 edPub = .ok out ∧ out.length = 32 ∧ leValue out < fieldPrime ∧
      (edY edPub % fieldPrime = 1 → leValue out = 0) ∧
      (edY edPub % fieldPrime ≠ 1 → ∀ u, IsMontgomeryU (edY edPub) u ↔ u = leValue out) ∧
      ed25519PublicKeyToX25519 (edPub.modify 31 (· ^^^ 0x80)) = .ok out ∧
      ∀ edPub', edPub'.length = 32 → edY edPub' ≡ edY edPub [MOD fieldPrime] →
        ed25519PublicKeyToX25519 edPub' = .ok out := by
  obtain ⟨hlen, hlt, -⟩ := leValue_montgomeryU (edY edPub)
  refine ⟨_, ed25519PublicKeyToX25519_eq h, hlen, hlt, leValue_montgomeryU_one,
    fun hy u => isMontgomeryU_iff hy u, ?_, fun edPub' h' hcongr => ?_⟩
  · have hflip : (edPub.modify 31 (· ^^^ 0x80)).length = 32 := by
      rw [List.length_modify, h]
    have hsame : edY (edPub.modify 31 (· ^^^ 0x80)) = edY edPub := by
      rw [edY, ← leValue_clear hflip, clear_flip, leValue_clear h, edY]
    rw [ed25519PublicKeyToX25519_eq hflip, hsame]
  · rw [ed25519PublicKeyToX25519_eq h', montgomeryU_congr hcongr]

/-- The point with `y = 2`: its `u` is the solution of `u * (1 - 2) = 1 + 2`. -/
theorem ed25519PublicKeyToX25519_spec_two :
    ∃ out, ed25519PublicKeyToX25519 (2 :: List.replicate 31 0) = .ok out ∧ out.length = 32 ∧
      leValue out = fieldPrime - 3 := by
  obtain ⟨out, hout, hlen, -, -, hu, -⟩ :=
    ed25519PublicKeyToX25519_spec (rfl : (2 :: List.replicate 31 0 : Bytes).length = 32)
  have hy : edY (2 :: List.replicate 31 0) = 2 := by decide
  rw [hy] at hu
  have hsol : IsMontgomeryU 2 (fieldPrime - 3) := by
    constructor
    · decide
    · decide
  exact ⟨out, hout, hlen, ((hu (by decide) _).mp hsol).symm⟩

example : ed25519PublicKeyToX25519
    [0x3b, 0x6a, 0x27, 0xbc, 0xce, 0xb6, 0xa4, 0x2d, 0x62, 0xa3, 0xa8, 0xd0, 0x2a, 0x6f, 0x0d, 0x73,
      0x65, 0x32, 0x15, 0x77, 0x1d, 0xe2, 0x43, 0xa6, 0x3a, 0xc0, 0x48, 0xa1, 0x8b, 0x59, 0xda, 0x29] = .ok
    [0x5b, 0xf5, 0x5c, 0x73, 0xb8, 0x2e, 0xbe, 0x22, 0xbe, 0x80, 0xf3, 0x43, 0x06, 0x67, 0xaf, 0x57,
      0x0f, 0xae, 0x25, 0x56, 0xa6, 0x41, 0x5e, 0x6b, 0x30, 0xd4, 0x06, 0x53, 0x00, 0xaa, 0x94, 0x7d] := by
  decide +kernel

end VtiDidcomm
