import Mathlib.Data.Nat.Digits.Lemmas
import Mathlib.Tactic.Ring

/-!
# Regrouping bits

Digits of `a` bits read as digits of `b` bits, the highest first: every digit is shifted into an
accumulator, and `b` bits are taken out as soon as they are there. What is taken out writes the
number read so far without its last bits (`ofDigits_regroup`).

Only the bits not yet taken out are read again (`regroup_congr`), so that an accumulator may lose or
keep any other bit.
-/

namespace Regroup

/-- The digits of `b` bits in the digits `ds` of `a` bits, with the accumulator `n` and the `bits`
of it not yet taken out. -/
def regroup (a b n bits : Nat) : List Nat → List Nat
  | [] => []
  | d :: ds =>
    if b ≤ bits + a then
      (n * 2 ^ a + d) / 2 ^ (bits + a - b) % 2 ^ b ::
        regroup a b (n * 2 ^ a + d) (bits + a - b) ds
    else regroup a b (n * 2 ^ a + d) (bits + a) ds

section

variable {a b : Nat}

/-! ## What is read of the accumulator -/

/-- The bits from `s` up to `s + b` are those of the rest below `s + b`. -/
lemma div_mod_congr {m n s b : Nat} (h : m % 2 ^ (s + b) = n % 2 ^ (s + b)) :
    m / 2 ^ s % 2 ^ b = n / 2 ^ s % 2 ^ b := by
  rw [← Nat.mod_mul_right_div_self, ← Nat.mod_mul_right_div_self, ← Nat.pow_add, h]

/-- Shifting in a digit keeps a congruence. -/
lemma shift_congr {m n bits : Nat} (h : m % 2 ^ bits = n % 2 ^ bits) (d : Nat) :
    (m * 2 ^ a + d) % 2 ^ (bits + a) = (n * 2 ^ a + d) % 2 ^ (bits + a) := by
  have hshift : m * 2 ^ a % (2 ^ bits * 2 ^ a) = n * 2 ^ a % (2 ^ bits * 2 ^ a) := by
    rw [Nat.mul_mod_mul_right, Nat.mul_mod_mul_right, h]
  rw [Nat.pow_add, Nat.add_mod, hshift, ← Nat.add_mod]

/-- Numbers that agree in their low bits agree in fewer. -/
lemma mod_two_pow_congr {m n k l : Nat} (hle : l ≤ k) (h : m % 2 ^ k = n % 2 ^ k) :
    m % 2 ^ l = n % 2 ^ l := by
  have hdvd : 2 ^ l ∣ 2 ^ k := Nat.pow_dvd_pow 2 hle
  rw [← Nat.mod_mod_of_dvd m hdvd, h, Nat.mod_mod_of_dvd n hdvd]

/-- Accumulators that agree on the bits not yet taken out give the same digits. -/
theorem regroup_congr {m n bits : Nat} (h : m % 2 ^ bits = n % 2 ^ bits) (ds : List Nat) :
    regroup a b m bits ds = regroup a b n bits ds := by
  induction ds generalizing m n bits with
  | nil => rfl
  | cons d ds ih =>
    have hshift := shift_congr (a := a) h d
    rw [regroup, regroup]
    by_cases hb : b ≤ bits + a
    · have hbyte : (m * 2 ^ a + d) / 2 ^ (bits + a - b) % 2 ^ b =
          (n * 2 ^ a + d) / 2 ^ (bits + a - b) % 2 ^ b := by
        apply div_mod_congr
        rw [Nat.sub_add_cancel hb]
        exact hshift
      have hrest := ih (mod_two_pow_congr (Nat.sub_le (bits + a) b) hshift)
      rw [if_pos hb, if_pos hb, hbyte, hrest]
    · rw [if_neg hb, if_neg hb, ih hshift]

/-! ## The number written -/

variable (hab : a ≤ b) (hb : 0 < b)

include hab hb in
/-- A digit is put out for every `b` bits taken in. -/
lemma length_regroup {bits : Nat} (hbits : bits < b) (n : Nat) (ds : List Nat) :
    (regroup a b n bits ds).length = (bits + a * ds.length) / b := by
  induction ds generalizing n bits with
  | nil =>
    rw [regroup, List.length_nil, Nat.mul_zero, Nat.add_zero, Nat.div_eq_of_lt hbits]
  | cons d ds ih =>
    have hbits' : bits + a * (d :: ds).length = bits + a + a * ds.length := by
      rw [List.length_cons]
      ring
    rw [regroup, hbits']
    by_cases h : b ≤ bits + a
    · have hcut : bits + a + a * ds.length = bits + a - b + a * ds.length + b := by omega
      rw [if_pos h, List.length_cons, ih (by omega), hcut, Nat.add_div_right _ hb]
    · rw [if_neg h, ih (by omega)]

/-- The digits that are put out have `b` bits. -/
lemma lt_of_mem_regroup {n bits c : Nat} {ds : List Nat} (h : c ∈ regroup a b n bits ds) :
    c < 2 ^ b := by
  induction ds generalizing n bits with
  | nil => cases h
  | cons d ds ih =>
    rw [regroup] at h
    split at h
    · cases h with
      | head => exact Nat.mod_lt _ (Nat.two_pow_pos b)
      | tail _ h => exact ih h
    · exact ih h

/-- The first digit has the highest weight. -/
lemma ofDigits_cons_reverse (base d : Nat) (ds : List Nat) :
    Nat.ofDigits base (d :: ds).reverse = d * base ^ ds.length + Nat.ofDigits base ds.reverse := by
  rw [List.reverse_cons, Nat.ofDigits_append, Nat.ofDigits_singleton, List.length_reverse]
  ring

/-- What is above the bits not yet taken out does not change when a digit is shifted in. -/
lemma shift_div {n d bits : Nat} (hd : d < 2 ^ a) :
    (n * 2 ^ a + d) / 2 ^ (bits + a) = n / 2 ^ bits := by
  rw [Nat.add_comm bits a, Nat.pow_add, ← Nat.div_div_eq_div_mul, Nat.add_comm,
    Nat.add_mul_div_right _ _ (Nat.two_pow_pos a), Nat.div_eq_of_lt hd, Nat.zero_add]

include hab in
/-- What has been taken out already, `n / 2 ^ bits`, and the digits that follow write the whole
number without the bits left over. -/
lemma ofDigits_regroup_from {bits : Nat} (hbits : bits < b) (n : Nat) {ds : List Nat}
    (hds : ∀ d ∈ ds, d < 2 ^ a) :
    n / 2 ^ bits * (2 ^ b) ^ (regroup a b n bits ds).length +
        Nat.ofDigits (2 ^ b) (regroup a b n bits ds).reverse =
      (n * (2 ^ a) ^ ds.length + Nat.ofDigits (2 ^ a) ds.reverse) /
        2 ^ ((bits + a * ds.length) % b) := by
  induction ds generalizing n bits with
  | nil => simp [regroup, Nat.mod_eq_of_lt hbits]
  | cons d ds ih =>
    obtain ⟨hd, hds⟩ := List.forall_mem_cons.mp hds
    have hvalue : n * (2 ^ a) ^ (d :: ds).length + Nat.ofDigits (2 ^ a) (d :: ds).reverse =
        (n * 2 ^ a + d) * (2 ^ a) ^ ds.length + Nat.ofDigits (2 ^ a) ds.reverse := by
      rw [ofDigits_cons_reverse, List.length_cons, Nat.pow_succ]
      ring
    have hbits' : bits + a * (d :: ds).length = bits + a + a * ds.length := by
      rw [List.length_cons]
      ring
    have hshift : (n * 2 ^ a + d) / 2 ^ (bits + a) = n / 2 ^ bits := shift_div hd
    rw [hvalue, hbits', ← hshift, regroup]
    by_cases h : b ≤ bits + a
    · -- the digit taken out is what `n / 2 ^ bits` grows by
      have hcut : bits + a + a * ds.length = bits + a - b + a * ds.length + b := by omega
      have hleft : bits + a - b < b := by omega
      have hrest := ih hleft (n * 2 ^ a + d) hds
      have hgrow : (n * 2 ^ a + d) / 2 ^ (bits + a - b) =
          (n * 2 ^ a + d) / 2 ^ (bits + a) * 2 ^ b +
            (n * 2 ^ a + d) / 2 ^ (bits + a - b) % 2 ^ b := by
        have hpow : 2 ^ (bits + a) = 2 ^ (bits + a - b) * 2 ^ b := by
          rw [← Nat.pow_add, Nat.sub_add_cancel h]
        rw [hpow, ← Nat.div_div_eq_div_mul, Nat.div_add_mod']
      rw [if_pos h, hcut, Nat.add_mod_right, ← hrest, List.length_cons, ofDigits_cons_reverse,
        Nat.pow_succ]
      conv_rhs => rw [hgrow]
      ring
    · rw [if_neg h, ih (by omega) (n * 2 ^ a + d) hds]

include hab hb in
/-- The digits taken out write the number without the bits left over. -/
theorem ofDigits_regroup {ds : List Nat} (hds : ∀ d ∈ ds, d < 2 ^ a) :
    Nat.ofDigits (2 ^ b) (regroup a b 0 0 ds).reverse =
      Nat.ofDigits (2 ^ a) ds.reverse / 2 ^ (a * ds.length % b) := by
  have h := ofDigits_regroup_from hab hb 0 hds
  simpa using h

end

end Regroup
