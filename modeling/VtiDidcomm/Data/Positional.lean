import Mathlib.Data.List.TakeWhile
import Mathlib.Data.Nat.Digits.Lemmas
import Mathlib.Tactic.Ring

/-!
# Positional notation with leading zeros

A text of digits, the highest first, is the zeros it starts with and the number the rest writes.
`convert` writes that number in another base behind the same zeros; converting back gives the text
again (`convert_convert`), so that texts over two bases are in bijection.

`digits_mul_add` is what a conversion in place rests on: the digits of `n * mult + carry`, from
those of `n`, with the carry passed up.
-/

namespace Positional

/-- The digits `ds` in base `base'`, with as many leading zeros. -/
def convert (base base' : Nat) (ds : List Nat) : List Nat :=
  ds.takeWhile (· = 0) ++ (Nat.digits base' (Nat.ofDigits base ds.reverse)).reverse

/-- The lowest digit of `n * mult + carry`, and the carry into the digits of `n / base`. -/
lemma digits_mul_add {base mult n : Nat} (carry : Nat) (hb : 1 < base) (hm : 0 < mult) (hn : n ≠ 0) :
    Nat.digits base (n * mult + carry) =
      (carry + n % base * mult) % base ::
        Nat.digits base (n / base * mult + (carry + n % base * mult) / base) := by
  have hpos : 0 < n * mult + carry := by
    have := Nat.mul_pos (Nat.pos_of_ne_zero hn) hm
    omega
  have e : n * mult + carry = (carry + n % base * mult) + base * (n / base * mult) := by
    conv_lhs => rw [← Nat.div_add_mod n base]
    ring
  rw [Nat.digits_def' hb hpos, e, Nat.add_mul_mod_self_left,
    Nat.add_mul_div_left _ _ (by omega), Nat.add_comm (_ / base)]

/-! ## Zeros and a value -/

/-- The leading zeros are those in front of the first other digit. -/
lemma takeWhile_zeros {zs ds : List Nat} (hz : ∀ d ∈ zs, d = 0) (hd : ds.head? ≠ some 0) :
    (zs ++ ds).takeWhile (· = 0) = zs := by
  rw [List.takeWhile_append_of_pos (by simpa using hz)]
  cases ds with
  | nil => simp
  | cons d ds => simp_all

/-- A text is its zeros and what stands behind them. -/
lemma exists_zeros (ds : List Nat) :
    ∃ zs rest, ds = zs ++ rest ∧ (∀ d ∈ zs, d = 0) ∧ rest.head? ≠ some 0 := by
  induction ds with
  | nil => exact ⟨[], [], rfl, by simp, by simp⟩
  | cons d ds ih =>
    by_cases hd : d = 0
    · obtain ⟨zs, rest, rfl, hz, hr⟩ := ih
      exact ⟨d :: zs, rest, rfl, by simpa [hd] using hz, hr⟩
    · exact ⟨[], d :: ds, rfl, by simp, by simpa using hd⟩

/-- Leading zeros do not change the value. -/
lemma ofDigits_zeros {base : Nat} {zs rest : List Nat} (hz : ∀ d ∈ zs, d = 0) :
    Nat.ofDigits base (zs ++ rest).reverse = Nat.ofDigits base rest.reverse := by
  have hzs : zs.reverse = List.replicate zs.length 0 := by
    apply List.eq_replicate_iff.mpr
    simpa using hz
  rw [List.reverse_append, hzs, Nat.ofDigits_append_replicate_zero]

/-- Leading zeros are kept one by one, the rest is converted. -/
lemma convert_append {base base' : Nat} {zs rest : List Nat} (hz : ∀ d ∈ zs, d = 0)
    (hr : rest.head? ≠ some 0) :
    convert base base' (zs ++ rest) =
      zs ++ (Nat.digits base' (Nat.ofDigits base rest.reverse)).reverse := by
  rw [convert, takeWhile_zeros hz hr, ofDigits_zeros hz]

/-- The digits of a number start, from the highest, with no zero. -/
lemma head_digits_reverse (base n : Nat) : (Nat.digits base n).reverse.head? ≠ some 0 := by
  rw [List.head?_reverse]
  intro h
  by_cases hn : n = 0
  · simp [hn] at h
  · rw [List.getLast?_eq_some_getLast (Nat.digits_ne_nil_iff_ne_zero.mpr hn)] at h
    exact Nat.getLast_digit_ne_zero base hn (Option.some.inj h)

/-- The digits of what `rest` writes are `rest` again. -/
lemma digits_ofDigits_reverse {base : Nat} {rest : List Nat} (hb : 1 < base)
    (hlt : ∀ d ∈ rest, d < base) (hr : rest.head? ≠ some 0) :
    (Nat.digits base (Nat.ofDigits base rest.reverse)).reverse = rest := by
  rw [Nat.digits_ofDigits base hb, List.reverse_reverse]
  · simpa using hlt
  · intro hne h0
    apply hr
    rw [List.getLast_reverse] at h0
    rw [List.head?_eq_some_head (by simpa using hne), h0]

/-- Converting back gives the text again. -/
theorem convert_convert {base base' : Nat} (hb : 1 < base) {ds : List Nat}
    (hlt : ∀ d ∈ ds, d < base) : convert base' base (convert base base' ds) = ds := by
  obtain ⟨zs, rest, rfl, hz, hr⟩ := exists_zeros ds
  rw [convert_append hz hr, convert_append hz (head_digits_reverse _ _), List.reverse_reverse,
    Nat.ofDigits_digits, digits_ofDigits_reverse hb _ hr]
  intro d hd
  exact hlt d (List.mem_append_right _ hd)

/-- The digits of a conversion are digits of the new base. -/
lemma lt_of_mem_convert {base base' d : Nat} (hb' : 1 < base') {ds : List Nat}
    (h : d ∈ convert base base' ds) : d < base' := by
  cases List.mem_append.mp h with
  | inl h =>
    have h0 : d = 0 := by simpa using List.mem_takeWhile_imp h
    omega
  | inr h => exact Nat.digits_lt_base hb' (List.mem_reverse.mp h)

/-- A text is no longer than its digits are in the other base. -/
lemma length_convert_le {base base' k : Nat} (hb : 1 < base) (hb' : 1 < base') (hk : 0 < k)
    (hle : base ≤ base' ^ k) {ds : List Nat} (hlt : ∀ d ∈ ds, d < base) :
    (convert base base' ds).length ≤ k * ds.length := by
  obtain ⟨zs, rest, rfl, hz, hr⟩ := exists_zeros ds
  have hvalue : Nat.ofDigits base rest.reverse < base ^ rest.reverse.length := by
    apply Nat.ofDigits_lt_base_pow_length hb
    intro d hd
    exact hlt d (List.mem_append_right _ (List.mem_reverse.mp hd))
  have hdigits : (Nat.digits base' (Nat.ofDigits base rest.reverse)).length ≤ k * rest.length := by
    rw [Nat.digits_length_le_iff hb', pow_mul]
    rw [List.length_reverse] at hvalue
    exact hvalue.trans_le (Nat.pow_le_pow_left hle _)
  rw [convert_append hz hr, List.length_append, List.length_reverse, List.length_append, Nat.mul_add]
  have := Nat.le_mul_of_pos_left zs.length hk
  omega

/-! ## Bytes -/

/-- Bytes are the numbers below 256 they were made from. -/
lemma map_toUInt8_toNat {ds : List Nat} (h : ∀ d ∈ ds, d < 256) :
    (ds.map Nat.toUInt8).map UInt8.toNat = ds := by
  rw [List.map_map]
  conv_rhs => rw [← List.map_id ds]
  apply List.map_congr_left
  intro d hd
  simp [Nat.mod_eq_of_lt (h d hd)]

end Positional
