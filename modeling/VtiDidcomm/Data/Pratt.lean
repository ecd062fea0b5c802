import Mathlib.NumberTheory.LucasPrimality
import Mathlib.Tactic.NormNum.Prime

/-!
# Pratt certificates

A number `p` is prime when some `a` has order `p - 1` modulo `p`: the power `p - 1` is one, and no
power `(p - 1) / q` for a prime factor `q` of `p - 1` is. The factors are certified the same way.
Powers are computed by squaring, so that the certificates are checked by evaluation.
-/

namespace Pratt

/-- `base ^ exp % m`, for an exponent of at most `fuel` bits. -/
def powMod (m : Nat) : Nat → Nat → Nat → Nat
  | 0, _, _ => 1 % m
  | fuel + 1, base, exp =>
    let half := powMod m fuel (base * base % m) (exp / 2)
    if exp % 2 = 1 then base * half % m else half

/-- A power modulo `m` is below `m`. -/
lemma powMod_lt {m : Nat} (hm : 0 < m) (fuel base exp : Nat) : powMod m fuel base exp < m := by
  induction fuel generalizing base exp with
  | zero => exact Nat.mod_lt _ hm
  | succ fuel ih =>
    rw [powMod]
    split
    · exact Nat.mod_lt _ hm
    · exact ih _ _

/-- The power that is computed is the power. -/
lemma cast_powMod {m fuel exp : Nat} (base : Nat) (h : exp < 2 ^ fuel) :
    (powMod m fuel base exp : ZMod m) = (base : ZMod m) ^ exp := by
  induction fuel generalizing base exp with
  | zero =>
    have h0 : exp = 0 := by simpa using h
    simp [powMod, h0]
  | succ fuel ih =>
    have hhalf : exp / 2 < 2 ^ fuel := by
      rw [pow_succ] at h
      omega
    have hsq : (powMod m fuel (base * base % m) (exp / 2) : ZMod m) =
        (base : ZMod m) ^ (2 * (exp / 2)) := by
      rw [ih _ hhalf, ZMod.natCast_mod, Nat.cast_mul, ← pow_two, ← pow_mul]
    rw [powMod]
    by_cases hodd : exp % 2 = 1
    · rw [if_pos hodd, ZMod.natCast_mod, Nat.cast_mul, hsq, ← pow_succ']
      congr 1
      omega
    · rw [if_neg hodd, hsq]
      congr 1
      omega

/-- A number with a certificate is prime: `factors` are the prime factors of `p - 1`. -/
theorem prime_of_certificate {p : Nat} (fuel a : Nat) (factors : List Nat) (hp : 1 < p)
    (hfuel : p ≤ 2 ^ fuel) (hfactors : ∀ q ∈ factors, q.Prime) (hprod : factors.prod = p - 1)
    (hone : powMod p fuel a (p - 1) = 1) (hne : ∀ q ∈ factors, powMod p fuel a ((p - 1) / q) ≠ 1) :
    p.Prime := by
  have hlt : p - 1 < 2 ^ fuel := by omega
  apply lucas_primality p (a : ZMod p)
  · rw [← cast_powMod a hlt, hone, Nat.cast_one]
  · intro q hq hdvd h
    rw [← hprod] at hdvd
    obtain ⟨r, hr, hqr⟩ := (Nat.Prime.prime hq).dvd_prod_iff.mp hdvd
    have e : q = r := (Nat.prime_dvd_prime_iff_eq hq (hfactors r hr)).mp hqr
    subst e
    apply hne q hr
    have hcast : (powMod p fuel a ((p - 1) / q) : ZMod p) = (1 : Nat) := by
      rw [cast_powMod a (lt_of_le_of_lt (Nat.div_le_self _ _) hlt), h, Nat.cast_one]
    rwa [ZMod.natCast_eq_natCast_iff', Nat.mod_eq_of_lt (powMod_lt (by omega) _ _ _),
      Nat.mod_eq_of_lt hp] at hcast

/-! ## Chains of certificates -/

/-- `root` has order `prime - 1`; the powers have exponents of at most `fuel` bits. -/
structure Certificate where
  prime : Nat
  fuel : Nat
  root : Nat
  factors : List Nat

/-- The entry holds, with prime factors among the known primes. -/
structure Certificate.Holds (c : Certificate) (known : List Nat) : Prop where
  one_lt : 1 < c.prime
  le_fuel : c.prime ≤ 2 ^ c.fuel
  factors_known : ∀ q ∈ c.factors, q ∈ known
  prod_factors : c.factors.prod = c.prime - 1
  power_one : powMod c.prime c.fuel c.root (c.prime - 1) = 1
  power_ne : ∀ q ∈ c.factors, powMod c.prime c.fuel c.root ((c.prime - 1) / q) ≠ 1

instance (c : Certificate) (known : List Nat) : Decidable (c.Holds known) :=
  decidable_of_iff
    (1 < c.prime ∧ c.prime ≤ 2 ^ c.fuel ∧ (∀ q ∈ c.factors, q ∈ known) ∧
      c.factors.prod = c.prime - 1 ∧ powMod c.prime c.fuel c.root (c.prime - 1) = 1 ∧
      ∀ q ∈ c.factors, powMod c.prime c.fuel c.root ((c.prime - 1) / q) ≠ 1)
    ⟨fun ⟨h1, h2, h3, h4, h5, h6⟩ => ⟨h1, h2, h3, h4, h5, h6⟩,
      fun ⟨h1, h2, h3, h4, h5, h6⟩ => ⟨h1, h2, h3, h4, h5, h6⟩⟩

/-- The entries of a chain, from the known primes on: each may use the ones before it. -/
def certified (known : List Nat) : List Certificate → Bool
  | [] => true
  | c :: chain => decide (c.Holds known) && certified (c.prime :: known) chain

/-- A certificate over known primes gives a prime. -/
lemma Certificate.Holds.isPrime {c : Certificate} {known : List Nat} (h : c.Holds known)
    (hknown : ∀ q ∈ known, q.Prime) : c.prime.Prime :=
  prime_of_certificate c.fuel c.root c.factors h.one_lt h.le_fuel
    (fun q hq => hknown q (h.factors_known q hq)) h.prod_factors h.power_one h.power_ne

/-- Every number a certified chain names is prime. -/
theorem prime_of_certified {known : List Nat} {chain : List Certificate}
    (hknown : ∀ q ∈ known, q.Prime) (h : certified known chain = true) :
    ∀ c ∈ chain, c.prime.Prime := by
  induction chain generalizing known with
  | nil => exact List.forall_mem_nil _
  | cons c chain ih =>
    simp only [certified, Bool.and_eq_true, decide_eq_true_eq] at h
    have hc : c.prime.Prime := h.1.isPrime hknown
    exact List.forall_mem_cons.mpr ⟨hc, ih (List.forall_mem_cons.mpr ⟨hc, hknown⟩) h.2⟩

/-! ## The prime of Curve25519 -/

def smallPrimes : List Nat :=
  [2, 3, 5, 7, 13, 19, 31, 47, 107, 127, 223, 353, 2437, 4153, 57467, 65147, 75707, 132049, 430751,
    569003, 1923133, 8574133]

/-- The chain below `2 ^ 255 - 19`. -/
def curve25519Chain : List Certificate :=
  [⟨2773320623, 32, 5, [2, 2437, 569003]⟩,
    ⟨72106336199, 37, 7, [2, 13, 2773320623]⟩,
    ⟨1919519569386763, 51, 2, [2, 3, 7, 19, 47, 47, 127, 8574133]⟩,
    ⟨31757755568855353, 55, 10, [2, 2, 2, 3, 31, 107, 223, 4153, 430751]⟩,
    ⟨75445702479781427272750846543864801, 116, 7,
      [2, 2, 2, 2, 2, 3, 3, 5, 5, 75707, 72106336199, 1919519569386763]⟩,
    ⟨74058212732561358302231226437062788676166966415465897661863160754340907, 236, 2,
      [2, 3, 353, 57467, 132049, 1923133, 31757755568855353,
        75445702479781427272750846543864801]⟩,
    ⟨2 ^ 255 - 19, 255, 2,
      [2, 2, 3, 65147, 74058212732561358302231226437062788676166966415465897661863160754340907]⟩]

/-- The chains start from primes. -/
lemma prime_of_mem_smallPrimes : ∀ q ∈ smallPrimes, q.Prime := by
  simp only [smallPrimes, List.forall_mem_cons]
  norm_num

/-- The chain for the field of Curve25519 is certified. -/
lemma certified_curve25519Chain : certified smallPrimes curve25519Chain = true := by
  decide +kernel

/-- The order of the field of Curve25519 is prime. -/
theorem prime_curve25519 : Nat.Prime (2 ^ 255 - 19) :=
  prime_of_certified prime_of_mem_smallPrimes certified_curve25519Chain
    ⟨2 ^ 255 - 19, 255, 2, _⟩ (List.getLast_mem (by simp [curve25519Chain]))

end Pratt
