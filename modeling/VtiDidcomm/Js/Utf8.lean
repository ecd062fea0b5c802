import Mathlib.Tactic.IntervalCases
import Mathlib.Tactic.SplitIfs
import VtiDidcomm.Js.Json

/-!
# UTF-8

`TextEncoder` and `TextDecoder`: a string is encoded through its Unicode scalar values, a lone
surrogate becoming U+FFFD, and bytes are decoded by the state machine of the Encoding Standard,
which replaces what is not UTF-8 by U+FFFD and drops a leading byte order mark.

`textDecode_textEncode`: a well-formed string without a leading mark is what its bytes decode to.
What `JSON.stringify` prints is always well-formed (`isWellFormed_stringify`).
-/

namespace Js
open Json

/-- U+FFFD, the replacement character. -/
def replacement : Nat := 0xFFFD

/-- U+FEFF, the byte order mark. -/
def byteOrderMark : Nat := 0xFEFF

/-- Whether a code unit is a surrogate. -/
def isSurrogate (c : CodeUnit) : Bool := isHighSurrogate c || isLowSurrogate c

/-- A Unicode scalar value: a code point that is no surrogate. -/
def IsScalar (n : Nat) : Prop := n < 0xD800 ∨ 0xE000 ≤ n ∧ n < 0x110000

/-- The code point of a surrogate pair. -/
def pairValue (high low : CodeUnit) : Nat :=
  0x10000 + (high.toNat - 0xD800) * 0x400 + (low.toNat - 0xDC00)

/-- The code point of a code unit outside a pair. -/
def unitValue (c : CodeUnit) : Nat := if isSurrogate c then replacement else c.toNat

/-- The scalar values of a string. -/
def scalars : JsString → List Nat
  | [] => []
  | [c] => [unitValue c]
  | c :: d :: s =>
    if isHighSurrogate c && isLowSurrogate d then pairValue c d :: scalars s
    else unitValue c :: scalars (d :: s)

/-- `s.isWellFormed()` -/
def isWellFormed : JsString → Bool
  | [] => true
  | [c] => !isSurrogate c
  | c :: d :: s =>
    if isHighSurrogate c && isLowSurrogate d then isWellFormed s
    else !isSurrogate c && isWellFormed (d :: s)

/-- The code units of a scalar value. -/
def codeUnits (n : Nat) : JsString :=
  if n < 0x10000 then [n.toUInt16]
  else [(0xD800 + (n - 0x10000) / 0x400).toUInt16, (0xDC00 + (n - 0x10000) % 0x400).toUInt16]

/-- The UTF-8 bytes of a scalar value. -/
def utf8 (n : Nat) : List UInt8 :=
  if n < 0x80 then [n.toUInt8]
  else if n < 0x800 then [(0xC0 + n / 0x40).toUInt8, (0x80 + n % 0x40).toUInt8]
  else if n < 0x10000 then
    [(0xE0 + n / 0x1000).toUInt8, (0x80 + n / 0x40 % 0x40).toUInt8, (0x80 + n % 0x40).toUInt8]
  else
    [(0xF0 + n / 0x40000).toUInt8, (0x80 + n / 0x1000 % 0x40).toUInt8,
      (0x80 + n / 0x40 % 0x40).toUInt8, (0x80 + n % 0x40).toUInt8]

/-- `new TextEncoder().encode(s)` -/
def textEncode (s : JsString) : List UInt8 := (scalars s).flatMap utf8

/-- A character the decoder has seen a part of: its value so far, the bytes it still needs, and the
bounds of the next one. -/
structure Pending where
  value : Nat
  needed : Nat
  lower : Nat := 0x80
  upper : Nat := 0xBF

/-- The decoder on the first byte of a character: what it emits, and the state after it. -/
def firstByte (b : Nat) : List Nat × Option Pending :=
  if b < 0x80 then ([b], none)
  else if 0xC2 ≤ b ∧ b ≤ 0xDF then ([], some { value := b - 0xC0, needed := 1 })
  else if b = 0xE0 then ([], some { value := 0, needed := 2, lower := 0xA0 })
  else if b = 0xED then ([], some { value := 0xD, needed := 2, upper := 0x9F })
  else if 0xE1 ≤ b ∧ b ≤ 0xEF then ([], some { value := b - 0xE0, needed := 2 })
  else if b = 0xF0 then ([], some { value := 0, needed := 3, lower := 0x90 })
  else if b = 0xF4 then ([], some { value := 4, needed := 3, upper := 0x8F })
  else if 0xF1 ≤ b ∧ b ≤ 0xF3 then ([], some { value := b - 0xF0, needed := 3 })
  else ([replacement], none)

/-- The decoder on one byte. A byte that does not continue a character ends it, and starts anew. -/
def nextByte : Option Pending → Nat → List Nat × Option Pending
  | none, b => firstByte b
  | some p, b =>
    if p.lower ≤ b ∧ b ≤ p.upper then
      let value := p.value * 0x40 + b % 0x40
      if p.needed = 1 then ([value], none)
      else ([], some { value := value, needed := p.needed - 1 })
    else (replacement :: (firstByte b).1, (firstByte b).2)

/-- The decoder. -/
def decodeScalars : Option Pending → List UInt8 → List Nat
  | none, [] => []
  | some _, [] => [replacement]
  | state, b :: bytes =>
    (nextByte state b.toNat).1 ++ decodeScalars (nextByte state b.toNat).2 bytes

/-- Drops a leading byte order mark. -/
def dropMark : List Nat → List Nat
  | [] => []
  | n :: ns => if n = byteOrderMark then ns else n :: ns

/-- `new TextDecoder().decode(bytes)` -/
def textDecode (bytes : List UInt8) : JsString :=
  (dropMark (decodeScalars none bytes)).flatMap codeUnits

/-! ## One character -/

/-- A byte is the number below 256 it was made from. -/
lemma toNat_toUInt8 {n : Nat} (h : n < 256) : n.toUInt8.toNat = n := by
  simp [Nat.mod_eq_of_lt h]

/-- A decoder takes its bytes in one at a time. -/
lemma decodeScalars_cons (state : Option Pending) (b : UInt8) (bytes : List UInt8) :
    decodeScalars state (b :: bytes) =
      (nextByte state b.toNat).1 ++ decodeScalars (nextByte state b.toNat).2 bytes := by
  cases state <;> rfl

/-- A byte in the bounds of a pending character continues it. -/
lemma nextByte_some {p : Pending} {b : Nat} (hl : p.lower ≤ b) (hu : b ≤ p.upper) :
    nextByte (some p) b =
      if p.needed = 1 then ([p.value * 0x40 + b % 0x40], none)
      else ([], some { value := p.value * 0x40 + b % 0x40, needed := p.needed - 1 }) := by
  simp [nextByte, hl, hu]

/-- The first of two bytes leaves one to come. -/
lemma firstByte_two {b : Nat} (hl : 0xC2 ≤ b) (hu : b ≤ 0xDF) :
    firstByte b = ([], some { value := b - 0xC0, needed := 1 }) := by
  simp only [firstByte]
  rw [if_neg (by omega), if_pos ⟨hl, hu⟩]

/-- The first of three bytes leaves two to come. -/
lemma firstByte_three {b : Nat} (hl : 0xE0 ≤ b) (hu : b ≤ 0xEF) :
    firstByte b = ([], some
      { value := b - 0xE0
        needed := 2
        lower := if b = 0xE0 then 0xA0 else 0x80
        upper := if b = 0xED then 0x9F else 0xBF }) := by
  simp only [firstByte]
  rw [if_neg (by omega), if_neg (by omega)]
  by_cases h0 : b = 0xE0
  · simp [h0]
  by_cases hd : b = 0xED
  · simp [hd]
  · rw [if_neg h0, if_neg hd, if_pos (by omega), if_neg h0, if_neg hd]

/-- The first of four bytes leaves three to come. -/
lemma firstByte_four {b : Nat} (hl : 0xF0 ≤ b) (hu : b ≤ 0xF4) :
    firstByte b = ([], some
      { value := b - 0xF0
        needed := 3
        lower := if b = 0xF0 then 0x90 else 0x80
        upper := if b = 0xF4 then 0x8F else 0xBF }) := by
  simp only [firstByte]
  rw [if_neg (by omega), if_neg (by omega), if_neg (by omega), if_neg (by omega),
    if_neg (by omega)]
  by_cases h0 : b = 0xF0
  · simp [h0]
  by_cases h4 : b = 0xF4
  · simp [h4]
  · rw [if_neg h0, if_neg h4, if_pos (by omega), if_neg h0, if_neg h4]

/-- The last byte of a sequence completes its scalar. -/
lemma decodeScalars_last {p : Pending} {b : Nat} (hp : p.needed = 1) (hb : b < 256)
    (hl : p.lower ≤ b) (hu : b ≤ p.upper) (bytes : List UInt8) :
    decodeScalars (some p) (b.toUInt8 :: bytes) =
      (p.value * 0x40 + b % 0x40) :: decodeScalars none bytes := by
  rw [decodeScalars_cons, toNat_toUInt8 hb, nextByte_some hl hu, if_pos hp]
  rfl

/-- A byte that is not the last adds its six bits. -/
lemma decodeScalars_middle {p : Pending} {b : Nat} (hp : p.needed ≠ 1) (hb : b < 256)
    (hl : p.lower ≤ b) (hu : b ≤ p.upper) (bytes : List UInt8) :
    decodeScalars (some p) (b.toUInt8 :: bytes) =
      decodeScalars (some { value := p.value * 0x40 + b % 0x40, needed := p.needed - 1 }) bytes := by
  rw [decodeScalars_cons, toNat_toUInt8 hb, nextByte_some hl hu, if_neg hp]
  rfl

/-- The first byte of a character of more than one. -/
lemma decodeScalars_first {p : Pending} {b : Nat} (hb : b < 256) (hp : firstByte b = ([], some p))
    (bytes : List UInt8) :
    decodeScalars none (b.toUInt8 :: bytes) = decodeScalars (some p) bytes := by
  rw [decodeScalars_cons, toNat_toUInt8 hb, nextByte, hp]
  rfl

/-- A character's bytes decode to it, whatever follows. -/
lemma decodeScalars_utf8 {n : Nat} (h : IsScalar n) (bytes : List UInt8) :
    decodeScalars none (utf8 n ++ bytes) = n :: decodeScalars none bytes := by
  have hlt : n < 0x110000 := by unfold IsScalar at h; omega
  unfold utf8
  split
  · -- one byte
    rename_i h1
    rw [List.singleton_append, decodeScalars_cons, toNat_toUInt8 (by omega), nextByte, firstByte,
      if_pos h1]
    rfl
  rename_i h1
  split
  · rename_i h2
    simp only [List.cons_append, List.nil_append]
    rw [decodeScalars_first (by omega) (firstByte_two (by omega) (by omega)),
      decodeScalars_last rfl (by omega) (by simp) (by simp; omega)]
    congr 1
    simp only
    omega
  rename_i h2
  split
  · -- three bytes: the bounds of the second leave out overlong forms and surrogates
    rename_i h3
    simp only [List.cons_append, List.nil_append]
    rw [decodeScalars_first (by omega) (firstByte_three (by omega) (by omega)),
      decodeScalars_middle (by simp) (by omega) (by simp only; split <;> omega)
        (by unfold IsScalar at h; simp only; split <;> omega),
      decodeScalars_last rfl (by omega) (by simp) (by simp; omega)]
    congr 1
    simp only
    omega
  · -- four bytes: the second is bounded by the last plane
    rename_i h3
    simp only [List.cons_append, List.nil_append]
    rw [decodeScalars_first (by omega) (firstByte_four (by omega) (by omega)),
      decodeScalars_middle (by simp) (by omega) (by simp only; split <;> omega)
        (by simp only; split <;> omega),
      decodeScalars_middle (by simp) (by omega) (by simp) (by simp; omega),
      decodeScalars_last rfl (by omega) (by simp) (by simp; omega)]
    congr 1
    simp only
    omega

/-! ## A string -/

/-- A unit that is no surrogate is its own code point. -/
lemma codeUnits_unitValue {c : CodeUnit} (h : isSurrogate c = false) :
    codeUnits (unitValue c) = [c] := by
  have hlt : c.toNat < 0x10000 := c.toNat_lt
  simp [codeUnits, unitValue, h, hlt]

/-- The bounds of the high surrogates. -/
lemma high_bounds {c : CodeUnit} (h : isHighSurrogate c = true) :
    0xD800 ≤ c.toNat ∧ c.toNat ≤ 0xDBFF := by
  simpa [isHighSurrogate, UInt16.le_iff_toNat_le] using h

/-- The bounds of the low surrogates. -/
lemma low_bounds {c : CodeUnit} (h : isLowSurrogate c = true) :
    0xDC00 ≤ c.toNat ∧ c.toNat ≤ 0xDFFF := by
  simpa [isLowSurrogate, UInt16.le_iff_toNat_le] using h

/-- The two halves of a pair are read off from its code point. -/
lemma pair_arith {i j : Nat} (hi : 0xD800 ≤ i ∧ i ≤ 0xDBFF) (hj : 0xDC00 ≤ j ∧ j ≤ 0xDFFF) :
    let n := 0x10000 + (i - 0xD800) * 0x400 + (j - 0xDC00)
    0x10000 ≤ n ∧ n < 0x110000 ∧ 0xD800 + (n - 0x10000) / 0x400 = i ∧
      0xDC00 + (n - 0x10000) % 0x400 = j := by
  intro n
  omega

/-- The halves of a pair are those of its value. -/
lemma pairValue_parts {c d : CodeUnit} (hc : isHighSurrogate c = true)
    (hd : isLowSurrogate d = true) :
    0x10000 ≤ pairValue c d ∧ pairValue c d < 0x110000 ∧
      0xD800 + (pairValue c d - 0x10000) / 0x400 = c.toNat ∧
      0xDC00 + (pairValue c d - 0x10000) % 0x400 = d.toNat :=
  pair_arith (high_bounds hc) (low_bounds hd)

/-- The value of a pair is written as the pair. -/
lemma codeUnits_pairValue {c d : CodeUnit} (hc : isHighSurrogate c = true)
    (hd : isLowSurrogate d = true) : codeUnits (pairValue c d) = [c, d] := by
  obtain ⟨hge, -, hhigh, hlow⟩ := pairValue_parts hc hd
  rw [codeUnits, if_neg (Nat.not_lt.mpr hge), hhigh, hlow]
  simp

/-- What stands for a single unit is a scalar. -/
lemma isScalar_unitValue (c : CodeUnit) : IsScalar (unitValue c) := by
  unfold unitValue IsScalar
  split
  · simp [replacement]
  · rename_i h
    simp only [isSurrogate, isHighSurrogate, isLowSurrogate, Bool.or_eq_true, Bool.and_eq_true,
      decide_eq_true_eq, UInt16.le_iff_toNat_le, not_or, not_and] at h
    have h1 : 0xD800 ≤ c.toNat → ¬ c.toNat ≤ 0xDBFF := h.1
    have h2 : 0xDC00 ≤ c.toNat → ¬ c.toNat ≤ 0xDFFF := h.2
    have hlt : c.toNat < 0x10000 := c.toNat_lt
    omega

/-- The value of a pair is a scalar. -/
lemma isScalar_pairValue {c d : CodeUnit} (hc : isHighSurrogate c = true)
    (hd : isLowSurrogate d = true) : IsScalar (pairValue c d) := by
  obtain ⟨hge, hlt, -⟩ := pairValue_parts hc hd
  exact .inr ⟨Nat.le_trans (by decide) hge, hlt⟩

/-- What is encoded are scalars. -/
lemma isScalar_of_mem_scalars {s : JsString} : ∀ n ∈ scalars s, IsScalar n := by
  induction s using scalars.induct with
  | case1 => simp [scalars]
  | case2 c => simpa [scalars] using isScalar_unitValue c
  | case3 c d s hpair ih =>
    rw [scalars, if_pos hpair]
    rw [Bool.and_eq_true] at hpair
    exact List.forall_mem_cons.mpr ⟨isScalar_pairValue hpair.1 hpair.2, ih⟩
  | case4 c d s hpair ih =>
    rw [scalars, if_neg hpair]
    exact List.forall_mem_cons.mpr ⟨isScalar_unitValue c, ih⟩

/-- Encoded scalars decode to themselves. -/
lemma decodeScalars_flatMap {ns : List Nat} (h : ∀ n ∈ ns, IsScalar n) :
    decodeScalars none (ns.flatMap utf8) = ns := by
  induction ns with
  | nil => rfl
  | cons n ns ih =>
    obtain ⟨hn, hns⟩ := List.forall_mem_cons.mp h
    rw [List.flatMap_cons, decodeScalars_utf8 hn, ih hns]

/-- A well-formed string is its scalars. -/
lemma flatMap_codeUnits_scalars {s : JsString} (h : isWellFormed s = true) :
    (scalars s).flatMap codeUnits = s := by
  induction s using scalars.induct with
  | case1 => rfl
  | case2 c =>
    rw [scalars, List.flatMap_singleton]
    exact codeUnits_unitValue (by simpa [isWellFormed] using h)
  | case3 c d s hpair ih =>
    rw [isWellFormed, if_pos hpair] at h
    rw [scalars, if_pos hpair, List.flatMap_cons, ih h]
    rw [Bool.and_eq_true] at hpair
    rw [codeUnits_pairValue hpair.1 hpair.2]
    rfl
  | case4 c d s hpair ih =>
    rw [isWellFormed, if_neg hpair, Bool.and_eq_true, Bool.not_eq_true'] at h
    rw [scalars, if_neg hpair, List.flatMap_cons, ih h.2, codeUnits_unitValue h.1]
    rfl

/-- A string of code units that are no mark starts with no mark. -/
lemma dropMark_scalars {s : JsString} {c : CodeUnit} (hc : isSurrogate c = false)
    (hne : c ≠ 0xFEFF) : dropMark (scalars (c :: s)) = scalars (c :: s) := by
  have hne' : c.toNat ≠ byteOrderMark := fun h => hne (UInt16.toNat_inj.mp h)
  have hhigh : isHighSurrogate c = false := by
    simp only [isSurrogate, Bool.or_eq_false_iff] at hc
    exact hc.1
  cases s with
  | nil => simp [scalars, dropMark, unitValue, hc, hne']
  | cons d s => simp [scalars, hhigh, dropMark, unitValue, hc, hne']

/-- Decoding inverts encoding on a well-formed string that starts with no byte order mark. -/
lemma textDecode_textEncode {s : JsString} {c : CodeUnit} (h : isWellFormed (c :: s) = true)
    (hc : isSurrogate c = false) (hne : c ≠ 0xFEFF) :
    textDecode (textEncode (c :: s)) = c :: s := by
  rw [textDecode, textEncode, decodeScalars_flatMap isScalar_of_mem_scalars,
    dropMark_scalars hc hne, flatMap_codeUnits_scalars h]

/-- A text has at least as many bytes as code units. -/
lemma length_le_textEncode (s : JsString) : s.length ≤ (textEncode s).length := by
  have hunit (c : CodeUnit) : 1 ≤ (utf8 (unitValue c)).length := by
    unfold utf8
    split_ifs <;> simp
  unfold textEncode
  induction s using scalars.induct with
  | case1 => simp [scalars]
  | case2 c => simpa [scalars] using hunit c
  | case3 c d s hpair ih =>
    rw [scalars, if_pos hpair, List.flatMap_cons, List.length_append]
    rw [Bool.and_eq_true] at hpair
    have hge := (pairValue_parts hpair.1 hpair.2).1
    have hfour : (utf8 (pairValue c d)).length = 4 := by
      unfold utf8
      rw [if_neg (by omega), if_neg (by omega), if_neg (by omega)]
      rfl
    simp only [List.length_cons]
    omega
  | case4 c d s hpair ih =>
    rw [scalars, if_neg hpair, List.flatMap_cons, List.length_append, List.length_cons]
    have := hunit c
    omega

/-- A code unit takes three bytes at most. -/
lemma length_textEncode_le (s : JsString) : (textEncode s).length ≤ 3 * s.length := by
  have hutf8 (n : Nat) : (utf8 n).length ≤ 4 := by
    unfold utf8
    split_ifs <;> simp
  have hunit (c : CodeUnit) : (utf8 (unitValue c)).length ≤ 3 := by
    have hlt : unitValue c < 0x10000 := by
      have := c.toNat_lt
      unfold unitValue replacement
      split_ifs <;> omega
    unfold utf8
    split_ifs <;> simp
  unfold textEncode
  induction s using scalars.induct with
  | case1 => simp [scalars]
  | case2 c => simpa [scalars] using hunit c
  | case3 c d s hpair ih =>
    rw [scalars, if_pos hpair, List.flatMap_cons, List.length_append]
    have := hutf8 (pairValue c d)
    simp only [List.length_cons]
    omega
  | case4 c d s hpair ih =>
    rw [scalars, if_neg hpair, List.flatMap_cons, List.length_append, List.length_cons]
    have := hunit c
    omega

/-! ## Well-formed text -/

/-- A text without surrogates is well formed. -/
lemma isWellFormed_of_forall {s : JsString} (h : ∀ c ∈ s, isSurrogate c = false) :
    isWellFormed s = true := by
  induction s using isWellFormed.induct with
  | case1 => rfl
  | case2 c => simpa [isWellFormed] using h c (by simp)
  | case3 c d s hpair ih =>
    have hc : isSurrogate c = false := h c (by simp)
    simp only [isSurrogate, Bool.or_eq_false_iff] at hc
    simp [hc.1] at hpair
  | case4 c d s hpair ih =>
    rw [isWellFormed, if_neg hpair, h c (by simp)]
    simpa using ih fun e he => h e (List.mem_cons_of_mem _ he)

/-- A unit that is no surrogate keeps what follows well formed. -/
lemma isWellFormed_cons {c : CodeUnit} {s : JsString} (hc : isSurrogate c = false)
    (h : isWellFormed s = true) : isWellFormed (c :: s) = true := by
  have hhigh : isHighSurrogate c = false := by
    simp only [isSurrogate, Bool.or_eq_false_iff] at hc
    exact hc.1
  cases s with
  | nil => simp [isWellFormed, hc]
  | cons d s => simp [isWellFormed, hhigh, hc, h]

/-- Well-formed texts are joined to one. -/
lemma isWellFormed_append {s t : JsString} (hs : isWellFormed s = true)
    (ht : isWellFormed t = true) : isWellFormed (s ++ t) = true := by
  induction s using isWellFormed.induct with
  | case1 => exact ht
  | case2 c => exact isWellFormed_cons (by simpa [isWellFormed] using hs) ht
  | case3 c d s hpair ih =>
    rw [isWellFormed, if_pos hpair] at hs
    rw [List.cons_append, List.cons_append, isWellFormed, if_pos hpair]
    exact ih hs
  | case4 c d s hpair ih =>
    rw [isWellFormed, if_neg hpair, Bool.and_eq_true, Bool.not_eq_true'] at hs
    exact isWellFormed_cons hs.1 (ih hs.2)

/-- A hexadecimal digit is no surrogate. -/
lemma isSurrogate_hexDigit {n : UInt16} (h : n.toNat < 16) : isSurrogate (hexDigit n) = false := by
  have hn : n = UInt16.ofNat n.toNat := by simp
  rw [hn]
  generalize n.toNat = k at h
  interval_cases k <;> decide

/-- An escape is well formed. -/
lemma isWellFormed_unicodeEscape (c : CodeUnit) : isWellFormed (unicodeEscape c) = true := by
  have hand (d : UInt16) : (d &&& 0xF).toNat < 16 := by
    rw [UInt16.toNat_and]
    exact Nat.lt_succ_of_le Nat.and_le_right
  have hshift : (c >>> 12).toNat < 16 := by
    have hlt : c.toNat < 65536 := c.toNat_lt
    rw [UInt16.toNat_shiftRight, Nat.shiftRight_eq_div_pow]
    exact Nat.div_lt_of_lt_mul hlt
  refine isWellFormed_append (by decide) (isWellFormed_of_forall ?_)
  intro d hd
  simp only [List.mem_cons, List.not_mem_nil, or_false] at hd
  obtain rfl | rfl | rfl | rfl := hd
  · exact isSurrogate_hexDigit hshift
  · exact isSurrogate_hexDigit (hand _)
  · exact isSurrogate_hexDigit (hand _)
  · exact isSurrogate_hexDigit (hand _)

/-- A quoted code unit is well formed. -/
lemma isWellFormed_quoteUnit (c : CodeUnit) : isWellFormed (quoteUnit c) = true := by
  unfold quoteUnit
  split_ifs with h1 h2 h3 h4 h5 h6 h7 h8
  all_goals first
    | decide
    | exact isWellFormed_unicodeEscape c
    | skip
  apply isWellFormed_of_forall
  simp only [Bool.or_eq_true, not_or, Bool.not_eq_true] at h8
  simp [isSurrogate, h8]

/-- The body of a quoted string is well formed. -/
lemma isWellFormed_quoteBody (s : JsString) : isWellFormed (quoteBody s) = true := by
  induction s using quoteBody.induct with
  | case1 => rfl
  | case2 c => exact isWellFormed_quoteUnit c
  | case3 c d s hpair ih =>
    rw [quoteBody, if_pos hpair, isWellFormed, if_pos hpair]
    exact ih
  | case4 c d s hpair ih =>
    rw [quoteBody, if_neg hpair]
    exact isWellFormed_append (isWellFormed_quoteUnit c) ih

/-- A quoted string is well formed. -/
lemma isWellFormed_quote (s : JsString) : isWellFormed (quote s) = true :=
  isWellFormed_append (isWellFormed_cons (by decide) (isWellFormed_quoteBody s)) (by decide)

/-- The text of a number is bytes, and its code units no surrogates. -/
lemma isWellFormed_map_toUInt16 (text : List UInt8) :
    isWellFormed (text.map (·.toUInt16)) = true := by
  apply isWellFormed_of_forall
  intro c hc
  obtain ⟨b, -, rfl⟩ := List.mem_map.mp hc
  have hlt : b.toUInt16.toNat < 256 := by
    rw [UInt8.toNat_toUInt16]
    exact b.toNat_lt
  have hsmall : b.toUInt16.toNat < 0xD800 := Nat.lt_trans hlt (by decide)
  rw [isSurrogate, Bool.or_eq_false_iff]
  constructor
  · by_contra h
    exact absurd (high_bounds (Bool.not_eq_false _ ▸ h)).1 (Nat.not_le.mpr hsmall)
  · by_contra h
    have := (low_bounds (Bool.not_eq_false _ ▸ h)).1
    exact absurd (Nat.le_trans (by decide) this) (Nat.not_le.mpr hsmall)

mutual

/-- `JSON.stringify` prints well-formed text: it escapes the surrogates that belong to no pair. -/
theorem isWellFormed_stringify : ∀ j : Json, isWellFormed (stringify j) = true
| .null => by decide
| .bool b => by cases b <;> decide
| .num text => isWellFormed_map_toUInt16 text
| .str s => isWellFormed_quote s
| .arr items => by
  rw [stringify]
  exact isWellFormed_append
    (isWellFormed_cons (by decide) (isWellFormed_stringifyItems items)) (by decide)
| .obj members => by
  rw [stringify]
  exact isWellFormed_append
    (isWellFormed_cons (by decide) (isWellFormed_stringifyMembers members)) (by decide)

/-- The items of an array. -/
theorem isWellFormed_stringifyItems : ∀ items : List Json,
  isWellFormed (stringifyItems items) = true
| [] => rfl
| [j] => isWellFormed_stringify j
| j :: k :: items => by
  rw [stringifyItems]
  exact isWellFormed_append (isWellFormed_stringify j)
    (isWellFormed_cons (by decide) (isWellFormed_stringifyItems (k :: items)))

/-- The members of an object. -/
theorem isWellFormed_stringifyMembers : ∀ members : List (JsString × Json),
  isWellFormed (stringifyMembers members) = true
| [] => rfl
| [(k, j)] => by
  rw [stringifyMembers]
  exact isWellFormed_append (isWellFormed_quote k)
    (isWellFormed_cons (by decide) (isWellFormed_stringify j))
| (k, j) :: m :: members => by
  rw [stringifyMembers]
  refine isWellFormed_append ?_
    (isWellFormed_cons (by decide) (isWellFormed_stringifyMembers (m :: members)))
  exact isWellFormed_append (isWellFormed_quote k)
    (isWellFormed_cons (by decide) (isWellFormed_stringify j))

end

/-- The bytes of a printed object are decoded to what was printed. -/
lemma textDecode_stringify (members : List (JsString × Json)) :
    textDecode (textEncode (stringify (.obj members))) = stringify (.obj members) := by
  have h := isWellFormed_stringify (.obj members)
  rw [stringify, List.cons_append] at h ⊢
  exact textDecode_textEncode h (by decide) (by decide)

end Js
