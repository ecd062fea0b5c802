import VtiDidcomm.Codec.Base58

/-!
# The carries of base58btc

The loops of `base58btcEncode` and `base58btcDecode` on numbers and 32-bit integers as JavaScript
has them. `CarryOps` are the three operations of one round; where they are exact below 2^31, a round
is the `mulAdd` of the digits, and no carry reaches `base * mult` (`CarryOps.Exact.carries`), so
that neither `<<`, `>>`, `&` nor `| 0` ever loses a bit, whatever the length of the input.
-/

namespace VtiDidcomm.Multibase
open Js Positional

/-- `n | 0`: the 32-bit integer that is `n` modulo 2^32. -/
def toInt32 (n : Int) : Int := n.bmod (2 ^ 32)

/-- What a round does to `carry`: what a digit adds to it, the digit it leaves, and what it goes on
as. -/
structure CarryOps where
  shifted : Int → Int
  digit : Int → Int
  carried : Int → Int

/-- `carry += digits[j] << 8`, `carry % 58` and `(carry / 58) | 0` -/
def encodeOps : CarryOps where
  shifted d := toInt32 (d * 2 ^ 8)
  digit carry := carry.tmod 58
  carried carry := toInt32 (carry.tdiv 58)

/-- `carry += bytes[j] * 58`, `carry & 0xff` and `carry >>= 8` -/
def decodeOps : CarryOps where
  shifted d := d * 58
  digit carry := toInt32 carry % 2 ^ 8
  carried carry := toInt32 carry / 2 ^ 8

/-- `while (carry > 0)`: the values of `carry` that a digit is pushed for. -/
def CarryOps.spill (ops : CarryOps) : Nat → Int → List Int
  | 0, _ => []
  | fuel + 1, carry => if 0 < carry then carry :: ops.spill fuel (ops.carried carry) else []

/-- The values of `carry` in one round over the digits kept: there is one for every digit written. -/
def CarryOps.carries (ops : CarryOps) (carry : Int) : List Int → List Int
  | [] => ops.spill carry.toNat carry
  | d :: ds => (carry + ops.shifted d) :: ops.carries (ops.carried (carry + ops.shifted d)) ds

/-- The digits after one round. -/
def CarryOps.round (ops : CarryOps) (kept : List Int) (carry : Int) : List Int :=
  (ops.carries carry kept).map ops.digit

/-- The values of `carry` in all rounds. -/
def CarryOps.allCarries (ops : CarryOps) (kept : List Int) : List Int → List Int
  | [] => []
  | d :: ds => ops.carries d kept ++ ops.allCarries (ops.round kept d) ds

/-- `base58btcEncode` with these operations. -/
def int32Encode (bytes : List UInt8) : JsString :=
  let zeros := bytes.takeWhile (· = 0)
  let digits := (bytes.drop zeros.length).foldl (fun ds b => encodeOps.round ds b.toNat) []
  zeros.map (fun _ => b58Char 0) ++ digits.reverse.map fun d => b58Char d.toNat

/-- The values of `carry` in `base58btcEncode`. -/
def encodeCarries (bytes : List UInt8) : List Int :=
  let zeros := bytes.takeWhile (· = 0)
  encodeOps.allCarries [] ((bytes.drop zeros.length).map fun b => (b.toNat : Int))

/-- The decoding loop with these operations. -/
def int32DecodeLoop (i : Nat) (bytes : List Int) : JsString → Except JsError (List Int)
  | [] => .ok bytes
  | c :: s =>
    match b58Lookup c with
    | none =>
      .error (error (js "base58btcDecode: invalid char " ++ Json.quote [c] ++ js " at " ++ natText i))
    | some v => int32DecodeLoop (i + 1) (decodeOps.round bytes v) s

/-- `base58btcDecode` with these operations. -/
def int32Decode (s : JsString) : Except JsError (List UInt8) := do
  let zeros := s.takeWhile (· = b58Char 0)
  let bytes ← int32DecodeLoop zeros.length [] (s.drop zeros.length)
  pure (zeros.map (fun _ => 0) ++ bytes.reverse.map fun b => b.toNat.toUInt8)

/-- The digits that the decoding loop reads before it ends or throws. -/
def digitsRead : JsString → List Nat
  | [] => []
  | c :: s =>
    match b58Lookup c with
    | none => []
    | some v => v :: digitsRead s

/-- The values of `carry` in `base58btcDecode`. -/
def decodeCarries (s : JsString) : List Int :=
  let zeros := s.takeWhile (· = b58Char 0)
  decodeOps.allCarries [] ((digitsRead (s.drop zeros.length)).map Nat.cast)

/-! ## Below 2^31 -/

/-- A non-negative number below 2³¹ is its own int32. -/
lemma toInt32_of_lt {n : Int} (h : 0 ≤ n) (h' : n < 2 ^ 31) : toInt32 n = n := by
  apply Int.bmod_eq_of_le
  · omega
  · omega

/-- The operations are those of digits in `base`, times `mult`, on carries below 2^31. -/
structure CarryOps.Exact (ops : CarryOps) (base mult : Nat) : Prop where
  one_lt : 1 < base
  bounded : base * mult ≤ 2 ^ 31
  shifted {d : Nat} : d < base → ops.shifted d = d * mult
  digit {carry : Nat} : carry < 2 ^ 31 → ops.digit carry = (carry % base : Nat)
  carried {carry : Nat} : carry < 2 ^ 31 → ops.carried carry = (carry / base : Nat)

/-- A natural number below 2³¹ is its own int32. -/
lemma toInt32_natCast {n : Nat} (h : n < 2 ^ 31) : toInt32 n = n :=
  toInt32_of_lt (Int.natCast_nonneg n) (by exact_mod_cast h)

/-- The operations of the encoder are exact on its digits. -/
lemma encodeOps_exact : encodeOps.Exact 58 256 := by
  refine ⟨by decide, by decide, ?shifted, ?digit, ?carried⟩
  case shifted =>
    intro d hd
    have hlt : d * 256 < 2 ^ 31 := by omega
    have hcast : (d : Int) * 2 ^ 8 = (d * 256 : Nat) := by norm_num
    simp only [encodeOps]
    rw [hcast, toInt32_natCast hlt, Int.natCast_mul]
  case digit =>
    intro carry _
    simp only [encodeOps]
    exact (Int.ofNat_tmod carry 58).symm
  case carried =>
    intro carry h
    have hlt : carry / 58 < 2 ^ 31 := by omega
    have hcast : (carry : Int).tdiv 58 = (carry / 58 : Nat) := (Int.ofNat_tdiv carry 58).symm
    simp only [encodeOps]
    rw [hcast, toInt32_natCast hlt]

/-- The operations of the decoder are exact on its digits. -/
lemma decodeOps_exact : decodeOps.Exact 256 58 := by
  refine ⟨by decide, by decide, ?shifted, ?digit, ?carried⟩
  case shifted =>
    intro d _
    rfl
  case digit =>
    intro carry h
    simp only [decodeOps]
    rw [toInt32_natCast h]
    norm_num
  case carried =>
    intro carry h
    simp only [decodeOps]
    rw [toInt32_natCast h]
    norm_num

/-! ## One round -/

section

variable {ops : CarryOps} {base mult : Nat} (h : ops.Exact base mult)

include h in
/-- What is left of `carry` goes out as its digits. -/
lemma CarryOps.Exact.spill {fuel carry : Nat} (hfuel : carry ≤ fuel) (hcarry : carry < 2 ^ 31) :
    (ops.spill fuel carry).map ops.digit = (Nat.digits base carry).map Nat.cast ∧
      ∀ c ∈ ops.spill fuel carry, 0 ≤ c ∧ c ≤ carry := by
  induction fuel generalizing carry with
  | zero =>
    have hzero : carry = 0 := by omega
    subst hzero
    simp [CarryOps.spill]
  | succ fuel ih =>
    rw [CarryOps.spill]
    by_cases hzero : carry = 0
    · subst hzero
      simp
    · have hpos : 0 < carry := by omega
      have hless : carry / base < carry := Nat.div_lt_self hpos h.one_lt
      obtain ⟨hdigits, hbound⟩ := @ih (carry / base) (by omega) (by omega)
      rw [if_pos (by omega), h.carried hcarry, Nat.digits_def' h.one_lt hpos]
      constructor
      · rw [List.map_cons, List.map_cons, h.digit hcarry, hdigits]
      · rw [List.forall_mem_cons]
        refine ⟨by omega, ?_⟩
        intro c hc
        have hle := hbound c hc
        omega

include h in
/-- A round writes the digits times `mult`, plus `carry`; no carry reaches `base * mult`. -/
lemma CarryOps.Exact.carries {carry : Nat} (hcarry : carry < mult) {ds : List Nat}
    (hds : ∀ d ∈ ds, d < base) :
    (ops.carries carry (ds.map Nat.cast)).map ops.digit =
        (mulAdd base mult carry ds).map Nat.cast ∧
      ∀ c ∈ ops.carries carry (ds.map Nat.cast), 0 ≤ c ∧ c < (base * mult : Nat) := by
  have hbounded := h.bounded
  induction ds generalizing carry with
  | nil =>
    have hle : mult ≤ base * mult := Nat.le_mul_of_pos_left mult (by have := h.one_lt; omega)
    obtain ⟨hdigits, hbound⟩ := h.spill (Nat.le_refl carry) (by omega)
    rw [List.map_nil, CarryOps.carries, Int.toNat_natCast, mulAdd]
    refine ⟨hdigits, ?_⟩
    intro c hc
    have hle := hbound c hc
    omega
  | cons d ds ih =>
    obtain ⟨hd, hds⟩ := List.forall_mem_cons.mp hds
    -- this is the bound: a digit is below the base and the carry below the multiplier
    have hsum : carry + d * mult < base * mult := by
      calc carry + d * mult < mult + d * mult := by omega
        _ = (d + 1) * mult := by rw [Nat.succ_mul, Nat.add_comm]
        _ ≤ base * mult := Nat.mul_le_mul_right mult hd
    have hcast : (carry : Int) + ops.shifted d = (carry + d * mult : Nat) := by
      rw [h.shifted hd]
      push_cast
      rfl
    obtain ⟨hdigits, hbound⟩ := @ih ((carry + d * mult) / base)
      (Nat.div_lt_of_lt_mul hsum) hds
    rw [List.map_cons, CarryOps.carries, hcast, h.carried (by omega), mulAdd]
    constructor
    · rw [List.map_cons, List.map_cons, h.digit (by omega), hdigits]
    · rw [List.forall_mem_cons]
      exact ⟨by omega, hbound⟩

/-- The digits of a round are digits of the base. -/
lemma lt_of_mem_mulAdd (hb : 1 < base) {carry d : Nat} {ds : List Nat}
    (hd : d ∈ mulAdd base mult carry ds) : d < base := by
  induction ds generalizing carry with
  | nil => exact Nat.digits_lt_base hb hd
  | cons e ds ih =>
    rw [mulAdd] at hd
    cases hd with
    | head => exact Nat.mod_lt _ (by omega)
    | tail _ hd => exact ih hd

/-! ## All rounds -/

include h in
/-- Rounds of exact operations compute the digits. -/
lemma CarryOps.Exact.foldl_round (kept : List Nat) {ds : List Nat} (hkept : ∀ d ∈ kept, d < base)
    (hds : ∀ d ∈ ds, d < mult) :
    ds.foldl (fun kept (d : Nat) => ops.round kept d) (kept.map Nat.cast) =
      (ds.foldl (fun kept d => mulAdd base mult d kept) kept).map Nat.cast := by
  induction ds generalizing kept with
  | nil => rfl
  | cons d ds ih =>
    obtain ⟨hd, hds⟩ := List.forall_mem_cons.mp hds
    have hround : ops.round (kept.map Nat.cast) d = (mulAdd base mult d kept).map Nat.cast :=
      (h.carries hd hkept).1
    rw [List.foldl_cons, List.foldl_cons, hround]
    exact ih _ (fun e he => lt_of_mem_mulAdd h.one_lt he) hds

include h in
/-- Every carry of exact operations fits an int32. -/
lemma CarryOps.Exact.allCarries (kept : List Nat) {ds : List Nat} (hkept : ∀ d ∈ kept, d < base)
    (hds : ∀ d ∈ ds, d < mult) :
    ∀ c ∈ ops.allCarries (kept.map Nat.cast) (ds.map Nat.cast), 0 ≤ c ∧ c < 2 ^ 31 := by
  have hbounded := h.bounded
  induction ds generalizing kept with
  | nil => simp [CarryOps.allCarries]
  | cons d ds ih =>
    obtain ⟨hd, hds⟩ := List.forall_mem_cons.mp hds
    obtain ⟨hround, hbound⟩ := h.carries hd hkept
    rw [List.map_cons, CarryOps.allCarries, CarryOps.round, hround]
    intro c hc
    cases List.mem_append.mp hc with
    | inl hc =>
      have hlt := hbound c hc
      omega
    | inr hc => exact ih _ (fun e he => lt_of_mem_mulAdd h.one_lt he) hds c hc

end

/-! ## Encoding and decoding -/

/-- Bytes are below 256. -/
lemma toNat_lt_of_mem (bytes : List UInt8) : ∀ d ∈ bytes.map UInt8.toNat, d < 256 := by
  intro d hd
  obtain ⟨b, -, rfl⟩ := List.mem_map.mp hd
  exact b.toNat_lt

/-- The encoder over int32 numbers is the encoder. -/
lemma int32Encode_eq (bytes : List UInt8) : int32Encode bytes = base58btcEncode bytes := by
  have hdigits (rest : List UInt8) :
      rest.foldl (fun ds b => encodeOps.round ds b.toNat) [] =
        (rest.foldl (fun ds b => mulAdd 58 256 b.toNat ds) []).map Nat.cast := by
    have h := encodeOps_exact.foldl_round [] (by simp) (toNat_lt_of_mem rest)
    rwa [List.foldl_map, List.foldl_map] at h
  rw [int32Encode, base58btcEncode]
  rw [hdigits, ← List.map_reverse, List.map_map]
  rfl

/-- A digit that is found is below 58. -/
lemma lt_of_b58Lookup {c : CodeUnit} {d : Nat} (h : b58Lookup c = some d) : d < 58 :=
  (b58Lookup_eq_some.mp h).1

/-- The decoder's loop over int32 numbers is its loop. -/
lemma int32DecodeLoop_eq (i : Nat) (bytes : List Nat) (hbytes : ∀ b ∈ bytes, b < 256) (s : JsString) :
    int32DecodeLoop i (bytes.map Nat.cast) s = (decodeLoop i bytes s).map (List.map Nat.cast) := by
  induction s generalizing i bytes with
  | nil => rfl
  | cons c s ih =>
    rw [int32DecodeLoop, decodeLoop]
    cases hc : b58Lookup c with
    | none => rfl
    | some v =>
      have hround : decodeOps.round (bytes.map Nat.cast) v = (mulAdd 256 58 v bytes).map Nat.cast :=
        (decodeOps_exact.carries (lt_of_b58Lookup hc) hbytes).1
      dsimp only
      rw [hround]
      exact ih (i + 1) _ fun b hb => lt_of_mem_mulAdd (by decide) hb

/-- The decoder over int32 numbers is the decoder. -/
lemma int32Decode_eq (s : JsString) : int32Decode s = base58btcDecode s := by
  have hloop (i : Nat) (s : JsString) := int32DecodeLoop_eq i [] (by simp) s
  rw [int32Decode, base58btcDecode]
  rw [List.map_nil] at hloop
  rw [hloop]
  cases decodeLoop (s.takeWhile (· = b58Char 0)).length []
      (s.drop (s.takeWhile (· = b58Char 0)).length) with
  | error err => rfl
  | ok bytes => simp [Except.map, ← List.map_reverse]

/-- The digits that are read are below 58. -/
lemma lt_of_mem_digitsRead {s : JsString} : ∀ d ∈ digitsRead s, d < 58 := by
  induction s with
  | nil => simp [digitsRead]
  | cons c s ih =>
    rw [digitsRead]
    cases hc : b58Lookup c with
    | none => simp
    | some v => exact List.forall_mem_cons.mpr ⟨lt_of_b58Lookup hc, ih⟩

/-- No carry of the encoder leaves the int32 range. -/
lemma encodeCarries_lt (bytes : List UInt8) : ∀ c ∈ encodeCarries bytes, 0 ≤ c ∧ c < 2 ^ 31 := by
  have h := encodeOps_exact.allCarries [] (by simp)
    (toNat_lt_of_mem (bytes.drop (bytes.takeWhile (· = 0)).length))
  rwa [List.map_map] at h

/-- No carry of the decoder does. -/
lemma decodeCarries_lt (s : JsString) : ∀ c ∈ decodeCarries s, 0 ≤ c ∧ c < 2 ^ 31 := by
  rw [decodeCarries]
  exact decodeOps_exact.allCarries [] (by simp) lt_of_mem_digitsRead

/-! ## The bijection -/

/-- The digits are those of the values below 58. -/
lemma mem_b58 {c : CodeUnit} : c ∈ b58 ↔ ∃ d < 58, c = b58Char d := by
  rw [← length_b58]
  exact Data.Alphabet.mem_iff nodup_b58

/-- Decoding accepts the texts over the alphabet, and no others. -/
lemma isOk_base58btcDecode {s : JsString} :
    (∃ bytes, base58btcDecode s = .ok bytes) ↔ ∀ c ∈ s, c ∈ b58 := by
  constructor
  · intro ⟨bytes, h⟩ c hc
    obtain ⟨ds, rfl, hds, -⟩ := base58btcDecode_iff.mp h
    obtain ⟨d, hd, rfl⟩ := List.mem_map.mp hc
    exact mem_b58.mpr ⟨d, hds d hd, rfl⟩
  · intro h
    obtain ⟨ds, hs, hds⟩ := Data.Alphabet.exists_digits nodup_b58 h
    rw [length_b58] at hds
    exact ⟨_, base58btcDecode_iff.mpr ⟨ds, hs, hds, rfl⟩⟩

/-- One `1` for every leading zero byte, and the base-58 digits of the number that the bytes write. -/
lemma base58btcEncode_digits (bytes : List UInt8) :
    base58btcEncode bytes =
      List.replicate (bytes.takeWhile (· = 0)).length (b58Char 0) ++
        (Nat.digits 58 (Nat.ofDigits 256 (bytes.map UInt8.toNat).reverse)).reverse.map b58Char := by
  have hzeros : (bytes.map UInt8.toNat).takeWhile (· = 0) =
      (bytes.takeWhile (· = 0)).map UInt8.toNat := by
    apply takeWhile_map_of_forall
    intro b _
    simp [← UInt8.toNat_inj]
  have hones : ((bytes.takeWhile (· = 0)).map UInt8.toNat).map b58Char =
      List.replicate (bytes.takeWhile (· = 0)).length (b58Char 0) := by
    rw [List.map_map, List.eq_replicate_iff]
    refine ⟨List.length_map _, ?_⟩
    intro c hc
    obtain ⟨b, hb, rfl⟩ := List.mem_map.mp hc
    have hb0 : b = 0 := by simpa using List.mem_takeWhile_imp hb
    rw [hb0]
    rfl
  rw [base58btcEncode_eq, convert, List.map_append, hzeros, hones]

/-- Encoding and decoding are inverse to each other between bytes and texts over the alphabet; the
text is the number in base 58 behind its ones; and the 32-bit loops compute both, with every carry
below 2^31. -/
theorem base58btc_bijective :
    (∀ bytes, base58btcDecode (base58btcEncode bytes) = .ok bytes) ∧
    (∀ s, (∀ c ∈ s, c ∈ b58) →
      ∃ bytes, base58btcDecode s = .ok bytes ∧ base58btcEncode bytes = s) ∧
    (∀ s, (∃ err, base58btcDecode s = .error err) ↔ ∃ c ∈ s, c ∉ b58) ∧
    (∀ bytes, base58btcEncode bytes =
      List.replicate (bytes.takeWhile (· = 0)).length (b58Char 0) ++
        (Nat.digits 58 (Nat.ofDigits 256 (bytes.map UInt8.toNat).reverse)).reverse.map b58Char) ∧
    (∀ bytes, int32Encode bytes = base58btcEncode bytes ∧
      ∀ c ∈ encodeCarries bytes, 0 ≤ c ∧ c < 2 ^ 31) ∧
    (∀ s, int32Decode s = base58btcDecode s ∧ ∀ c ∈ decodeCarries s, 0 ≤ c ∧ c < 2 ^ 31) := by
  refine ⟨?decodeEncode, ?encodeDecode, ?throws, base58btcEncode_digits, ?encode, ?decode⟩
  case decodeEncode =>
    intro bytes
    exact base58btcDecode_eq_ok.mpr rfl
  case encodeDecode =>
    intro s hs
    obtain ⟨bytes, h⟩ := isOk_base58btcDecode.mpr hs
    exact ⟨bytes, h, (base58btcDecode_eq_ok.mp h).symm⟩
  case throws =>
    intro s
    have hok := isOk_base58btcDecode (s := s)
    cases h : base58btcDecode s with
    | error err =>
      simp only [h, reduceCtorEq, exists_false, false_iff, not_forall] at hok
      obtain ⟨c, hc, hnot⟩ := hok
      simp only [Except.error.injEq, exists_eq', true_iff]
      exact ⟨c, hc, hnot⟩
    | ok bytes =>
      have hall := hok.mp ⟨bytes, h⟩
      simp only [reduceCtorEq, exists_false, false_iff, not_exists, not_and, not_not]
      exact hall
  case encode =>
    intro bytes
    exact ⟨int32Encode_eq bytes, encodeCarries_lt bytes⟩
  case decode =>
    intro s
    exact ⟨int32Decode_eq s, decodeCarries_lt s⟩

end VtiDidcomm.Multibase
