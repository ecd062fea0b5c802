import VtiDidcomm.Codec.Base64url
import VtiDidcomm.Data.Positional
import VtiDidcomm.Data.Regroup

/-!
# What base64url texts decode to

`decode` of `base64url.js` over all texts. The characters are digits of six bits, and the bytes are
the same bits in groups of eight (`decodeText_eq_ok`): the bits that a 32-bit accumulator loses are
ones that no byte takes any more (`int32Loop_eq`). The bits behind the last byte are never looked
at, and `encode` writes them as zeros (`canonical_iff`).
-/

namespace VtiDidcomm.Base64url
open Js Positional Regroup

/-! ## Digits of six bits -/

/-- Looking up inverts writing. -/
lemma b64Lookup_eq_some {c : CodeUnit} {d : Nat} :
    b64Lookup c = some d ↔ d < 64 ∧ c = b64Char d := by
  rw [← length_b64Chars]
  exact Data.Alphabet.lookup_eq_some nodup_b64Chars

/-- The digits are those of the values below 64. -/
lemma mem_b64Chars {c : CodeUnit} : c ∈ b64Chars ↔ ∃ d < 64, c = b64Char d := by
  rw [← length_b64Chars]
  exact Data.Alphabet.mem_iff nodup_b64Chars

/-- A text over the alphabet is the text of digits. -/
lemma exists_digits {s : JsString} (h : ∀ c ∈ s, c ∈ b64Chars) :
    ∃ ds : List Nat, s = ds.map b64Char ∧ ∀ d ∈ ds, d < 64 := by
  rw [← length_b64Chars]
  exact Data.Alphabet.exists_digits nodup_b64Chars h

/-- Different values are written differently. -/
lemma map_b64Char_inj {ds es : List Nat} (hds : ∀ d ∈ ds, d < 64) (hes : ∀ e ∈ es, e < 64) :
    ds.map b64Char = es.map b64Char ↔ ds = es := by
  rw [← length_b64Chars] at hds hes
  exact Data.Alphabet.map_inj nodup_b64Chars hds hes

/-! ## The decoding loop -/

/-- The accumulator may lose what is above its 32 lowest bits: the loop is the regrouping. -/
lemma decodeLoop_map (i n : Nat) {bits : Nat} (hbits : bits < 8) {ds : List Nat}
    (hds : ∀ d ∈ ds, d < 64) :
    decodeLoop i n bits (ds.map b64Char) = .ok ((regroup 6 8 n bits ds).map Nat.toUInt8) := by
  induction ds generalizing i n bits with
  | nil => rfl
  | cons d ds ih =>
    obtain ⟨hd, hds⟩ := List.forall_mem_cons.mp hds
    -- the bits not yet taken out are among the 32 that are kept
    have hkept (k : Nat) (hk : k ≤ 32) :
        (n * 64 + d) % 2 ^ 32 % 2 ^ k = (n * 64 + d) % 2 ^ k :=
      Nat.mod_mod_of_dvd _ (Nat.pow_dvd_pow 2 hk)
    have hrest (k : Nat) (hk : k < 8) :
        decodeLoop (i + 1) ((n * 64 + d) % 2 ^ 32) k (ds.map b64Char) =
          .ok ((regroup 6 8 (n * 64 + d) k ds).map Nat.toUInt8) := by
      rw [ih _ _ hk hds, regroup_congr (hkept k (by omega))]
    have hpow : n * 2 ^ 6 + d = n * 64 + d := rfl
    rw [List.map_cons, regroup, hpow]
    by_cases h : 8 ≤ bits + 6
    · have hbyte : ((n * 64 + d) % 2 ^ 32 / 2 ^ (bits + 6 - 8)).toUInt8 =
          ((n * 64 + d) / 2 ^ (bits + 6 - 8) % 2 ^ 8).toUInt8 := by
        apply toUInt8_eq
        have hcut := div_mod_congr (hkept (bits + 6 - 8 + 8) (by omega))
        simpa using hcut
      rw [decodeLoop_byte hd h, hrest _ (by omega), if_pos h, List.map_cons, hbyte]
      rfl
    · rw [decodeLoop_keep hd (by omega), hrest _ (by omega), if_neg h]

/-- The loop succeeds on texts over the alphabet only. -/
lemma mem_of_decodeLoop_ok {i n bits : Nat} {s : JsString} {bytes : List UInt8}
    (h : decodeLoop i n bits s = .ok bytes) : ∀ c ∈ s, c ∈ b64Chars := by
  induction s generalizing i n bits bytes with
  | nil => simp
  | cons c s ih =>
    rw [decodeLoop] at h
    cases hc : b64Lookup c with
    | none =>
      rw [hc] at h
      cases h
    | some v =>
      rw [hc] at h
      have hmem : c ∈ b64Chars := mem_b64Chars.mpr ⟨v, b64Lookup_eq_some.mp hc⟩
      rw [List.forall_mem_cons]
      dsimp only at h
      split at h
      · generalize hrest : decodeLoop _ _ _ s = rest at h
        cases rest with
        | error e => cases h
        | ok rest => exact ⟨hmem, ih hrest⟩
      · exact ⟨hmem, ih h⟩

/-- What decodes is a text of digits, and its bytes are the digits regrouped. -/
lemma decodeText_eq_ok {s : JsString} {bytes : List UInt8} :
    decodeText s = .ok bytes ↔
      ∃ ds, norm s = ds.map b64Char ∧ (∀ d ∈ ds, d < 64) ∧ ds.length % 4 ≠ 1 ∧
        bytes = (regroup 6 8 0 0 ds).map Nat.toUInt8 := by
  rw [decodeText]
  constructor
  · intro h
    by_cases hlen : (norm s).length % 4 = 1
    · rw [if_pos hlen] at h
      cases h
    · rw [if_neg hlen] at h
      obtain ⟨ds, hs, hds⟩ := exists_digits (mem_of_decodeLoop_ok h)
      rw [hs, List.length_map] at hlen
      rw [hs, decodeLoop_map 0 0 (by omega) hds] at h
      exact ⟨ds, hs, hds, hlen, (Except.ok.inj h).symm⟩
  · rintro ⟨ds, hs, hds, hlen, hbytes⟩
    rw [hs, if_neg (by rwa [List.length_map]), decodeLoop_map 0 0 (by omega) hds, hbytes]

/-! ## The accumulator as a signed integer -/

/-- The decoding loop with the 32-bit integers of `<<`, `|`, `>>` and `&`. -/
def int32Loop (i : Nat) (n : BitVec 32) (bits : Nat) : JsString → Except JsError (List UInt8)
  | [] => .ok []
  | ch :: s =>
    match b64Lookup ch with
    | none =>
      .error (error (js "base64url.decode: invalid character " ++ Json.quote [ch] ++
        js " at position " ++ natText i))
    | some v =>
      let n := n <<< 6 ||| BitVec.ofNat 32 v
      if 8 ≤ bits + 6 then
        -- `>>` repeats the sign, which `& 0xff` drops
        let byte := (n.sshiftRight (bits + 6 - 8) &&& 0xff#32).toNat.toUInt8
        (int32Loop (i + 1) n (bits + 6 - 8) s).map (byte :: ·)
      else int32Loop (i + 1) n (bits + 6) s

/-- Shifting in six bits drops what leaves 32. -/
lemma toNat_shift (n : BitVec 32) (v : Nat) :
    (n <<< 6 ||| BitVec.ofNat 32 v).toNat = (n.toNat <<< 6 ||| v) % 2 ^ 32 := by
  rw [BitVec.toNat_or, BitVec.toNat_shiftLeft, BitVec.toNat_ofNat, Nat.or_mod_two_pow]

/-- The byte is taken from below the sign. -/
lemma sshiftRight_and (n : BitVec 32) {k : Nat} (hk : k ≤ 24) :
    (n.sshiftRight k &&& 0xff#32).toNat = (n.toNat >>> k) % 2 ^ 8 := by
  have hsign : n.sshiftRight k &&& 0xff#32 = n >>> k &&& 0xff#32 := by
    apply BitVec.eq_of_getLsbD_eq
    intro i hi
    rw [BitVec.getLsbD_and, BitVec.getLsbD_and, BitVec.getLsbD_sshiftRight, BitVec.getLsbD_ushiftRight]
    by_cases h8 : i < 8
    · have hw : ¬ 32 ≤ i := by omega
      rw [if_pos (by omega), decide_eq_false hw, Bool.not_false, Bool.true_and]
    · have hmask : (0xff#32).getLsbD i = false := by
        rw [BitVec.getLsbD_ofNat, Nat.testBit_lt_two_pow, Bool.and_false]
        calc 0xff < 2 ^ 8 := by decide
          _ ≤ 2 ^ i := Nat.pow_le_pow_right (by decide) (by omega)
      rw [hmask, Bool.and_false, Bool.and_false]
  rw [hsign, BitVec.toNat_and, BitVec.toNat_ushiftRight]
  exact Nat.and_two_pow_sub_one_eq_mod _ 8

/-- On signed integers the loop does the same. -/
lemma int32Loop_eq (i : Nat) (n : BitVec 32) {bits : Nat} (hbits : bits < 8) (s : JsString) :
    int32Loop i n bits s = decodeLoop i n.toNat bits s := by
  induction s generalizing i n bits with
  | nil => rfl
  | cons ch s ih =>
    rw [int32Loop, decodeLoop]
    cases hv : b64Lookup ch with
    | none => rfl
    | some v =>
      have hn := toNat_shift n v
      have hbyte : ((n <<< 6 ||| BitVec.ofNat 32 v).sshiftRight (bits + 6 - 8) &&&
          0xff#32).toNat.toUInt8 =
          (((n.toNat <<< 6 ||| v) % 2 ^ 32) >>> (bits + 6 - 8)).toUInt8 := by
        rw [sshiftRight_and _ (by omega), hn]
        apply toUInt8_eq
        simp
      dsimp only
      rw [hbyte]
      split
      · rw [ih _ _ (by omega), hn]
      · rw [ih _ _ (by omega), hn]

/-! ## The accepted texts -/

/-- The digits a text is made of. -/
def sextets (s : JsString) : List Nat := s.filterMap b64Lookup

/-- The values of a text are those it was written from. -/
lemma sextets_map {ds : List Nat} (hds : ∀ d ∈ ds, d < 64) : sextets (ds.map b64Char) = ds := by
  induction ds with
  | nil => rfl
  | cons d ds ih =>
    obtain ⟨hd, hds⟩ := List.forall_mem_cons.mp hds
    rw [List.map_cons, sextets, List.filterMap_cons_some (b64Lookup_b64Char hd)]
    exact congrArg _ (ih hds)

/-- A string is decoded as its text. -/
lemma decode_str (s : JsString) : decode (some (.str s)) = decodeText s := rfl

/-- The bytes that digits are regrouped to, as a number. -/
lemma ofDigits_bytes {ds : List Nat} {bytes : List UInt8} (hds : ∀ d ∈ ds, d < 64)
    (hbytes : bytes = (regroup 6 8 0 0 ds).map Nat.toUInt8) :
    bytes.length = 6 * ds.length / 8 ∧
      Nat.ofDigits 256 (bytes.map UInt8.toNat).reverse =
        Nat.ofDigits 64 ds.reverse / 2 ^ (6 * ds.length % 8) := by
  subst hbytes
  constructor
  · have hzero : 0 < 8 := by omega
    rw [List.length_map, length_regroup (by omega) hzero hzero, Nat.zero_add]
  · rw [map_toUInt8_toNat fun d hd => lt_of_mem_regroup hd]
    exact ofDigits_regroup (a := 6) (b := 8) (by omega) (by omega) hds

/-- Decoding inverts encoding; a text is accepted by its characters and its length, and its bytes
are the number its digits write, without the bits left over. -/
theorem base64url_language :
    (∀ bytes, decode (some (.str (encode bytes))) = .ok bytes ∧ ∀ c ∈ encode bytes, c ∈ b64Chars) ∧
    (∀ s, (∃ bytes, decode (some (.str s)) = .ok bytes) ↔
      (∀ c ∈ norm s, c ∈ b64Chars) ∧ (norm s).length % 4 ≠ 1) ∧
    (∀ s bytes, decode (some (.str s)) = .ok bytes →
      bytes.length = 3 * (norm s).length / 4 ∧
      Nat.ofDigits 256 (bytes.map UInt8.toNat).reverse =
        Nat.ofDigits 64 (sextets (norm s)).reverse / 2 ^ (6 * (norm s).length % 8) ∧
      int32Loop 0 0 0 (norm s) = .ok bytes) := by
  refine ⟨?roundTrip, ?accepted, ?bytes⟩
  case roundTrip =>
    intro bytes
    refine ⟨decode_encode bytes, ?_⟩
    intro c hc
    exact mem_b64Chars.mpr (mem_encode c hc)
  case accepted =>
    intro s
    simp only [decode_str, decodeText_eq_ok]
    constructor
    · intro ⟨bytes, ds, hs, hds, hlen, hbytes⟩
      rw [hs, List.length_map]
      refine ⟨?_, hlen⟩
      intro c hc
      obtain ⟨d, hd, rfl⟩ := List.mem_map.mp hc
      exact mem_b64Chars.mpr ⟨d, hds d hd, rfl⟩
    · intro ⟨hmem, hlen⟩
      obtain ⟨ds, hs, hds⟩ := exists_digits hmem
      rw [hs, List.length_map] at hlen
      exact ⟨_, ds, hs, hds, hlen, rfl⟩
  case bytes =>
    intro s bytes h
    obtain ⟨ds, hs, hds, hlen, hbytes⟩ := decodeText_eq_ok.mp h
    obtain ⟨hlength, hvalue⟩ := ofDigits_bytes hds hbytes
    rw [hs, List.length_map, sextets_map hds]
    refine ⟨by omega, hvalue, ?_⟩
    rw [int32Loop_eq 0 0 (by decide), hbytes]
    exact decodeLoop_map 0 0 (by decide) hds

/-! ## What encoding writes -/

/-- Four digits in front of digits, and three bytes in front of the bytes that these write. -/
lemma ofDigits_group {a b c : UInt8} {bytes : List UInt8} {ds : List Nat} {N : Nat}
    (hN : a.toNat * 65536 + b.toNat * 256 + c.toNat = N)
    (hlen : ds.length = (8 * bytes.length + 5) / 6)
    (hvalue : Nat.ofDigits 64 ds.reverse = Nat.ofDigits 256 (bytes.map UInt8.toNat).reverse *
      2 ^ (6 * ds.length - 8 * bytes.length)) :
    Nat.ofDigits 64
        (N / 2 ^ 18 % 64 :: N / 2 ^ 12 % 64 :: N / 2 ^ 6 % 64 :: N % 64 :: ds).reverse =
      Nat.ofDigits 256 ((a :: b :: c :: bytes).map UInt8.toNat).reverse *
        2 ^ (6 * (ds.length + 4) - 8 * (bytes.length + 3)) := by
  have hpow : 64 ^ ds.length = 256 ^ bytes.length * 2 ^ (6 * ds.length - 8 * bytes.length) := by
    have h64 : 64 ^ ds.length = 2 ^ (6 * ds.length) := (Nat.pow_mul 2 6 ds.length).symm
    have h256 : 256 ^ bytes.length = 2 ^ (8 * bytes.length) :=
      (Nat.pow_mul 2 8 bytes.length).symm
    rw [h64, h256, ← Nat.pow_add]
    congr 1
    omega
  have hgroup : N / 2 ^ 18 % 64 * 262144 + N / 2 ^ 12 % 64 * 4096 + N / 2 ^ 6 % 64 * 64 +
      N % 64 = N := by
    have ha := a.toNat_lt
    have hb := b.toNat_lt
    have hc := c.toNat_lt
    have hlt : N < 16777216 := by omega
    clear hN hvalue hlen hpow
    omega
  have hpad : 6 * (ds.length + 4) - 8 * (bytes.length + 3) =
      6 * ds.length - 8 * bytes.length := by
    omega
  simp only [List.map_cons, ofDigits_cons_reverse, List.length_cons, List.length_map, hvalue]
  rw [hpad]
  generalize hP : 2 ^ (6 * ds.length - 8 * bytes.length) = P at hpow
  generalize Nat.ofDigits 256 (bytes.map UInt8.toNat).reverse = V
  calc _ = (N / 2 ^ 18 % 64 * 262144 + N / 2 ^ 12 % 64 * 4096 + N / 2 ^ 6 % 64 * 64 +
          N % 64) * 64 ^ ds.length + V * P := by ring
    _ = (a.toNat * 65536 + b.toNat * 256 + c.toNat) * (256 ^ bytes.length * P) + V * P := by
        rw [hgroup, hpow, hN]
    _ = _ := by ring

/-- Encoding writes the bytes as a number, with zeros behind its last bit. -/
lemma exists_digits_encode (bytes : List UInt8) :
    ∃ ds : List Nat, encode bytes = ds.map b64Char ∧ (∀ d ∈ ds, d < 64) ∧
      ds.length = (8 * bytes.length + 5) / 6 ∧
      Nat.ofDigits 64 ds.reverse =
        Nat.ofDigits 256 (bytes.map UInt8.toNat).reverse * 2 ^ (6 * ds.length - 8 * bytes.length) := by
  induction bytes using encode.induct with
  | case1 => exact ⟨[], rfl, by simp, rfl, rfl⟩
  | case2 a =>
    have ha := a.toNat_lt
    refine ⟨[a.toNat * 2 ^ 16 / 2 ^ 18 % 64, a.toNat * 2 ^ 16 / 2 ^ 12 % 64], ?_, ?_, by simp, ?_⟩
    · simp only [encode, Nat.shiftLeft_eq, Nat.shiftRight_eq_div_pow]
      rfl
    · simp only [List.forall_mem_cons]
      exact ⟨by omega, by omega, by simp⟩
    · have hhigh : a.toNat * 2 ^ 16 / 2 ^ 18 % 64 = a.toNat / 4 := by omega
      have hlow : a.toNat * 2 ^ 16 / 2 ^ 12 % 64 = a.toNat % 4 * 16 := by omega
      rw [hhigh, hlow]
      simp [Nat.ofDigits_cons]
      omega
  | case3 a b =>
    have ha := a.toNat_lt
    have hb := b.toNat_lt
    generalize hn : a.toNat * 256 + b.toNat = n
    have hN : a.toNat * 65536 + b.toNat * 256 = n * 256 := by
      rw [← hn]
      ring
    refine ⟨[n * 256 / 2 ^ 18 % 64, n * 256 / 2 ^ 12 % 64, n * 256 / 2 ^ 6 % 64], ?_, ?_, by simp,
      ?_⟩
    · simp only [encode, join_two, Nat.shiftRight_eq_div_pow, hN]
      rfl
    · simp only [List.forall_mem_cons]
      exact ⟨by omega, by omega, by omega, by simp⟩
    · have hhigh : n * 256 / 2 ^ 18 % 64 = n / 1024 := by omega
      have hmid : n * 256 / 2 ^ 12 % 64 = n / 16 % 64 := by omega
      have hlow : n * 256 / 2 ^ 6 % 64 = n % 16 * 4 := by omega
      rw [hhigh, hmid, hlow]
      simp [Nat.ofDigits_cons]
      omega
  | case4 a b c bytes ih =>
    obtain ⟨ds, hs, hds, hlen, hvalue⟩ := ih
    have ha := a.toNat_lt
    have hb := b.toNat_lt
    have hc := c.toNat_lt
    generalize hN : a.toNat * 65536 + b.toNat * 256 + c.toNat = N
    refine ⟨N / 2 ^ 18 % 64 :: N / 2 ^ 12 % 64 :: N / 2 ^ 6 % 64 :: N % 64 :: ds, ?_, ?_, ?_, ?_⟩
    · simp only [encode, join_three, Nat.shiftRight_eq_div_pow, hN, hs]
      rfl
    · simp only [List.forall_mem_cons]
      exact ⟨by omega, by omega, by omega, by omega, hds⟩
    · simp only [List.length_cons]
      omega
    · -- the group of four stands above what the rest writes, as the group of three does
      exact ofDigits_group hN hlen hvalue

/-! ## Canonical texts -/

/-- A text without the characters of the standard alphabet and without padding. -/
def IsUrlSafe (s : JsString) : Prop := 0x2B ∉ s ∧ 0x2F ∉ s ∧ 0x3D ∉ s

instance (s : JsString) : Decidable (IsUrlSafe s) := inferInstanceAs (Decidable (_ ∧ _ ∧ _))

/-- A text in the URL-safe alphabet is its own normal form. -/
lemma IsUrlSafe.norm {s : JsString} (h : IsUrlSafe s) : norm s = s := by
  rw [Base64url.norm, replaceAll_of_notMem h.1, replaceAll_of_notMem h.2.1, trimEnd_of_notMem h.2.2]

/-- The bits of the last character that stand behind the last byte. -/
def unusedBits (s : JsString) : Nat :=
  ((s.getLast?.bind b64Lookup).getD 0) % 2 ^ (6 * s.length % 8)

/-- They are the lowest bits of the number that the text writes. -/
lemma unusedBits_map {ds : List Nat} (hds : ∀ d ∈ ds, d < 64) :
    unusedBits (ds.map b64Char) = Nat.ofDigits 64 ds.reverse % 2 ^ (6 * ds.length % 8) := by
  induction ds using List.reverseRecOn with
  | nil => rfl
  | append_singleton ds d ih =>
    have hd : d < 64 := hds d (by simp)
    have hdvd : 2 ^ (6 * (ds ++ [d]).length % 8) ∣ 64 := by
      apply Nat.pow_dvd_pow 2 (n := 6)
      omega
    rw [unusedBits, List.map_append, List.map_singleton, List.getLast?_concat, Option.bind_some,
      b64Lookup_b64Char hd, Option.getD_some, List.reverse_append, List.reverse_singleton,
      List.singleton_append, Nat.ofDigits_cons, ← List.map_singleton, ← List.map_append,
      List.length_map, Nat.add_mod, Nat.mod_eq_zero_of_dvd (Nat.dvd_mul_right_of_dvd hdvd _),
      Nat.add_zero, Nat.mod_mod]

/-- Texts of digits that decode to the same bytes are the same exactly when they end in the same
bits. -/
lemma digits_eq_iff {ds es : List Nat} (hds : ∀ d ∈ ds, d < 64) (hes : ∀ e ∈ es, e < 64)
    (hlen : ds.length = es.length)
    (hvalue : Nat.ofDigits 64 ds.reverse / 2 ^ (6 * ds.length % 8) =
      Nat.ofDigits 64 es.reverse / 2 ^ (6 * ds.length % 8)) :
    ds = es ↔ unusedBits (ds.map b64Char) = unusedBits (es.map b64Char) := by
  rw [unusedBits_map hds, unusedBits_map hes, ← hlen]
  constructor
  · intro h
    rw [h]
  · intro h
    have hsame : Nat.ofDigits 64 ds.reverse = Nat.ofDigits 64 es.reverse := by
      rw [← Nat.div_add_mod (Nat.ofDigits 64 ds.reverse) (2 ^ (6 * ds.length % 8)), h, hvalue,
        Nat.div_add_mod]
    apply List.reverse_injective
    apply Nat.ofDigits_inj_of_len_eq (b := 64) (by omega) _ _ _ hsame
    · rw [List.length_reverse, List.length_reverse, hlen]
    · simpa using hds
    · simpa using hes

/-- The number of bytes gives the number of characters back. -/
lemma length_of_bytes {m : Nat} (hm : m % 4 ≠ 1) : (8 * (6 * m / 8) + 5) / 6 = m := by
  obtain ⟨q, r, hr, rfl⟩ : ∃ q r, r < 4 ∧ m = 4 * q + r := ⟨m / 4, m % 4, by omega, by omega⟩
  interval_cases r <;> omega

/-- An accepted text is what its bytes are encoded as, up to the bits that no byte takes. -/
lemma exists_encode_digits {ds : List Nat} {bytes : List UInt8} (hds : ∀ d ∈ ds, d < 64)
    (hlen : ds.length % 4 ≠ 1) (hbytes : bytes = (regroup 6 8 0 0 ds).map Nat.toUInt8) :
    ∃ es : List Nat, encode bytes = es.map b64Char ∧ (∀ e ∈ es, e < 64) ∧ es.length = ds.length ∧
      Nat.ofDigits 64 es.reverse =
        Nat.ofDigits 64 ds.reverse / 2 ^ (6 * ds.length % 8) * 2 ^ (6 * ds.length % 8) := by
  obtain ⟨hlength, hvalue⟩ := ofDigits_bytes hds hbytes
  obtain ⟨es, hs, hes, helen, hevalue⟩ := exists_digits_encode bytes
  have hsame : es.length = ds.length := by
    rw [helen, hlength, length_of_bytes hlen]
  have hpad : 6 * es.length - 8 * bytes.length = 6 * ds.length % 8 := by omega
  rw [hpad, hvalue] at hevalue
  exact ⟨es, hs, hes, hsame, hevalue⟩

/-- An accepted text is the encoding of its bytes exactly when its last character is zero in the
bits that no byte takes, and two accepted texts of the same bytes differ in these bits only. -/
theorem canonical_iff {s : JsString} {bytes : List UInt8} (hs : IsUrlSafe s)
    (h : decode (some (.str s)) = .ok bytes) :
    (encode bytes = s ↔ unusedBits s = 0) ∧
      ∀ t, IsUrlSafe t → decode (some (.str t)) = .ok bytes →
        (t = s ↔ unusedBits t = unusedBits s) := by
  obtain ⟨ds, hsd, hds, hlen, hbytes⟩ := decodeText_eq_ok.mp h
  rw [hs.norm] at hsd
  refine ⟨?encode, ?texts⟩
  case encode =>
    obtain ⟨es, he, hes, helen, hevalue⟩ := exists_encode_digits hds hlen hbytes
    have hzero : unusedBits (es.map b64Char) = 0 := by
      rw [unusedBits_map hes, hevalue, helen, Nat.mul_mod_left]
    rw [he, hsd, map_b64Char_inj hes hds, digits_eq_iff hes hds helen _, hzero, eq_comm]
    rw [helen, hevalue, Nat.mul_div_cancel _ (Nat.two_pow_pos _)]
  case texts =>
    intro t ht h'
    obtain ⟨es, htd, hes, helen, hbytes'⟩ := decodeText_eq_ok.mp h'
    rw [ht.norm] at htd
    obtain ⟨hlength, hvalue⟩ := ofDigits_bytes hds hbytes
    obtain ⟨hlength', hvalue'⟩ := ofDigits_bytes hes hbytes'
    have hsame : es.length = ds.length := by
      rw [← length_of_bytes helen, ← hlength', hlength, length_of_bytes hlen]
    rw [htd, hsd, map_b64Char_inj hes hds, digits_eq_iff hes hds hsame]
    rw [← hvalue', hvalue, hsame]

theorem canonical_iff_sample :
    encode [0x41] = js "QQ" ∧ (js "QR" = js "QQ" ↔ unusedBits (js "QR") = unusedBits (js "QQ")) := by
  have hdecode : decode (some (.str (js "QQ"))) = .ok [0x41] := rfl
  obtain ⟨hencode, htexts⟩ := canonical_iff (by decide) hdecode
  exact ⟨hencode.mpr rfl, htexts (js "QR") (by decide) rfl⟩

/-- `"QR"` decodes to the byte that is encoded as `"QQ"`. -/
theorem decode_not_canonical :
    ¬ ∀ (s : JsString) (bytes : List UInt8), IsUrlSafe s → decode (some (.str s)) = .ok bytes →
      encode bytes = s := by
  intro h
  exact absurd (h (js "QR") [0x41] (by decide) rfl) (by decide)

end VtiDidcomm.Base64url
