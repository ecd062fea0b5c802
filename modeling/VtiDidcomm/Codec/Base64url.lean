import Mathlib.Tactic.IntervalCases
import VtiDidcomm.Data.Alphabet
import VtiDidcomm.Js.Error

/-!
# base64url

`encode` and `decode` of `base64url.js`: three bytes to four characters of an alphabet of 64,
without padding; decoding also takes the standard alphabet and trailing padding. The decoder shifts
six bits at a time into a 32-bit accumulator that it never clears; `decode_encode` says that it
reads what the encoder wrote.
-/

namespace VtiDidcomm.Base64url
open Js

/-- `B64_CHARS` -/
def b64Chars : JsString :=
  js "ABCDEFGHIJKLMNOPQRSTUVWXYZabcdefghijklmnopqrstuvwxyz0123456789-_"

/-- `B64_CHARS[i]` -/
def b64Char (i : Nat) : CodeUnit := b64Chars.getD i 0

/-- `B64_LOOKUP[ch]` -/
def b64Lookup (ch : CodeUnit) : Option Nat := indexOf b64Chars ch

/-- Encode bytes as base64url without padding. -/
def encode : List UInt8 → JsString
  | [] => []
  | [a] =>
    let n := a.toNat <<< 16
    [b64Char ((n >>> 18) % 64), b64Char ((n >>> 12) % 64)]
  | [a, b] =>
    let n := a.toNat <<< 16 ||| b.toNat <<< 8
    [b64Char ((n >>> 18) % 64), b64Char ((n >>> 12) % 64), b64Char ((n >>> 6) % 64)]
  | a :: b :: c :: bytes =>
    let n := a.toNat <<< 16 ||| b.toNat <<< 8 ||| c.toNat
    b64Char ((n >>> 18) % 64) :: b64Char ((n >>> 12) % 64) :: b64Char ((n >>> 6) % 64) ::
      b64Char (n % 64) :: encode bytes

/-- The standard alphabet made URL-safe, and the padding dropped. -/
def norm (s : JsString) : JsString := trimEnd (replaceAll (replaceAll s 0x2B 0x2D) 0x2F 0x5F) 0x3D

/-- The decoding loop at position `i`, with the accumulator `n` and the `bits` not yet written. -/
def decodeLoop (i n bits : Nat) : JsString → Except JsError (List UInt8)
  | [] => .ok []
  | ch :: s =>
    match b64Lookup ch with
    | none =>
      .error (error (js "base64url.decode: invalid character " ++ Json.quote [ch] ++
        js " at position " ++ natText i))
    | some v =>
      -- `n = (n << 6) | v` on a 32-bit integer: the bits shifted out are lost.
      let n := (n <<< 6 ||| v) % 2 ^ 32
      if 8 ≤ bits + 6 then
        (decodeLoop (i + 1) n (bits + 6 - 8) s).map ((n >>> (bits + 6 - 8)).toUInt8 :: ·)
      else decodeLoop (i + 1) n (bits + 6) s

/-- Decode a base64url string. -/
def decodeText (s : JsString) : Except JsError (List UInt8) :=
  let s := norm s
  if s.length % 4 = 1 then
    .error (error (js "base64url.decode: invalid length (" ++ natText s.length ++
      js " chars; %4 === 1)"))
  else decodeLoop 0 0 0 s

/-- `decode` of a value that may not be a string. -/
def decode (v : Option Json) : Except JsError (List UInt8) :=
  match Json.asString v with
  | none => .error (typeError (js "base64url.decode expects a string, got " ++ Json.typeOf v))
  | some s => decodeText s

/-! ## The alphabet -/

/-- The digits are distinct. -/
lemma nodup_b64Chars : b64Chars.Nodup := by decide +kernel

/-- There are 64 of them. -/
lemma length_b64Chars : b64Chars.length = 64 := rfl

/-- A digit is looked up as its value. -/
lemma b64Lookup_b64Char {i : Nat} (h : i < 64) : b64Lookup (b64Char i) = some i := by
  rw [← length_b64Chars] at h
  exact Data.Alphabet.lookup_getD nodup_b64Chars h

/-- No digit is of the other alphabet, or padding. -/
lemma b64Char_ne {i : Nat} (h : i < 64) :
    b64Char i ≠ 0x2B ∧ b64Char i ≠ 0x2F ∧ b64Char i ≠ 0x3D := by
  have table : ∀ i : Fin 64, b64Char i ≠ 0x2B ∧ b64Char i ≠ 0x2F ∧ b64Char i ≠ 0x3D := by
    decide +kernel
  exact table ⟨i, h⟩

/-- A text is made of digits. -/
lemma mem_encode {bytes : List UInt8} : ∀ c ∈ encode bytes, ∃ i < 64, c = b64Char i := by
  induction bytes using encode.induct with
  | case1 => simp [encode]
  | case2 a =>
    rw [encode]
    intro c hc
    simp only [List.mem_cons, List.not_mem_nil, or_false] at hc
    obtain rfl | rfl := hc <;> exact ⟨_, Nat.mod_lt _ (by decide), rfl⟩
  | case3 a b =>
    rw [encode]
    intro c hc
    simp only [List.mem_cons, List.not_mem_nil, or_false] at hc
    obtain rfl | rfl | rfl := hc <;> exact ⟨_, Nat.mod_lt _ (by decide), rfl⟩
  | case4 a b c bytes ih =>
    rw [encode]
    intro d hd
    simp only [List.mem_cons] at hd
    obtain rfl | rfl | rfl | rfl | hd := hd
    · exact ⟨_, Nat.mod_lt _ (by decide), rfl⟩
    · exact ⟨_, Nat.mod_lt _ (by decide), rfl⟩
    · exact ⟨_, Nat.mod_lt _ (by decide), rfl⟩
    · exact ⟨_, Nat.mod_lt _ (by decide), rfl⟩
    · exact ih d hd

/-- A text is its own normal form. -/
lemma norm_encode (bytes : List UInt8) : norm (encode bytes) = encode bytes := by
  have hmem (c : CodeUnit) (hc : ∀ i < 64, b64Char i ≠ c) : c ∉ encode bytes := by
    intro h
    obtain ⟨i, hi, rfl⟩ := mem_encode c h
    exact hc i hi rfl
  rw [norm, replaceAll_of_notMem (hmem 0x2B fun i hi => (b64Char_ne hi).1),
    replaceAll_of_notMem (hmem 0x2F fun i hi => (b64Char_ne hi).2.1),
    trimEnd_of_notMem (hmem 0x3D fun i hi => (b64Char_ne hi).2.2)]

/-- Bytes are encoded to some text. -/
lemma encode_ne_nil {bytes : List UInt8} (h : bytes ≠ []) : encode bytes ≠ [] := by
  induction bytes using encode.induct with
  | case1 => exact absurd rfl h
  | case2 | case3 | case4 => simp [encode]

/-- Bytes are encoded to a text that counts as present. -/
lemma truthy_encode {bytes : List UInt8} (h : bytes ≠ []) :
    Json.truthy (some (.str (encode bytes))) = true := by
  simpa [Json.truthy] using encode_ne_nil h

/-- No encoding leaves a single character over. -/
lemma length_encode (bytes : List UInt8) : (encode bytes).length % 4 ≠ 1 := by
  induction bytes using encode.induct with
  | case1 | case2 | case3 => simp [encode]
  | case4 a b c bytes ih =>
    simp only [encode, List.length_cons]
    omega

/-! ## The loop -/

/-- A character that leaves less than a byte. -/
lemma decodeLoop_keep {i n bits v : Nat} (hv : v < 64) (hbits : bits + 6 < 8) (s : JsString) :
    decodeLoop i n bits (b64Char v :: s) =
      decodeLoop (i + 1) ((n * 64 + v) % 2 ^ 32) (bits + 6) s := by
  have hor : n <<< 6 ||| v = n * 64 + v := by
    rw [← Nat.shiftLeft_add_eq_or_of_lt hv, Nat.shiftLeft_eq]
  simp only [decodeLoop, b64Lookup_b64Char hv, hor]
  rw [if_neg (by omega)]

/-- A character that completes a byte. -/
lemma decodeLoop_byte {i n bits v : Nat} (hv : v < 64) (hbits : 8 ≤ bits + 6) (s : JsString) :
    decodeLoop i n bits (b64Char v :: s) =
      (decodeLoop (i + 1) ((n * 64 + v) % 2 ^ 32) (bits + 6 - 8) s).map
        (((n * 64 + v) % 2 ^ 32 / 2 ^ (bits + 6 - 8)).toUInt8 :: ·) := by
  have hor : n <<< 6 ||| v = n * 64 + v := by
    rw [← Nat.shiftLeft_add_eq_or_of_lt hv, Nat.shiftLeft_eq]
  simp only [decodeLoop, b64Lookup_b64Char hv, hor]
  rw [if_pos hbits, Nat.shiftRight_eq_div_pow]

/-- A byte keeps the low eight bits. -/
lemma toUInt8_eq {k : Nat} {a : UInt8} (h : k % 256 = a.toNat) : k.toUInt8 = a := by
  apply UInt8.toNat_inj.mp
  rw [← h]
  rfl

/-- Three bytes are joined by their weights. -/
lemma join_three (a b c : UInt8) :
    a.toNat <<< 16 ||| b.toNat <<< 8 ||| c.toNat =
      a.toNat * 65536 + b.toNat * 256 + c.toNat := by
  have hb : b.toNat <<< 8 < 2 ^ 16 := by
    rw [Nat.shiftLeft_eq]
    have := b.toNat_lt
    omega
  have hlow : (a.toNat <<< 16 ||| b.toNat <<< 8) = (a.toNat * 256 + b.toNat) <<< 8 := by
    rw [← Nat.shiftLeft_add_eq_or_of_lt hb, Nat.shiftLeft_eq, Nat.shiftLeft_eq, Nat.shiftLeft_eq]
    omega
  rw [hlow, ← Nat.shiftLeft_add_eq_or_of_lt c.toNat_lt, Nat.shiftLeft_eq]
  omega

/-- Two bytes are joined by their weights. -/
lemma join_two (a b : UInt8) :
    a.toNat <<< 16 ||| b.toNat <<< 8 = a.toNat * 65536 + b.toNat * 256 := by
  simpa using join_three a b 0

/-- The loop reads the first byte off two characters, and keeps four bits. -/
lemma decodeLoop_first (i n v₁ v₂ : Nat) {a : UInt8} (h₁ : v₁ < 64) (h₂ : v₂ < 64)
    (ha : (v₁ * 64 + v₂) / 16 = a.toNat) (s : JsString) :
    ∃ m, m % 16 = v₂ % 16 ∧
      decodeLoop i n 0 (b64Char v₁ :: b64Char v₂ :: s) =
        (decodeLoop (i + 2) m 4 s).map (a :: ·) := by
  refine ⟨((n * 64 + v₁) % 2 ^ 32 * 64 + v₂) % 2 ^ 32, by omega, ?_⟩
  rw [decodeLoop_keep h₁ (by decide), decodeLoop_byte h₂ (by decide), toUInt8_eq (a := a)]
  rw [← ha]
  omega

/-- The third digit of a group completes its second byte. -/
lemma decodeLoop_second (i m v₂ v₃ : Nat) {b : UInt8} (h₃ : v₃ < 64)
    (hm : m % 16 = v₂ % 16) (hb : (v₂ % 16 * 64 + v₃) / 4 = b.toNat) (s : JsString) :
    ∃ k, k % 4 = v₃ % 4 ∧
      decodeLoop i m 4 (b64Char v₃ :: s) = (decodeLoop (i + 1) k 2 s).map (b :: ·) := by
  refine ⟨(m * 64 + v₃) % 2 ^ 32, by omega, ?_⟩
  rw [decodeLoop_byte h₃ (by decide), toUInt8_eq (a := b)]
  rw [← hb]
  omega

/-- The fourth digit of a group completes its third byte. -/
lemma decodeLoop_third (i k v₃ v₄ : Nat) {c : UInt8} (h₄ : v₄ < 64)
    (hk : k % 4 = v₃ % 4) (hc : v₃ % 4 * 64 + v₄ = c.toNat) (s : JsString) :
    ∃ n, decodeLoop i k 2 (b64Char v₄ :: s) = (decodeLoop (i + 1) n 0 s).map (c :: ·) := by
  refine ⟨(k * 64 + v₄) % 2 ^ 32, ?_⟩
  rw [decodeLoop_byte h₄ (by decide), toUInt8_eq (a := c)]
  rw [← hc]
  omega

/-- A character that is neither replaced nor padding is kept. -/
lemma norm_cons {c : CodeUnit} (h : c ≠ 0x2B ∧ c ≠ 0x2F ∧ c ≠ 0x3D) (s : JsString) :
    norm (c :: s) = c :: norm s := by
  have hfirst : replaceAll (c :: s) 0x2B 0x2D = c :: replaceAll s 0x2B 0x2D := by
    simp [replaceAll, h.1]
  have hsecond (t : JsString) : replaceAll (c :: t) 0x2F 0x5F = c :: replaceAll t 0x2F 0x5F := by
    simp [replaceAll, h.2.1]
  rw [norm, hfirst, hsecond, trimEnd_cons h.2.2]
  rfl

/-- The first two characters of a text that decodes are the first byte of it. -/
lemma head_of_decodeText {i j : Nat} {a : UInt8} {s : JsString} {bytes : List UInt8} (hi : i < 64)
    (hj : j < 64) (ha : (i * 64 + j) / 16 = a.toNat)
    (h : decodeText (b64Char i :: b64Char j :: s) = .ok bytes) : bytes.head? = some a := by
  obtain ⟨m, -, hfirst⟩ := decodeLoop_first 0 0 i j hi hj ha (norm s)
  rw [decodeText, norm_cons (b64Char_ne hi), norm_cons (b64Char_ne hj), hfirst] at h
  split at h
  · cases h
  · cases hrest : decodeLoop 2 m 4 (norm s) with
    | error err =>
      rw [hrest] at h
      cases h
    | ok rest =>
      rw [hrest] at h
      cases h
      rfl

/-- The loop reads what the encoder wrote, whatever the accumulator holds. -/
lemma decodeLoop_encode (i n : Nat) (bytes : List UInt8) :
    decodeLoop i n 0 (encode bytes) = .ok bytes := by
  induction bytes using encode.induct generalizing i n with
  | case1 => rfl
  | case2 a =>
    have ha := a.toNat_lt
    simp only [encode, Nat.shiftLeft_eq, Nat.shiftRight_eq_div_pow]
    obtain ⟨m, -, h⟩ := decodeLoop_first i n (a.toNat * 2 ^ 16 / 2 ^ 18 % 64)
      (a.toNat * 2 ^ 16 / 2 ^ 12 % 64) (a := a) (by omega) (by omega) (by omega) []
    rw [h]
    rfl
  | case3 a b =>
    have ha := a.toNat_lt
    have hb := b.toNat_lt
    simp only [encode, join_two, Nat.shiftRight_eq_div_pow]
    generalize hN : a.toNat * 65536 + b.toNat * 256 = N
    obtain ⟨m, hm, h⟩ := decodeLoop_first i n (N / 2 ^ 18 % 64) (N / 2 ^ 12 % 64) (a := a)
      (by omega) (by omega) (by omega) [b64Char (N / 2 ^ 6 % 64)]
    obtain ⟨k, -, h'⟩ := decodeLoop_second (i + 2) m (N / 2 ^ 12 % 64) (N / 2 ^ 6 % 64) (b := b)
      (by omega) hm (by omega) []
    rw [h, h']
    rfl
  | case4 a b c bytes ih =>
    have ha := a.toNat_lt
    have hb := b.toNat_lt
    have hc := c.toNat_lt
    simp only [encode, join_three, Nat.shiftRight_eq_div_pow]
    generalize hN : a.toNat * 65536 + b.toNat * 256 + c.toNat = N
    obtain ⟨m, hm, h⟩ := decodeLoop_first i n (N / 2 ^ 18 % 64) (N / 2 ^ 12 % 64) (a := a)
      (by omega) (by omega) (by omega)
      (b64Char (N / 2 ^ 6 % 64) :: b64Char (N % 64) :: encode bytes)
    obtain ⟨k, hk, h'⟩ := decodeLoop_second (i + 2) m (N / 2 ^ 12 % 64) (N / 2 ^ 6 % 64) (b := b)
      (by omega) hm (by omega) (b64Char (N % 64) :: encode bytes)
    -- no bit is left after four characters, so that the next group starts anew
    obtain ⟨l, h''⟩ := decodeLoop_third (i + 2 + 1) k (N / 2 ^ 6 % 64) (N % 64) (c := c)
      (by omega) hk (by omega) (encode bytes)
    rw [h, h', h'', ih]
    rfl

/-- What is encoded is decoded. -/
lemma decode_encode (bytes : List UInt8) :
    decode (some (.str (encode bytes))) = .ok bytes := by
  simp only [decode, Json.asString, decodeText, norm_encode]
  rw [if_neg (length_encode bytes), decodeLoop_encode]

end VtiDidcomm.Base64url
