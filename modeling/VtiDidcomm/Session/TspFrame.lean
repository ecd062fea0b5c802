import VtiDidcomm.Codec.Base64Text
import VtiDidcomm.Session.Frames

/-!
# The two spellings of a TSP frame

`tsp-frame.js` tells a TSP message from a DIDComm one by its count code, in the bytes and in their
base64url text. The byte predicate reads the first byte, as the mediator does at ingress; the text
predicate reads two or three characters, which reach into the third byte and leave out the long form
of Rev 2. `classifiers_agree_iff` says on which bytes the two answers differ.
-/

namespace VtiDidcomm.Session
open Js Base64url

/-- `TSP_MAGIC_BYTE` -/
def tspMagicByte : UInt8 := 0xf8
/-- `TSP_MAGIC_BYTE_LONG` -/
def tspMagicByteLong : UInt8 := 0xfb

/-- `isTspFrameBytes` -/
def isTspFrameBytes (bytes : List UInt8) : Bool :=
  let first := bytes.head?
  first = some tspMagicByte || first = some tspMagicByteLong

/-- `f8 4X`: the count code `-E`. -/
def IsShortFramed (bytes : List UInt8) : Prop :=
  ∃ c rest, bytes = tspMagicByte :: c :: rest ∧ c.toNat / 16 = 4

/-- `fb e1` with two zero bits behind: the count code `--E`. -/
def IsLongFramed (bytes : List UInt8) : Prop :=
  ∃ rest, bytes = tspMagicByteLong :: 0xe1 :: rest ∧ ∀ c, rest.head? = some c → c.toNat < 0x40

/-! ## The count code in the text -/

/-- Different digits are written differently. -/
lemma b64Char_eq_iff {i j : Nat} (hi : i < 64) (hj : j < 64) : b64Char i = b64Char j ↔ i = j := by
  rw [← length_b64Chars] at hi hj
  exact Data.Alphabet.getD_inj nodup_b64Chars hi hj

/-- The two count codes of a TSP frame. -/
lemma isTspFrameText_iff {s : JsString} :
    isTspFrameText s = true ↔
      [b64Char 62, b64Char 62, b64Char 4] <+: s ∨ [b64Char 62, b64Char 4] <+: s := by
  have hlong : js "--E" = [b64Char 62, b64Char 62, b64Char 4] := by decide
  have hshort : js "-E" = [b64Char 62, b64Char 4] := by decide
  simp only [isTspFrameText, List.any_cons, List.any_nil, Bool.or_false, Bool.or_eq_true,
    startsWith_iff, hlong, hshort]

/-! ## The count code in the bytes -/

/-- The first two characters of two bytes or more. -/
lemma short_prefix_iff {a b : UInt8} {d₁ d₂ : Nat} {s : JsString} (h₁ : d₁ = a.toNat / 4)
    (h₂ : d₂ = a.toNat % 4 * 16 + b.toNat / 16) :
    [b64Char 62, b64Char 4] <+: b64Char d₁ :: b64Char d₂ :: s ↔
      a = tspMagicByte ∧ b.toNat / 16 = 4 := by
  have ha := a.toNat_lt
  have hb := b.toNat_lt
  have hmagic : a = tspMagicByte ↔ a.toNat = 0xf8 := UInt8.toNat_inj.symm
  rw [List.cons_prefix_cons, List.cons_prefix_cons, b64Char_eq_iff (by omega) (by omega),
    b64Char_eq_iff (by omega) (by omega), hmagic]
  constructor
  · intro ⟨hd₁, hd₂, _⟩
    omega
  · intro ⟨hd₁, hd₂⟩
    exact ⟨by omega, by omega, List.nil_prefix⟩

/-- The first three characters, with `c` the third byte or the zero that stands for it. -/
lemma long_prefix_iff {a b c : UInt8} {d₁ d₂ d₃ : Nat} {s : JsString} (h₁ : d₁ = a.toNat / 4)
    (h₂ : d₂ = a.toNat % 4 * 16 + b.toNat / 16) (h₃ : d₃ = b.toNat % 16 * 4 + c.toNat / 64) :
    [b64Char 62, b64Char 62, b64Char 4] <+: b64Char d₁ :: b64Char d₂ :: b64Char d₃ :: s ↔
      a = tspMagicByteLong ∧ b = 0xe1 ∧ c.toNat < 0x40 := by
  have ha := a.toNat_lt
  have hb := b.toNat_lt
  have hc := c.toNat_lt
  have hmagic : a = tspMagicByteLong ↔ a.toNat = 0xfb := UInt8.toNat_inj.symm
  have hcount : b = 0xe1 ↔ b.toNat = 0xe1 := UInt8.toNat_inj.symm
  rw [List.cons_prefix_cons, List.cons_prefix_cons, List.cons_prefix_cons,
    b64Char_eq_iff (by omega) (by omega), b64Char_eq_iff (by omega) (by omega),
    b64Char_eq_iff (by omega) (by omega), hmagic, hcount]
  constructor
  · intro ⟨hd₁, hd₂, hd₃, _⟩
    omega
  · intro ⟨hd₁, hd₂, hd₃⟩
    exact ⟨by omega, by omega, by omega, List.nil_prefix⟩

/-- The short form by its first two bytes. -/
lemma isShortFramed_cons {a b : UInt8} {rest : List UInt8} :
    IsShortFramed (a :: b :: rest) ↔ a = tspMagicByte ∧ b.toNat / 16 = 4 := by
  constructor
  · intro ⟨c, rest', e, hc⟩
    cases e
    exact ⟨rfl, hc⟩
  · intro ⟨ha, hb⟩
    exact ⟨b, rest, by rw [ha], hb⟩

/-- The long form by its first three. -/
lemma isLongFramed_cons {a b : UInt8} {rest : List UInt8} :
    IsLongFramed (a :: b :: rest) ↔
      a = tspMagicByteLong ∧ b = 0xe1 ∧ ∀ c, rest.head? = some c → c.toNat < 0x40 := by
  constructor
  · intro ⟨rest', e, hrest⟩
    cases e
    exact ⟨rfl, rfl, hrest⟩
  · intro ⟨ha, hb, hrest⟩
    exact ⟨rest, by rw [ha, hb], hrest⟩

/-- The text predicate on the text of bytes: one of the two framings, whole. -/
lemma isTspFrameText_encode (bytes : List UInt8) :
    isTspFrameText (encode bytes) = true ↔ IsShortFramed bytes ∨ IsLongFramed bytes := by
  rw [isTspFrameText_iff]
  induction bytes using encode.induct with
  | case1 => simp [encode, IsShortFramed, IsLongFramed]
  | case2 a =>
    -- the second character holds two bits only
    have ha := a.toNat_lt
    have hlow : b64Char (a.toNat <<< 16 >>> 12 % 64) ≠ b64Char 4 := by
      intro h
      rw [b64Char_eq_iff (by omega) (by omega), Nat.shiftLeft_eq, Nat.shiftRight_eq_div_pow] at h
      omega
    simp [encode, IsShortFramed, IsLongFramed, hlow.symm]
  | case3 a b =>
    have ha := a.toNat_lt
    have hb := b.toNat_lt
    simp only [encode, join_two, Nat.shiftRight_eq_div_pow]
    rw [or_comm, short_prefix_iff (a := a) (b := b) (by omega) (by omega),
      long_prefix_iff (a := a) (b := b) (c := 0) (by omega) (by omega) (by simp; omega),
      isShortFramed_cons, isLongFramed_cons]
    simp
  | case4 a b c bytes ih =>
    have ha := a.toNat_lt
    have hb := b.toNat_lt
    have hc := c.toNat_lt
    simp only [encode, join_three, Nat.shiftRight_eq_div_pow]
    rw [or_comm, short_prefix_iff (a := a) (b := b) (by omega) (by omega),
      long_prefix_iff (a := a) (b := b) (c := c) (by omega) (by omega) (by omega),
      isShortFramed_cons, isLongFramed_cons]
    simp

/-- The test on the bytes looks at the first one. -/
lemma isTspFrameBytes_iff {bytes : List UInt8} :
    isTspFrameBytes bytes = true ↔
      bytes.head? = some tspMagicByte ∨ bytes.head? = some tspMagicByteLong := by
  simp [isTspFrameBytes]

/-- What the text predicate recognises begins with one of the two bytes. -/
lemma isTspFrameBytes_of_framed {bytes : List UInt8} (h : IsShortFramed bytes ∨ IsLongFramed bytes) :
    isTspFrameBytes bytes = true := by
  rw [isTspFrameBytes_iff]
  cases h with
  | inl h =>
    obtain ⟨c, rest, rfl, -⟩ := h
    exact .inl rfl
  | inr h =>
    obtain ⟨rest, rfl, -⟩ := h
    exact .inr rfl

/-- A frame that the text predicate recognises is recognised by its first byte; the two agree but on
bytes that start like a frame and are in neither of the two framings. -/
theorem classifiers_agree_iff (bytes : List UInt8) :
    (isTspFrameText (encode bytes) = true → isTspFrameBytes bytes = true) ∧
    (isTspFrameBytes bytes = isTspFrameText (encode bytes) ↔
      (bytes.head? ≠ some tspMagicByte ∧ bytes.head? ≠ some tspMagicByteLong) ∨
        IsShortFramed bytes ∨ IsLongFramed bytes) := by
  constructor
  · intro h
    exact isTspFrameBytes_of_framed ((isTspFrameText_encode bytes).mp h)
  · rw [Bool.eq_iff_iff, isTspFrameText_encode, ← not_or, ← isTspFrameBytes_iff]
    constructor
    · intro h
      by_cases hfirst : isTspFrameBytes bytes = true
      · exact .inr (h.mp hfirst)
      · exact .inl hfirst
    · intro h
      cases h with
      | inl hfirst =>
        constructor
        · intro h
          exact absurd h hfirst
        · exact isTspFrameBytes_of_framed
      | inr hframed =>
        constructor
        · intro _
          exact hframed
        · exact isTspFrameBytes_of_framed

/-- The long form of Rev 2 is told apart by its first byte only. -/
theorem classifiers_disagree :
    ¬ ∀ bytes : List UInt8, isTspFrameBytes bytes = isTspFrameText (encode bytes) := by
  intro h
  have hrev2 := h [0xfb, 0x46, 0x40, 0x00, 0x13, 0x88]
  revert hrev2
  decide

end VtiDidcomm.Session
