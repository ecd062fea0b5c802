import VtiDidcomm.Js.Utf8

/-!
# Bytes that survive decoding

`TextDecoder` maps different bytes to one text: it replaces what is not UTF-8, and drops a leading
byte order mark. Encoding the text again gives the bytes back for the others, and for no more
(`textEncode_textDecode_iff`).
-/

namespace Js
open Json

/-- The UTF-8 of scalar values. -/
def IsUtf8 (bytes : List UInt8) : Prop :=
  ∃ ns : List Nat, (∀ n ∈ ns, IsScalar n) ∧ bytes = ns.flatMap utf8

/-- The byte order mark in UTF-8. -/
def markBytes : List UInt8 := [0xEF, 0xBB, 0xBF]

/-- The bytes of a byte order mark. -/
lemma utf8_byteOrderMark : utf8 byteOrderMark = markBytes := by decide

/-! ## Scalar values of code units -/

/-- A unit that is no surrogate is a scalar of its own. -/
lemma scalars_cons {c : CodeUnit} (hc : isSurrogate c = false) (s : JsString) :
    scalars (c :: s) = c.toNat :: scalars s := by
  have hhigh : isHighSurrogate c = false := by
    simp only [isSurrogate, Bool.or_eq_false_iff] at hc
    exact hc.1
  cases s with
  | nil => simp [scalars, unitValue, hc]
  | cons d s => simp [scalars, hhigh, unitValue, hc]

/-- A code unit is the number it was made from. -/
lemma toNat_toUInt16 {n : Nat} (h : n < 0x10000) : n.toUInt16.toNat = n := by
  simp [Nat.mod_eq_of_lt h]

/-- The high surrogates by their numbers. -/
lemma isHighSurrogate_iff {n : Nat} (h : n < 0x10000) :
    isHighSurrogate n.toUInt16 = true ↔ 0xD800 ≤ n ∧ n ≤ 0xDBFF := by
  simp [isHighSurrogate, UInt16.le_iff_toNat_le, Nat.mod_eq_of_lt h]

/-- The low surrogates by their numbers. -/
lemma isLowSurrogate_iff {n : Nat} (h : n < 0x10000) :
    isLowSurrogate n.toUInt16 = true ↔ 0xDC00 ≤ n ∧ n ≤ 0xDFFF := by
  simp [isLowSurrogate, UInt16.le_iff_toNat_le, Nat.mod_eq_of_lt h]

/-- The value of a pair by its numbers. -/
lemma pairValue_toUInt16 {i j : Nat} (hi : i < 0x10000) (hj : j < 0x10000) :
    pairValue i.toUInt16 j.toUInt16 = 0x10000 + (i - 0xD800) * 0x400 + (j - 0xDC00) := by
  unfold pairValue
  rw [toNat_toUInt16 hi, toNat_toUInt16 hj]

/-- The code units of a scalar value are read as it, whatever follows. -/
lemma scalars_codeUnits {n : Nat} (h : IsScalar n) (s : JsString) :
    scalars (codeUnits n ++ s) = n :: scalars s := by
  unfold IsScalar at h
  by_cases hn : n < 0x10000
  · have hunit : isSurrogate n.toUInt16 = false := by
      rw [isSurrogate, Bool.or_eq_false_iff, ← Bool.not_eq_true, ← Bool.not_eq_true,
        isHighSurrogate_iff hn, isLowSurrogate_iff hn]
      omega
    rw [codeUnits, if_pos hn, List.singleton_append, scalars_cons hunit, toNat_toUInt16 hn]
  · -- a pair: ten bits in either half
    have hhigh : 0xD800 + (n - 0x10000) / 0x400 < 0x10000 := by omega
    have hlow : 0xDC00 + (n - 0x10000) % 0x400 < 0x10000 := by omega
    have hpair : (isHighSurrogate (0xD800 + (n - 0x10000) / 0x400).toUInt16 &&
        isLowSurrogate (0xDC00 + (n - 0x10000) % 0x400).toUInt16) = true := by
      rw [Bool.and_eq_true, isHighSurrogate_iff hhigh, isLowSurrogate_iff hlow]
      omega
    have hvalue : pairValue (0xD800 + (n - 0x10000) / 0x400).toUInt16
        (0xDC00 + (n - 0x10000) % 0x400).toUInt16 = n := by
      rw [pairValue_toUInt16 hhigh hlow, Nat.add_sub_cancel_left, Nat.add_sub_cancel_left,
        Nat.add_assoc, Nat.div_add_mod']
      omega
    rw [codeUnits, if_neg hn, List.cons_append, List.singleton_append, scalars, if_pos hpair, hvalue]

/-- Scalars that are written as code units are read back. -/
lemma scalars_flatMap {ns : List Nat} (h : ∀ n ∈ ns, IsScalar n) :
    scalars (ns.flatMap codeUnits) = ns := by
  induction ns with
  | nil => rfl
  | cons n ns ih =>
    obtain ⟨hn, hns⟩ := List.forall_mem_cons.mp h
    rw [List.flatMap_cons, scalars_codeUnits hn, ih hns]

/-! ## Decoding and encoding again -/

/-- What is encoded is UTF-8. -/
lemma isUtf8_textEncode (s : JsString) : IsUtf8 (textEncode s) :=
  ⟨scalars s, isScalar_of_mem_scalars, rfl⟩

/-- The text of scalar values is encoded as they are, up to a leading mark. -/
lemma textEncode_textDecode_flatMap {ns : List Nat} (h : ∀ n ∈ ns, IsScalar n) :
    textEncode (textDecode (ns.flatMap utf8)) = (dropMark ns).flatMap utf8 := by
  have hdrop : ∀ n ∈ dropMark ns, IsScalar n := by
    cases ns with
    | nil => simp [dropMark]
    | cons n ns =>
      obtain ⟨hn, hns⟩ := List.forall_mem_cons.mp h
      rw [dropMark]
      split
      · exact hns
      · exact h
  rw [textEncode, textDecode, decodeScalars_flatMap h, scalars_flatMap hdrop]

/-- Bytes are what their text is encoded as exactly when they are UTF-8 without a leading mark. -/
theorem textEncode_textDecode_iff (bytes : List UInt8) :
    textEncode (textDecode bytes) = bytes ↔ IsUtf8 bytes ∧ ¬ markBytes <+: bytes := by
  have hmark : IsScalar byteOrderMark := .inr ⟨by decide, by decide⟩
  constructor
  · intro h
    obtain ⟨ns, hns, hbytes⟩ : IsUtf8 bytes := h ▸ isUtf8_textEncode _
    refine ⟨⟨ns, hns, hbytes⟩, ?_⟩
    rintro ⟨rest, hrest⟩
    -- the mark is the first scalar value, and decoding drops it
    have hcons : ns = byteOrderMark :: decodeScalars none rest := by
      rw [← decodeScalars_flatMap hns, ← hbytes, ← hrest, ← utf8_byteOrderMark,
        decodeScalars_utf8 hmark]
    have hdropped : (dropMark ns).flatMap utf8 = ns.flatMap utf8 := by
      rw [← textEncode_textDecode_flatMap hns, ← hbytes, h]
    have hrest' : ∀ n ∈ decodeScalars none rest, IsScalar n := by
      intro n hn
      exact hns n (hcons ▸ List.mem_cons_of_mem _ hn)
    rw [hcons, dropMark, if_pos rfl] at hdropped
    have hsame := congrArg (decodeScalars none) hdropped
    rw [decodeScalars_flatMap hrest', decodeScalars_flatMap (List.forall_mem_cons.mpr ⟨hmark, hrest'⟩)]
      at hsame
    have hlength := congrArg List.length hsame
    simp at hlength
  · rintro ⟨⟨ns, hns, hbytes⟩, hnot⟩
    rw [hbytes, textEncode_textDecode_flatMap hns]
    cases ns with
    | nil => rfl
    | cons n ns =>
      have hne : n ≠ byteOrderMark := by
        intro hn
        apply hnot
        rw [hbytes, List.flatMap_cons, hn, utf8_byteOrderMark]
        exact List.prefix_append _ _
      rw [dropMark, if_neg hne]

end Js
