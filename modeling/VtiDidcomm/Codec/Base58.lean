import VtiDidcomm.Codec.Multibase
import VtiDidcomm.Data.Alphabet
import VtiDidcomm.Data.Positional

/-!
# base58btc and multikeys

`base58btcEncode` and `base58btcDecode` are the two conversions between base 256 and base 58 of
`Data.Positional`, so that decoding accepts exactly what encoding writes (`base58btcDecode_eq_ok`).
A multikey is cut behind its varint: `decodeMultikey` gives back what `encodeMultikey` joined
wherever the codec is one (`decodeMultikey_encodeMultikey`).
-/

namespace VtiDidcomm.Multibase
open Js Positional

/-! ## The loops over digits -/

/-- One round: the digits of `n` become those of `n * mult + carry`. -/
lemma mulAdd_digits {base mult : Nat} (hb : 1 < base) (hm : 0 < mult) (carry n : Nat) :
    mulAdd base mult carry (Nat.digits base n) = Nat.digits base (n * mult + carry) := by
  induction n using Nat.strong_induction_on generalizing carry with
  | _ n ih =>
    by_cases hn : n = 0
    · subst hn
      simp [mulAdd]
    · rw [Nat.digits_def' hb (Nat.pos_of_ne_zero hn), mulAdd,
        ih _ (Nat.div_lt_self (Nat.pos_of_ne_zero hn) hb), digits_mul_add carry hb hm hn]

/-- All rounds: what is kept is the number that the digits taken in so far write. -/
lemma foldl_mulAdd {base mult : Nat} (hb : 1 < base) (hm : 0 < mult) (ds done : List Nat) :
    ds.foldl (fun kept d => mulAdd base mult d kept)
        (Nat.digits base (Nat.ofDigits mult done.reverse)) =
      Nat.digits base (Nat.ofDigits mult (done ++ ds).reverse) := by
  induction ds generalizing done with
  | nil => simp
  | cons d ds ih =>
    have hstep : Nat.ofDigits mult done.reverse * mult + d =
        Nat.ofDigits mult (done ++ [d]).reverse := by
      rw [List.reverse_append, List.reverse_singleton, List.singleton_append, Nat.ofDigits_cons,
        Nat.mul_comm, Nat.add_comm]
    rw [List.foldl_cons, mulAdd_digits hb hm, hstep, ih, List.append_assoc]
    rfl

/-! ## The alphabet -/

/-- The digits are distinct. -/
lemma nodup_b58 : b58.Nodup := by decide +kernel

/-- There are 58 of them. -/
lemma length_b58 : b58.length = 58 := rfl

/-- A digit is looked up as its value. -/
lemma b58Lookup_b58Char {d : Nat} (h : d < 58) : b58Lookup (b58Char d) = some d := by
  rw [← length_b58] at h
  exact Data.Alphabet.lookup_getD nodup_b58 h

/-- Looking up inverts writing. -/
lemma b58Lookup_eq_some {c : CodeUnit} {d : Nat} :
    b58Lookup c = some d ↔ d < 58 ∧ c = b58Char d := by
  rw [← length_b58]
  exact Data.Alphabet.lookup_eq_some nodup_b58

/-- Different values are written differently. -/
lemma b58Char_inj {d e : Nat} (hd : d < 58) (he : e < 58) : b58Char d = b58Char e ↔ d = e := by
  rw [← length_b58] at hd he
  exact Data.Alphabet.getD_inj nodup_b58 hd he

/-! ## Encoding -/

/-- A map keeps the leading items that pass a test. -/
lemma takeWhile_map_of_forall {α β : Type} {f : α → β} {p : β → Bool} {q : α → Bool} {l : List α}
    (h : ∀ a ∈ l, p (f a) = q a) : (l.map f).takeWhile p = (l.takeWhile q).map f := by
  induction l with
  | nil => rfl
  | cons a l ih =>
    obtain ⟨ha, hl⟩ := List.forall_mem_cons.mp h
    rw [List.map_cons, List.takeWhile_cons, List.takeWhile_cons, ha, ih hl]
    split <;> rfl

/-- Encoding is the conversion from base 256 to base 58. -/
lemma base58btcEncode_eq (bytes : List UInt8) :
    base58btcEncode bytes = (convert 256 58 (bytes.map UInt8.toNat)).map b58Char := by
  let zeros := bytes.takeWhile (· = 0)
  let rest := bytes.drop zeros.length
  have hcut : bytes = zeros ++ rest := (List.prefix_iff_eq_append.mp (List.takeWhile_prefix _)).symm
  have hzeros : (bytes.map UInt8.toNat).takeWhile (· = 0) = zeros.map UInt8.toNat := by
    apply takeWhile_map_of_forall
    intro b _
    simp [← UInt8.toNat_inj]
  -- a leading zero byte is written as the digit zero
  have hmap : zeros.map (fun _ => b58Char 0) = (zeros.map UInt8.toNat).map b58Char := by
    rw [List.map_map]
    apply List.map_congr_left
    intro b hb
    have hb0 : b = 0 := by simpa using List.mem_takeWhile_imp hb
    simp [hb0]
  have hvalue : Nat.ofDigits 256 (bytes.map UInt8.toNat).reverse =
      Nat.ofDigits 256 (rest.map UInt8.toNat).reverse := by
    rw [hcut, List.map_append]
    apply ofDigits_zeros
    rw [← hzeros]
    intro d hd
    simpa using List.mem_takeWhile_imp hd
  have hdigits : rest.foldl (fun ds b => mulAdd 58 256 b.toNat ds) [] =
      Nat.digits 58 (Nat.ofDigits 256 (rest.map UInt8.toNat).reverse) := by
    have h := foldl_mulAdd (by decide : 1 < 58) (by decide : 0 < 256) (rest.map UInt8.toNat) []
    rw [List.foldl_map] at h
    simpa using h
  rw [convert, List.map_append, hzeros, hvalue, ← hdigits, ← hmap]
  rfl

/-! ## Decoding -/

/-- The decoding loop succeeds on digits, and keeps the number they write. -/
lemma decodeLoop_eq_ok {i : Nat} {s : JsString} {done out : List Nat} :
    decodeLoop i (Nat.digits 256 (Nat.ofDigits 58 done.reverse)) s = .ok out ↔
      ∃ ds, s = ds.map b58Char ∧ (∀ d ∈ ds, d < 58) ∧
        out = Nat.digits 256 (Nat.ofDigits 58 (done ++ ds).reverse) := by
  induction s generalizing i done with
  | nil =>
    rw [decodeLoop, Except.ok.injEq]
    constructor
    · intro h
      exact ⟨[], rfl, by simp, by rw [List.append_nil, h]⟩
    · intro ⟨ds, hs, _, hout⟩
      rw [List.map_eq_nil_iff.mp hs.symm, List.append_nil] at hout
      exact hout.symm
  | cons c s ih =>
    have hstep (d : Nat) : mulAdd 256 58 d (Nat.digits 256 (Nat.ofDigits 58 done.reverse)) =
        Nat.digits 256 (Nat.ofDigits 58 (done ++ [d]).reverse) :=
      foldl_mulAdd (by decide) (by decide) [d] done
    rw [decodeLoop]
    cases hc : b58Lookup c with
    | none =>
      simp only [reduceCtorEq, false_iff, not_exists, not_and]
      intro ds hs hlt
      cases ds with
      | nil => cases hs
      | cons d ds =>
        obtain ⟨hcd, -⟩ := List.cons.inj hs
        rw [hcd, b58Lookup_b58Char (hlt d (by simp))] at hc
        cases hc
    | some d =>
      obtain ⟨hd, hcd⟩ := b58Lookup_eq_some.mp hc
      simp only [hstep, ih, List.append_assoc, List.singleton_append]
      constructor
      · intro ⟨ds, hs, hlt, hout⟩
        exact ⟨d :: ds, by rw [hs, hcd]; rfl, List.forall_mem_cons.mpr ⟨hd, hlt⟩, hout⟩
      · intro ⟨ds, hs, hlt, hout⟩
        cases ds with
        | nil => cases hs
        | cons d' ds =>
          obtain ⟨hd', hds⟩ := List.forall_mem_cons.mp hlt
          obtain ⟨hc', hs'⟩ := List.cons.inj hs
          have e : d = d' := (b58Char_inj hd hd').mp (hcd ▸ hc')
          exact ⟨ds, hs', hds, by rw [hout, e]⟩

/-- The text of digits: its ones, and what stands behind them. -/
lemma takeWhile_ones {zs rest : List Nat} (hz : ∀ d ∈ zs, d = 0) (hr : rest.head? ≠ some 0)
    (hlt : ∀ d ∈ rest, d < 58) :
    ((zs ++ rest).map b58Char).takeWhile (· = b58Char 0) = zs.map b58Char := by
  rw [takeWhile_map_of_forall (q := fun d => decide (d = 0)), takeWhile_zeros hz hr]
  intro d hd
  have hd' : d < 58 := by
    cases List.mem_append.mp hd with
    | inl hd => simp [hz d hd]
    | inr hd => exact hlt d hd
  simpa using b58Char_inj hd' (by decide)

/-- Decoding is the conversion from base 58 to base 256, of texts over the alphabet. -/
lemma base58btcDecode_iff {s : JsString} {bytes : List UInt8} :
    base58btcDecode s = .ok bytes ↔
      ∃ ds, s = ds.map b58Char ∧ (∀ d ∈ ds, d < 58) ∧
        bytes = (convert 58 256 ds).map Nat.toUInt8 := by
  have hloop (i : Nat) (s : JsString) (out : List Nat) := @decodeLoop_eq_ok i s [] out
  simp only [List.reverse_nil, Nat.ofDigits_nil, Nat.digits_zero, List.nil_append] at hloop
  -- the zero bytes of the result stand for the ones of the text
  have hbytes {zs rest : List Nat} (hz : ∀ d ∈ zs, d = 0) (hr : rest.head? ≠ some 0)
      (ones : JsString) (hones : ones = zs.map b58Char) :
      ones.map (fun _ => (0 : UInt8)) ++
          (Nat.digits 256 (Nat.ofDigits 58 rest.reverse)).reverse.map (·.toUInt8) =
        (convert 58 256 (zs ++ rest)).map Nat.toUInt8 := by
    have hzero : zs.map Nat.toUInt8 = ones.map (fun _ => (0 : UInt8)) := by
      rw [hones, List.map_map]
      apply List.map_congr_left
      intro d hd
      simp [hz d hd]
    rw [convert_append hz hr, List.map_append, hzero]
  rw [base58btcDecode, bind_eq_ok]
  constructor
  · intro ⟨out, hout, h⟩
    cases h
    let ones := s.takeWhile (· = b58Char 0)
    obtain ⟨ds, hs, hlt, rfl⟩ := (hloop _ _ _).mp hout
    have hall : s = ones ++ ds.map b58Char := by
      rw [← hs]
      exact (List.prefix_iff_eq_append.mp (List.takeWhile_prefix _)).symm
    have hones : ones = (ones.map fun _ => 0).map b58Char := by
      rw [List.map_map]
      conv_lhs => rw [← List.map_id ones]
      apply List.map_congr_left
      intro c hc
      simpa using List.mem_takeWhile_imp hc
    have hz : ∀ d ∈ ones.map fun _ => 0, d = 0 := by simp
    have hr : ds.head? ≠ some 0 := by
      -- a digit zero there would be one more leading one
      intro h0
      obtain ⟨rest, rfl⟩ : ∃ rest, ds = 0 :: rest := by
        cases ds with
        | nil => cases h0
        | cons d rest => exact ⟨rest, by rw [Option.some.inj h0]⟩
      have hmore : ones = ones ++ (b58Char 0 ::
          (rest.map b58Char).takeWhile (· = b58Char 0)) := by
        conv_lhs => rw [show ones = s.takeWhile (· = b58Char 0) from rfl, hall]
        have hpos : ∀ c ∈ ones, decide (c = b58Char 0) = true := fun c hc =>
          List.mem_takeWhile_imp (p := (· = b58Char 0)) hc
        rw [List.takeWhile_append_of_pos hpos, List.map_cons, List.takeWhile_cons_of_pos (by simp)]
      have hlen := congrArg List.length hmore
      simp at hlen
    refine ⟨(ones.map fun _ => 0) ++ ds, ?_, ?_, hbytes hz hr ones hones⟩
    · rw [List.map_append, ← hones, ← hall]
    · intro d hd
      cases List.mem_append.mp hd with
      | inl hd => simp [hz d hd]
      | inr hd => exact hlt d hd
  · intro ⟨ds, hs, hlt, e⟩
    obtain ⟨zs, rest, rfl, hz, hr⟩ := exists_zeros ds
    have hrest : ∀ d ∈ rest, d < 58 := fun d hd => hlt d (List.mem_append_right _ hd)
    have hones := takeWhile_ones hz hr hrest
    refine ⟨_, (hloop _ _ _).mpr ⟨rest, ?_, hrest, rfl⟩, ?_⟩
    · rw [hs, hones, List.map_append, List.drop_left]
    · rw [e, ← hbytes hz hr _ hones, hs]
      rfl

/-! ## Encoding and decoding -/

/-- Decoding accepts exactly what encoding writes. -/
theorem base58btcDecode_eq_ok {s : JsString} {bytes : List UInt8} :
    base58btcDecode s = .ok bytes ↔ s = base58btcEncode bytes := by
  rw [base58btcDecode_iff, base58btcEncode_eq]
  constructor
  · intro ⟨ds, hs, hlt, hbytes⟩
    have h256 : ∀ d ∈ convert 58 256 ds, d < 256 := fun d hd => lt_of_mem_convert (by decide) hd
    rw [hs, hbytes, map_toUInt8_toNat h256, convert_convert (by decide) hlt]
  · intro hs
    refine ⟨_, hs, fun d hd => lt_of_mem_convert (by decide) hd, ?_⟩
    have hlt : ∀ d ∈ bytes.map UInt8.toNat, d < 256 := by
      intro d hd
      obtain ⟨b, -, rfl⟩ := List.mem_map.mp hd
      exact b.toNat_lt
    rw [convert_convert (by decide) hlt, List.map_map]
    conv_lhs => rw [← List.map_id bytes]
    apply List.map_congr_left
    intro b _
    simp

/-- A text is made of digits. -/
lemma mem_b58_of_mem_encode {c : CodeUnit} {bytes : List UInt8} (h : c ∈ base58btcEncode bytes) :
    c ∈ b58 := by
  rw [base58btcEncode_eq] at h
  obtain ⟨d, hd, rfl⟩ := List.mem_map.mp h
  have hlt := lt_of_mem_convert (by decide) hd
  rw [← length_b58] at hlt
  rw [b58Char, List.getD_eq_getElem _ _ hlt]
  exact List.getElem_mem hlt

/-- A text is at most twice as long as its bytes. -/
lemma length_base58btcEncode_le (bytes : List UInt8) :
    (base58btcEncode bytes).length ≤ 2 * bytes.length := by
  have hmap : (bytes.map UInt8.toNat).length = bytes.length := List.length_map _
  rw [base58btcEncode_eq, List.length_map, ← hmap]
  apply length_convert_le (by decide) (by decide) (by decide) (by decide)
  intro d hd
  obtain ⟨b, -, rfl⟩ := List.mem_map.mp hd
  exact b.toNat_lt

/-! ## Multikeys -/

/-- An unsigned varint: the high bit is set in every byte but the last. -/
def IsVarint (codec : List UInt8) : Prop :=
  ∃ more last, codec = more ++ [last] ∧ (∀ b ∈ more, b &&& 0x80 ≠ 0) ∧ last &&& 0x80 = 0

/-- The codec is a part of the bytes. -/
lemma codecLen_le (raw : List UInt8) : codecLen raw ≤ raw.length := by
  induction raw with
  | nil => simp [codecLen]
  | cons b raw ih =>
    rw [codecLen]
    split
    · simp
    · simpa using ih

/-- A varint is cut off where it ends, whatever follows. -/
lemma codecLen_append {codec : List UInt8} (h : IsVarint codec) (key : List UInt8) :
    codecLen (codec ++ key) = codec.length := by
  obtain ⟨more, last, rfl, hmore, hlast⟩ := h
  induction more with
  | nil => simp [codecLen, hlast]
  | cons b more ih =>
    obtain ⟨hb, hmore⟩ := List.forall_mem_cons.mp hmore
    rw [List.cons_append, List.cons_append, codecLen, if_neg hb, ih hmore]
    rfl

/-- What a multikey decodes to: the two parts it was joined from, cut where the scanner stops. -/
lemma decodeMultikey_eq_ok {s : JsString} {m : Multikey} :
    decodeMultikey (some (.str s)) = .ok m ↔
      s = encodeMultikey m.codec m.key ∧ codecLen (m.codec ++ m.key) = m.codec.length := by
  have hz : js "z" = [0x7A] := rfl
  cases s with
  | nil =>
    simp only [decodeMultikey, Json.asString, encodeMultikey, hz, reduceCtorEq,
      List.singleton_append, false_and]
  | cons c rest =>
    simp only [decodeMultikey, Json.asString, encodeMultikey, hz, List.singleton_append,
      List.cons.injEq]
    by_cases hc : c = 0x7A
    · rw [if_pos hc, bind_eq_ok]
      constructor
      · rintro ⟨raw, hraw, h⟩
        cases h
        refine ⟨⟨hc, ?_⟩, ?_⟩
        · rw [List.take_append_drop]
          exact base58btcDecode_eq_ok.mp hraw
        · rw [List.take_append_drop, List.length_take, Nat.min_eq_left (codecLen_le raw)]
      · rintro ⟨⟨_, hrest⟩, hlen⟩
        refine ⟨_, base58btcDecode_eq_ok.mpr hrest, ?_⟩
        rw [hlen, List.take_left, List.drop_left]
        rfl
    · rw [if_neg hc]
      simp [hc]

/-- Decoding gives back the two parts that were joined. -/
lemma decodeMultikey_encodeMultikey {codec : List UInt8} (h : IsVarint codec) (key : List UInt8) :
    decodeMultikey (some (.str (encodeMultikey codec key))) = .ok ⟨codec, key⟩ :=
  decodeMultikey_eq_ok.mpr ⟨rfl, codecLen_append h key⟩

end VtiDidcomm.Multibase
