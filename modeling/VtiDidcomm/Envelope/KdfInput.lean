import VtiDidcomm.Data.PrefixFree
import VtiDidcomm.Envelope.Sample
import VtiDidcomm.Envelope.Unpack

/-!
# What a key is derived from

The byte strings that `deriveKey` hashes: `counter || z || OtherInfo` (`kdfInput`). Every field of
OtherInfo but the last is prefix-free, so a text determines all of them, and the length of what is
left tells the three forms of SuppPrivInfo apart: none, a raw tag, and a tag after its length.

The algorithm is hashed as UTF-8, where a lone surrogate is U+FFFD: it is determined as a string
only where it is well-formed.
-/

namespace VtiDidcomm
open Js Data

/-- The text hashed for a counter. -/
def kdfInput (counter : Nat) (z : Bytes) (info : OtherInfo) (keyDataLenBits : Nat) :
    Except JsError Bytes := do
  let supp ← info.supp
  let algInfo ← lengthPrefix (textEncode info.alg)
  let apuInfo ← lengthPrefix info.apu
  let apvInfo ← lengthPrefix info.apv
  let bits ← uint32be keyDataLenBits
  let size ← uint32be counter
  pure (size ++ z ++ (algInfo ++ apuInfo ++ apvInfo ++ bits ++ supp))

/-! ## The derived key -/

/-- The rounds digest inputs with counters of their own. -/
lemma digests_eq_ok {C : Crypto} {z otherInfo : Bytes} {i reps : Nat} {out : Bytes}
    (h : digests C z otherInfo i reps = .ok out) :
    ∃ inputs : List Bytes, inputs.length = reps ∧ out = inputs.flatMap C.sha256 ∧
      ∀ j (hj : j < inputs.length), ∃ size, uint32be (i + j) = .ok size ∧
        inputs[j] = size ++ z ++ otherInfo := by
  induction reps generalizing i out with
  | zero =>
    cases h
    exact ⟨[], rfl, rfl, by simp⟩
  | succ reps ih =>
    obtain ⟨size, hsize, h⟩ := bind_eq_ok.mp h
    obtain ⟨rest, hrest, h⟩ := bind_eq_ok.mp h
    cases h
    obtain ⟨inputs, hlen, rfl, hinputs⟩ := ih hrest
    refine ⟨(size ++ z ++ otherInfo) :: inputs, by simp [hlen], rfl, fun j hj => ?_⟩
    cases j with
    | zero => exact ⟨size, hsize, rfl⟩
    | succ j =>
      have hj' : j < inputs.length := by simpa using hj
      obtain ⟨size', hsize', e⟩ := hinputs j hj'
      refine ⟨size', ?_, e⟩
      rw [← hsize']
      congr 1
      omega

/-- A derived key is cut from the digests of the inputs for the counters from 1 on. -/
lemma deriveKey_eq_ok {C : Crypto} {z : Bytes} {info : OtherInfo} {bits : Nat} {key : Bytes}
    (h : deriveKey C z info bits = .ok key) :
    ∃ inputs : List Bytes, inputs.length = (bits / 8 + hashLen - 1) / hashLen ∧
      key = (inputs.flatMap C.sha256).take (bits / 8) ∧
      ∀ j (hj : j < inputs.length), kdfInput (1 + j) z info bits = .ok inputs[j] := by
  obtain ⟨_, -, h⟩ := bind_eq_ok.mp h
  obtain ⟨_, -, h⟩ := bind_eq_ok.mp h
  obtain ⟨supp, hsupp, h⟩ := bind_eq_ok.mp h
  obtain ⟨algInfo, halg, h⟩ := bind_eq_ok.mp h
  obtain ⟨apuInfo, hapu, h⟩ := bind_eq_ok.mp h
  obtain ⟨apvInfo, hapv, h⟩ := bind_eq_ok.mp h
  obtain ⟨bitsInfo, hbits, h⟩ := bind_eq_ok.mp h
  obtain ⟨out, hout, h⟩ := bind_eq_ok.mp h
  cases h
  obtain ⟨inputs, hlen, rfl, hinputs⟩ := digests_eq_ok hout
  refine ⟨inputs, hlen, rfl, fun j hj => ?_⟩
  obtain ⟨size, hsize, e⟩ := hinputs j hj
  rw [e]
  simp only [kdfInput, hsupp, halg, hapu, hapv, hbits, hsize, ok_bind]
  rfl

/-! ## The fields -/

/-- A number of 32 bits is written as four bytes. -/
lemma uint32be_eq_ok {n : Nat} {out : Bytes} (h : uint32be n = .ok out) :
    n ≤ 0xffffffff ∧
      out = [(n >>> 24).toUInt8, (n >>> 16).toUInt8, (n >>> 8).toUInt8, n.toUInt8] := by
  obtain ⟨_, hn, h⟩ := bind_eq_ok.mp h
  cases h
  exact ⟨require_eq_ok.mp hn, rfl⟩

/-- Numbers of 32 bits are told apart by their four bytes. -/
lemma prefixFree_uint32be : PrefixFree fun n out => uint32be n = .ok out := by
  apply PrefixFree.ofWidth 4
  · intro n out h
    rw [(uint32be_eq_ok h).2]
    rfl
  · intro m n out hm hn
    obtain ⟨hm, rfl⟩ := uint32be_eq_ok hm
    obtain ⟨hn, e⟩ := uint32be_eq_ok hn
    simp only [List.cons.injEq, ← UInt8.toNat_inj, Nat.toUInt8_eq, UInt8.toNat_ofNat',
      Nat.shiftRight_eq_div_pow, and_true] at e
    omega

/-- Bytes behind their length are prefix free. -/
lemma prefixFree_lengthPrefix : PrefixFree fun bytes out => lengthPrefix bytes = .ok out := by
  intro a b x y s t ha hb h
  obtain ⟨m, hm, ha⟩ := bind_eq_ok.mp ha
  obtain ⟨n, hn, hb⟩ := bind_eq_ok.mp hb
  cases ha
  cases hb
  exact prefixFree_uint32be.lengthPrefixed ⟨m, hm, rfl⟩ ⟨n, hn, rfl⟩ h

/-- Well-formed strings are told apart by their UTF-8 bytes. -/
lemma eq_of_textEncode {s t : JsString} (hs : isWellFormed s = true) (ht : isWellFormed t = true)
    (h : textEncode s = textEncode t) : s = t := by
  have hscalars : scalars s = scalars t := by
    rw [← decodeScalars_flatMap (isScalar_of_mem_scalars (s := s)),
      ← decodeScalars_flatMap (isScalar_of_mem_scalars (s := t))]
    exact congrArg (decodeScalars none) h
  rw [← flatMap_codeUnits_scalars hs, ← flatMap_codeUnits_scalars ht, hscalars]

/-- A tag, if there is one, is 32 bytes. -/
def OtherInfo.Tagged (info : OtherInfo) : Prop :=
  ∀ tag, info.suppPrivInfo = some tag → tag.length = tagBytes

/-- The mode a text is in: whether a tag is there, and whether it is raw. -/
def OtherInfo.mode (info : OtherInfo) : Option Bool :=
  info.suppPrivInfo.map fun _ => info.legacyRawSuppPrivInfo

/-- A length takes four bytes. -/
lemma lengthPrefix_length {bytes out : Bytes} (h : lengthPrefix bytes = .ok out) :
    out.length = bytes.length + 4 := by
  obtain ⟨size, hsize, h⟩ := bind_eq_ok.mp h
  cases h
  rw [List.length_append, (uint32be_eq_ok hsize).2]
  simp only [List.length_cons, List.length_nil]
  omega

/-- The three forms of SuppPrivInfo, and the length of each. -/
lemma supp_cases {info : OtherInfo} {x : Bytes} (ht : info.Tagged) (h : info.supp = .ok x) :
    (info.suppPrivInfo = none ∧ info.mode = none ∧ x = []) ∨
    (info.suppPrivInfo = some x ∧ info.mode = some true ∧ x.length = tagBytes) ∨
    ∃ tag, info.suppPrivInfo = some tag ∧ info.mode = some false ∧ lengthPrefix tag = .ok x ∧
      x.length = tagBytes + 4 := by
  unfold OtherInfo.supp at h
  cases hs : info.suppPrivInfo with
  | none =>
    rw [hs] at h
    cases h
    exact .inl ⟨rfl, by simp [OtherInfo.mode, hs], rfl⟩
  | some tag =>
    have hlen := ht tag hs
    rw [hs] at h
    cases hl : info.legacyRawSuppPrivInfo with
    | true =>
      simp only [hl, if_true] at h
      cases h
      exact .inr (.inl ⟨rfl, by simp [OtherInfo.mode, hs, hl], hlen⟩)
    | false =>
      simp only [hl, Bool.false_eq_true, if_false] at h
      refine .inr (.inr ⟨tag, rfl, by simp [OtherInfo.mode, hs, hl], h, ?_⟩)
      rw [lengthPrefix_length h, hlen]

/-- The length of SuppPrivInfo tells its form, and in that form it is the tag. -/
lemma supp_injective {a b : OtherInfo} {x : Bytes} (ha : a.Tagged) (hb : b.Tagged)
    (hx : a.supp = .ok x) (hy : b.supp = .ok x) :
    a.suppPrivInfo = b.suppPrivInfo ∧ a.mode = b.mode := by
  have htag : tagBytes = 32 := rfl
  rcases supp_cases ha hx with ⟨hs, hm, rfl⟩ | ⟨hs, hm, hlen⟩ | ⟨tag, hs, hm, hp, hlen⟩
  · rcases supp_cases hb hy with ⟨hs', hm', -⟩ | ⟨-, -, hlen'⟩ | ⟨-, -, -, -, hlen'⟩
    · exact ⟨by rw [hs, hs'], by rw [hm, hm']⟩
    · simp [htag] at hlen'
    · simp [htag] at hlen'
  · rcases supp_cases hb hy with ⟨-, -, rfl⟩ | ⟨hs', hm', -⟩ | ⟨-, -, -, -, hlen'⟩
    · simp [htag] at hlen
    · exact ⟨by rw [hs, hs'], by rw [hm, hm']⟩
    · omega
  · rcases supp_cases hb hy with ⟨-, -, rfl⟩ | ⟨-, -, hlen'⟩ | ⟨tag', hs', hm', hp', -⟩
    · simp [htag] at hlen
    · omega
    · have htags : tag = tag' := prefixFree_lengthPrefix.injective hp hp'
      exact ⟨by rw [hs, hs', htags], by rw [hm, hm']⟩

/-! ## The whole input -/

/-- What a text that is hashed determines: every component, the algorithm as UTF-8, and the mode. -/
structure SameInput (z z' : Bytes) (info info' : OtherInfo) (bits bits' : Nat) : Prop where
  z : z = z'
  algBytes : textEncode info.alg = textEncode info'.alg
  alg : isWellFormed info.alg = true → isWellFormed info'.alg = true → info.alg = info'.alg
  apu : info.apu = info'.apu
  apv : info.apv = info'.apv
  keyDataLenBits : bits = bits'
  suppPrivInfo : info.suppPrivInfo = info'.suppPrivInfo
  mode : info.mode = info'.mode

/-- An input determines what went into it. -/
lemma kdfInput_injective {counter : Nat} {z z' : Bytes} {info info' : OtherInfo} {bits bits' : Nat}
    {input : Bytes} (hz : z.length = z'.length) (ht : info.Tagged) (ht' : info'.Tagged)
    (h : kdfInput counter z info bits = .ok input)
    (h' : kdfInput counter z' info' bits' = .ok input) : SameInput z z' info info' bits bits' := by
  obtain ⟨supp, hsupp, h⟩ := bind_eq_ok.mp h
  obtain ⟨algInfo, halg, h⟩ := bind_eq_ok.mp h
  obtain ⟨apuInfo, hapu, h⟩ := bind_eq_ok.mp h
  obtain ⟨apvInfo, hapv, h⟩ := bind_eq_ok.mp h
  obtain ⟨bitsInfo, hbits, h⟩ := bind_eq_ok.mp h
  obtain ⟨size, hsize, h⟩ := bind_eq_ok.mp h
  obtain ⟨supp', hsupp', h'⟩ := bind_eq_ok.mp h'
  obtain ⟨algInfo', halg', h'⟩ := bind_eq_ok.mp h'
  obtain ⟨apuInfo', hapu', h'⟩ := bind_eq_ok.mp h'
  obtain ⟨apvInfo', hapv', h'⟩ := bind_eq_ok.mp h'
  obtain ⟨bitsInfo', hbits', h'⟩ := bind_eq_ok.mp h'
  obtain ⟨size', hsize', h'⟩ := bind_eq_ok.mp h'
  cases h
  have e : size' ++ z' ++ (algInfo' ++ apuInfo' ++ apvInfo' ++ bitsInfo' ++ supp') =
      size ++ z ++ (algInfo ++ apuInfo ++ apvInfo ++ bitsInfo ++ supp) := Except.ok.inj h'
  simp only [List.append_assoc] at e
  -- the fields are cut off one after the other; what is left is SuppPrivInfo
  obtain ⟨-, e⟩ := prefixFree_uint32be hsize' hsize e
  obtain ⟨hz', e⟩ := List.append_inj e hz.symm
  obtain ⟨halg, e⟩ := prefixFree_lengthPrefix halg' halg e
  obtain ⟨hapu, e⟩ := prefixFree_lengthPrefix hapu' hapu e
  obtain ⟨hapv, e⟩ := prefixFree_lengthPrefix hapv' hapv e
  obtain ⟨hbits, e⟩ := prefixFree_uint32be hbits' hbits e
  subst e
  obtain ⟨hsupp, hmode⟩ := supp_injective ht ht' hsupp hsupp'
  exact ⟨hz'.symm, halg.symm, fun hw hw' => eq_of_textEncode hw hw' halg.symm, hapu.symm, hapv.symm,
    hbits.symm, hsupp, hmode⟩

/-- A derived key is cut from the digests of its inputs, one for each counter from 1 on. Over
secrets of one length, and with a tag of 32 bytes or none, inputs for the same counter that are
equal have equal components and one mode, the algorithm as UTF-8 and so as a well-formed string. The
input of the legacy derivation is therefore the input of no other derivation in the spec's mode. -/
theorem kdf_inputs_unambiguous :
    (∀ C z info bits key, deriveKey C z info bits = .ok key →
      ∃ inputs : List Bytes, inputs.length = (bits / 8 + hashLen - 1) / hashLen ∧
        key = (inputs.flatMap C.sha256).take (bits / 8) ∧
        ∀ j (hj : j < inputs.length), kdfInput (1 + j) z info bits = .ok inputs[j]) ∧
    (∀ counter z z' info info' bits bits' input, z.length = z'.length → info.Tagged → info'.Tagged →
      kdfInput counter z info bits = .ok input → kdfInput counter z' info' bits' = .ok input →
        SameInput z z' info info' bits bits') ∧
    ∀ counter z z' apu apv tag info' bits bits' input input', z.length = z'.length →
      tag.length = tagBytes → info'.Tagged → info'.legacyRawSuppPrivInfo = false →
      kdfInput counter z (authcryptInfo apu apv tag true) bits = .ok input →
      kdfInput counter z' info' bits' = .ok input' → input ≠ input' := by
  refine ⟨fun C z info bits key => deriveKey_eq_ok, ?_, ?_⟩
  · intro counter z z' info info' bits bits' input
    exact kdfInput_injective
  · intro counter z z' apu apv tag info' bits bits' input input' hz htag ht' hspec h h' e
    subst e
    have ht : (authcryptInfo apu apv tag true).Tagged := by
      intro tag' h
      cases h
      exact htag
    have hmode := (kdfInput_injective hz ht ht' h h').mode
    cases hs : info'.suppPrivInfo with
    | none => simp [OtherInfo.mode, authcryptInfo, hs] at hmode
    | some tag' => simp [OtherInfo.mode, authcryptInfo, hs, hspec] at hmode

/-- A derived key, two equal inputs, and the two modes of one tag. -/
theorem kdf_inputs_unambiguous_example :
    (∃ inputs : List Bytes, inputs.length = 1 ∧ ∀ j (hj : j < inputs.length),
      kdfInput (1 + j) [1, 2] (anoncryptInfo [] []) 256 = .ok inputs[j]) ∧
    SameInput [1, 2] [1, 2] (anoncryptInfo [] []) (anoncryptInfo [] []) 256 256 ∧
    ∃ input input',
      kdfInput 1 [1, 2] (authcryptInfo [3] [4] (List.replicate 32 5) true) 256 = .ok input ∧
      kdfInput 1 [1, 2] (authcryptInfo [3] [4] (List.replicate 32 5) false) 256 = .ok input' ∧
      input ≠ input' := by
  obtain ⟨hkey, hsame, hmodes⟩ := kdf_inputs_unambiguous
  have hanon : (anoncryptInfo [] []).Tagged := by
    intro tag h
    cases h
  have hauth : (authcryptInfo [3] [4] (List.replicate 32 5) false).Tagged := by
    intro tag h
    cases h
    rfl
  obtain ⟨inputs, hlen, -, hinputs⟩ := hkey Crypto.sample [1, 2] (anoncryptInfo [] []) 256 _ rfl
  refine ⟨⟨inputs, hlen, hinputs⟩, ?_, _, _, rfl, rfl, ?_⟩
  · exact hsame 1 _ _ _ _ _ _ _ rfl hanon hanon rfl rfl
  · exact hmodes 1 [1, 2] [1, 2] [3] [4] (List.replicate 32 5) _ 256 256 _ _ rfl rfl hauth rfl rfl rfl

/-- Two algorithms with one input: a lone surrogate is hashed as the replacement character. -/
theorem kdf_inputs_alg_ambiguous :
    ∃ input, kdfInput 1 [1, 2] { alg := [0xD800], apu := [], apv := [] } 256 = .ok input ∧
      kdfInput 1 [1, 2] { alg := [0xFFFD], apu := [], apv := [] } 256 = .ok input ∧
      ([0xD800] : JsString) ≠ [0xFFFD] :=
  ⟨_, rfl, rfl, by decide⟩

end VtiDidcomm
