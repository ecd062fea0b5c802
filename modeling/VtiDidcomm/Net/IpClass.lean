import VtiDidcomm.Net.IpText

/-!
# Which addresses are public

`isBlockedIp` against the networks themselves: an IP literal is not blocked exactly when its value,
32 or 128 bits, lies outside the networks that are not public, an IPv6 address with an embedded IPv4
address being judged by that one.
-/

namespace VtiDidcomm
open Js

/-- Whether an address of `width` bits lies in the network `net`/`len`: its first `len` bits are
those of `net`. -/
def InBlock (width net len addr : Nat) : Prop :=
  addr / 2 ^ (width - len) = net / 2 ^ (width - len)

/-- The value of an IPv4 address outside every network of `V4_BLOCKED`. -/
def IsPublicV4 (n : Nat) : Prop := ∀ block ∈ v4Ranges, ¬ InBlock 32 (v4ToUint block.1) block.2 n

/-- The 128-bit value of eight groups. -/
def groupsValue (groups : List Nat) : Nat := Nat.ofDigits 65536 groups.reverse

/-- Whether an IPv6 address lies in a network, given by its groups. -/
def InBlockV6 (net : List Nat) (len addr : Nat) : Prop := InBlock 128 (groupsValue net) len addr

/-- The networks whose addresses embed an IPv4 address in their last 32 bits: IPv4-compatible,
IPv4-mapped, IPv4-translated and NAT64. -/
def EmbedsV4 (addr : Nat) : Prop :=
  InBlockV6 [0, 0, 0, 0, 0, 0, 0, 0] 96 addr ∨ InBlockV6 [0, 0, 0, 0, 0, 0xffff, 0, 0] 96 addr ∨
    InBlockV6 [0, 0, 0, 0, 0xffff, 0, 0, 0] 96 addr ∨
    InBlockV6 [0x64, 0xff9b, 0, 0, 0, 0, 0, 0] 96 addr

/-- 6to4 addresses, which embed an IPv4 address after their first 16 bits. -/
def IsSixToFour (addr : Nat) : Prop := InBlockV6 [0x2002, 0, 0, 0, 0, 0, 0, 0] 16 addr

/-- The value of an IPv6 address that is public. -/
structure IsPublicV6 (addr : Nat) : Prop where
  embedded : EmbedsV4 addr → IsPublicV4 (addr % 2 ^ 32)
  sixToFour : IsSixToFour addr → IsPublicV4 (addr / 2 ^ 80 % 2 ^ 32)
  global : ¬ EmbedsV4 addr → ¬ IsSixToFour addr →
    InBlockV6 [0x2000, 0, 0, 0, 0, 0, 0, 0] 3 addr ∧
      ¬ InBlockV6 [0x2001, 0, 0, 0, 0, 0, 0, 0] 23 addr ∧
      ¬ InBlockV6 [0x2001, 0xdb8, 0, 0, 0, 0, 0, 0] 32 addr ∧
      ¬ InBlockV6 [0x3fff, 0, 0, 0, 0, 0, 0, 0] 20 addr

/-! ## Values of groups -/

/-- An address that is not blocked is in none of the blocked ranges. -/
lemma v4Blocked_eq_false {n : Nat} : v4Blocked n = false ↔ IsPublicV4 n := by
  simp only [v4Blocked, IsPublicV4, InBlock, List.any_eq_false, decide_eq_true_eq,
    Nat.shiftRight_eq_div_pow]

/-- Eight groups, each of 16 bits. -/
structure IsGroups (g : List Nat) : Prop where
  length : g.length = 8
  lt : ∀ x ∈ g, x < 65536

/-- The groups in front have the higher weight. -/
lemma groupsValue_append (hi lo : List Nat) :
    groupsValue (hi ++ lo) = groupsValue lo + 65536 ^ lo.length * groupsValue hi := by
  rw [groupsValue, List.reverse_append, Nat.ofDigits_append, List.length_reverse]
  rfl

/-- The value of groups is bounded by their number. -/
lemma groupsValue_lt {lo : List Nat} (h : ∀ x ∈ lo, x < 65536) :
    groupsValue lo < 65536 ^ lo.length := by
  have := Nat.ofDigits_lt_base_pow_length (l := lo.reverse) (by decide : 1 < 65536)
    (fun x hx => h x (List.mem_reverse.mp hx))
  rwa [List.length_reverse] at this

/-- The high groups of a value. -/
lemma groupsValue_div {hi lo : List Nat} (h : ∀ x ∈ lo, x < 65536) :
    groupsValue (hi ++ lo) / 65536 ^ lo.length = groupsValue hi := by
  rw [groupsValue_append, Nat.add_mul_div_left _ _ (by positivity),
    Nat.div_eq_of_lt (groupsValue_lt h), Nat.zero_add]

/-- The low groups of a value. -/
lemma groupsValue_mod {hi lo : List Nat} (h : ∀ x ∈ lo, x < 65536) :
    groupsValue (hi ++ lo) % 65536 ^ lo.length = groupsValue lo := by
  rw [groupsValue_append, Nat.add_mul_mod_self_left, Nat.mod_eq_of_lt (groupsValue_lt h)]

/-- Groups of one length are determined by their value. -/
lemma groupsValue_inj {g g' : List Nat} (hlen : g.length = g'.length) (hg : ∀ x ∈ g, x < 65536)
    (hg' : ∀ x ∈ g', x < 65536) : groupsValue g = groupsValue g' ↔ g = g' := by
  constructor
  · intro h
    refine List.reverse_injective (Nat.ofDigits_inj_of_len_eq (by decide : 1 < 65536) ?_ ?_ ?_ h)
    · simpa using hlen
    · exact fun x hx => hg x (List.mem_reverse.mp hx)
    · exact fun x hx => hg' x (List.mem_reverse.mp hx)
  · rintro rfl
    rfl

/-- The weight of the groups behind the first `k`. -/
lemma IsGroups.pow_drop {g : List Nat} (h : IsGroups g) {k : Nat} (hk : k ≤ 8) :
    2 ^ (128 - 16 * k) = 65536 ^ (g.drop k).length := by
  rw [List.length_drop, h.length, show 65536 = 2 ^ 16 from rfl, ← pow_mul]
  congr 1
  omega

/-- The first `k` groups are the high bits. -/
lemma IsGroups.div {g : List Nat} (h : IsGroups g) {k : Nat} (hk : k ≤ 8) :
    groupsValue g / 2 ^ (128 - 16 * k) = groupsValue (g.take k) := by
  have hdiv : groupsValue (g.take k ++ g.drop k) / 65536 ^ (g.drop k).length =
      groupsValue (g.take k) :=
    groupsValue_div fun x hx => h.lt x (List.mem_of_mem_drop hx)
  rwa [List.take_append_drop, ← h.pow_drop hk] at hdiv

/-- The groups behind the first `k` are the low bits. -/
lemma IsGroups.mod {g : List Nat} (h : IsGroups g) {k : Nat} (hk : k ≤ 8) :
    groupsValue g % 2 ^ (128 - 16 * k) = groupsValue (g.drop k) := by
  have hmod : groupsValue (g.take k ++ g.drop k) % 65536 ^ (g.drop k).length =
      groupsValue (g.drop k) :=
    groupsValue_mod fun x hx => h.lt x (List.mem_of_mem_drop hx)
  rwa [List.take_append_drop, ← h.pow_drop hk] at hmod

/-- A network of whole groups is left at its first different group. -/
lemma inBlockV6_iff {g net : List Nat} (hg : IsGroups g) (hn : IsGroups net) {k : Nat} (hk : k ≤ 8) :
    InBlockV6 net (16 * k) (groupsValue g) ↔ g.take k = net.take k := by
  rw [InBlockV6, InBlock, hg.div hk, hn.div hk]
  exact groupsValue_inj (by simp [hg.length, hn.length]) (fun x hx => hg.lt x (List.mem_of_mem_take hx))
    (fun x hx => hn.lt x (List.mem_of_mem_take hx))

/-- Networks that end inside the second group. -/
lemma inBlockV6_top_iff {g net : List Nat} (hg : IsGroups g) (hn : IsGroups net) {len : Nat}
    (hlen : len ≤ 32) :
    InBlockV6 net len (groupsValue g) ↔
      groupsValue (g.take 2) / 2 ^ (32 - len) = groupsValue (net.take 2) / 2 ^ (32 - len) := by
  have hpow : 2 ^ (128 - len) = 2 ^ (128 - 16 * 2) * 2 ^ (32 - len) := by
    rw [← pow_add]
    congr 1
    omega
  rw [InBlockV6, InBlock, hpow, ← Nat.div_div_eq_div_mul, ← Nat.div_div_eq_div_mul,
    hg.div (by decide), hn.div (by decide)]

/-! ## The chain of rules -/

/-- A mask of high bits reads the quotient. -/
lemma land_shiftLeft (x m k : Nat) : x &&& (m <<< k) = (x >>> k &&& m) <<< k := by
  apply Nat.eq_of_testBit_eq
  intro i
  simp only [Nat.testBit_and, Nat.testBit_shiftLeft, Nat.testBit_shiftRight]
  by_cases h : k ≤ i
  · simp [h]
  · simp [h]

/-- The top three bits of a group. -/
lemma land_top3 {x : Nat} (h : x < 65536) : x &&& 0xe000 = 0x2000 ↔ x / 8192 = 1 := by
  have e : x &&& 0xe000 = x / 8192 % 8 * 8192 := by
    rw [show 0xe000 = (2 ^ 3 - 1) <<< 13 from rfl, land_shiftLeft, Nat.and_two_pow_sub_one_eq_mod,
      Nat.shiftRight_eq_div_pow, Nat.shiftLeft_eq]
  omega

/-- The top four bits of a group. -/
lemma land_top4 {x : Nat} (h : x < 65536) : x &&& 0xf000 = 0 ↔ x / 4096 = 0 := by
  have e : x &&& 0xf000 = x / 4096 % 16 * 4096 := by
    rw [show 0xf000 = (2 ^ 4 - 1) <<< 12 from rfl, land_shiftLeft, Nat.and_two_pow_sub_one_eq_mod,
      Nat.shiftRight_eq_div_pow, Nat.shiftLeft_eq]
  omega

/-- The prefixes that an IPv4 address follows. -/
lemma embedsV4_iff {g : List Nat} (hg : IsGroups g) :
    EmbedsV4 (groupsValue g) ↔ g.take 6 = [0, 0, 0, 0, 0, 0] ∨ g.take 6 = [0, 0, 0, 0, 0, 0xffff] ∨
      g.take 6 = [0, 0, 0, 0, 0xffff, 0] ∨ g.take 6 = [0x64, 0xff9b, 0, 0, 0, 0] := by
  unfold EmbedsV4
  rw [show 96 = 16 * 6 from rfl, inBlockV6_iff (k := 6) hg ⟨rfl, by decide⟩ (by decide),
    inBlockV6_iff (k := 6) hg ⟨rfl, by decide⟩ (by decide),
    inBlockV6_iff (k := 6) hg ⟨rfl, by decide⟩ (by decide),
    inBlockV6_iff (k := 6) hg ⟨rfl, by decide⟩ (by decide)]
  rfl

/-- The prefix of 6to4. -/
lemma isSixToFour_iff {g : List Nat} (hg : IsGroups g) :
    IsSixToFour (groupsValue g) ↔ g.take 1 = [0x2002] := by
  unfold IsSixToFour
  rw [show 16 = 16 * 1 from rfl, inBlockV6_iff (k := 1) hg ⟨rfl, by decide⟩ (by decide)]
  rfl

/-- An address with an embedded IPv4 address in its last 32 bits is judged by it. -/
lemma isPublicV6_of_embedsV4 {g : List Nat} (hg : IsGroups g) (h : EmbedsV4 (groupsValue g)) :
    IsPublicV6 (groupsValue g) ↔ IsPublicV4 (groupsValue (g.drop 6)) := by
  have hmod : groupsValue g % 2 ^ 32 = groupsValue (g.drop 6) := hg.mod (k := 6) (by decide)
  have hsix : ¬ IsSixToFour (groupsValue g) := by
    rw [isSixToFour_iff hg]
    intro h1
    have htake : g.take 1 = (g.take 6).take 1 := by rw [List.take_take]; rfl
    rcases (embedsV4_iff hg).mp h with e | e | e | e <;> simp [htake, e] at h1
  constructor
  · intro hpub
    exact hmod ▸ hpub.embedded h
  · intro hpub
    exact ⟨fun _ => hmod ▸ hpub, fun h6 => absurd h6 hsix, fun hn => absurd h hn⟩

/-- A 6to4 address is judged by the IPv4 address after its first group. -/
lemma isPublicV6_of_sixToFour {g : List Nat} (hg : IsGroups g) (hn : ¬ EmbedsV4 (groupsValue g))
    (h : IsSixToFour (groupsValue g)) :
    IsPublicV6 (groupsValue g) ↔ IsPublicV4 (groupsValue ((g.take 3).drop 1)) := by
  have hmod : groupsValue g / 2 ^ 80 % 2 ^ 32 = groupsValue ((g.take 3).drop 1) := by
    have hdiv : groupsValue g / 2 ^ 80 = groupsValue (g.take 3) := hg.div (k := 3) (by decide)
    have hlt : ∀ x ∈ (g.take 3).drop 1, x < 65536 := fun x hx =>
      hg.lt x (List.mem_of_mem_take (List.mem_of_mem_drop hx))
    have hlen : ((g.take 3).drop 1).length = 2 := by simp [hg.length]
    have hmod : groupsValue ((g.take 3).take 1 ++ (g.take 3).drop 1) %
        65536 ^ ((g.take 3).drop 1).length = groupsValue ((g.take 3).drop 1) :=
      groupsValue_mod hlt
    rw [List.take_append_drop, hlen] at hmod
    rw [hdiv]
    exact hmod
  constructor
  · intro hpub
    exact hmod ▸ hpub.sixToFour h
  · intro hpub
    exact ⟨fun he => absurd he hn, fun _ => hmod ▸ hpub, fun _ h6 => absurd h h6⟩

/-- The rules on eight groups. -/
lemma v6Blocked_eight (a b c d e f x y : Nat) : v6Blocked [a, b, c, d, e, f, x, y] =
    if a = 0 ∧ b = 0 ∧ c = 0 ∧ d = 0 ∧ e = 0 ∧ f = 0 then v4Blocked (x * 65536 + y)
    else if a = 0 ∧ b = 0 ∧ c = 0 ∧ d = 0 ∧ e = 0 ∧ f = 0xffff then v4Blocked (x * 65536 + y)
    else if a = 0 ∧ b = 0 ∧ c = 0 ∧ d = 0 ∧ e = 0xffff ∧ f = 0 then v4Blocked (x * 65536 + y)
    else if a = 0x64 ∧ b = 0xff9b ∧ c = 0 ∧ d = 0 ∧ e = 0 ∧ f = 0 then v4Blocked (x * 65536 + y)
    else if a = 0x64 ∧ b = 0xff9b ∧ c = 1 then true
    else if a = 0x2002 then v4Blocked (b * 65536 + c)
    else if a = 0x2001 ∧ b < 0x200 then true
    else if a = 0x2001 ∧ b = 0xdb8 then true
    else if a = 0x3fff ∧ b &&& 0xf000 = 0 then true
    else a &&& 0xe000 != 0x2000 := by
  simp [v6Blocked, and_assoc]

/-- The value of two groups. -/
lemma groupsValue_two (p q : Nat) : groupsValue [p, q] = p * 65536 + q := by
  simp only [groupsValue, List.reverse_cons, List.reverse_nil, List.nil_append, List.cons_append,
    Nat.ofDigits, Nat.cast_id]
  omega

section
variable {a b c d e f x y : Nat} (hg : IsGroups [a, b, c, d, e, f, x, y])
include hg

/-- The first four rules judge an address by its last 32 bits. -/
lemma v6Blocked_of_embedsV4 (h : EmbedsV4 (groupsValue [a, b, c, d, e, f, x, y])) :
    v6Blocked [a, b, c, d, e, f, x, y] = v4Blocked (groupsValue [x, y]) := by
  rw [groupsValue_two, v6Blocked_eight]
  rcases (embedsV4_iff hg).mp h with h | h | h | h
  all_goals
    simp only [List.take, List.cons.injEq, and_true] at h
    obtain ⟨rfl, rfl, rfl, rfl, rfl, rfl⟩ := h
    simp

/-- 6to4 has one rule, and none before it applies. -/
lemma v6Blocked_of_sixToFour (h : IsSixToFour (groupsValue [a, b, c, d, e, f, x, y])) :
    v6Blocked [a, b, c, d, e, f, x, y] = v4Blocked (groupsValue [b, c]) := by
  have ha := (isSixToFour_iff hg).mp h
  simp only [List.take, List.cons.injEq, and_true] at ha
  rw [groupsValue_two, v6Blocked_eight, ha]
  simp

/-- Without an IPv4 address inside, the prefix decides. -/
lemma v6Blocked_of_noV4 (hE : ¬ EmbedsV4 (groupsValue [a, b, c, d, e, f, x, y]))
    (hS : ¬ IsSixToFour (groupsValue [a, b, c, d, e, f, x, y])) :
    v6Blocked [a, b, c, d, e, f, x, y] = false ↔
      ¬ (a = 0x64 ∧ b = 0xff9b ∧ c = 1) ∧ ¬ (a = 0x2001 ∧ b < 0x200) ∧
        ¬ (a = 0x2001 ∧ b = 0xdb8) ∧ ¬ (a = 0x3fff ∧ b / 4096 = 0) ∧ a / 8192 = 1 := by
  have hE' := (embedsV4_iff hg).not.mp hE
  have hS' := (isSixToFour_iff hg).not.mp hS
  simp only [List.take, List.cons.injEq, and_true, not_or] at hE' hS'
  rw [v6Blocked_eight, if_neg hE'.1, if_neg hE'.2.1, if_neg hE'.2.2.1, if_neg hE'.2.2.2,
    ← land_top3 (hg.lt a (by simp)), ← land_top4 (hg.lt b (by simp)), if_neg hS']
  split_ifs <;> simp_all

/-- The networks that end inside the second group, on the first two groups. -/
lemma isPublicV6_of_noV4 (hE : ¬ EmbedsV4 (groupsValue [a, b, c, d, e, f, x, y]))
    (hS : ¬ IsSixToFour (groupsValue [a, b, c, d, e, f, x, y])) :
    IsPublicV6 (groupsValue [a, b, c, d, e, f, x, y]) ↔
      (a * 65536 + b) / 2 ^ 29 = 1 ∧ (a * 65536 + b) / 2 ^ 9 ≠ 0x2001 * 2 ^ 7 ∧
        a * 65536 + b ≠ 0x20010db8 ∧ (a * 65536 + b) / 2 ^ 12 ≠ 0x3fff * 2 ^ 4 := by
  have htop (p q len : Nat) (hp : p < 65536) (hq : q < 65536) (hlen : len ≤ 32) :
      InBlockV6 [p, q, 0, 0, 0, 0, 0, 0] len (groupsValue [a, b, c, d, e, f, x, y]) ↔
        (a * 65536 + b) / 2 ^ (32 - len) = (p * 65536 + q) / 2 ^ (32 - len) := by
    have hnet : IsGroups [p, q, 0, 0, 0, 0, 0, 0] := ⟨rfl, by simp [hp, hq]⟩
    rw [inBlockV6_top_iff hg hnet hlen, ← groupsValue_two, ← groupsValue_two]
    rfl
  have hfields : IsPublicV6 (groupsValue [a, b, c, d, e, f, x, y]) ↔ _ :=
    ⟨fun h => h.global hE hS, fun h => ⟨fun h' => absurd h' hE, fun h' => absurd h' hS,
      fun _ _ => h⟩⟩
  rw [hfields, htop 0x2000 0 3 (by decide) (by decide) (by decide),
    htop 0x2001 0 23 (by decide) (by decide) (by decide),
    htop 0x2001 0xdb8 32 (by decide) (by decide) (by decide),
    htop 0x3fff 0 20 (by decide) (by decide) (by decide)]
  norm_num
end

/-- The rules decide as the networks do. -/
lemma v6Blocked_eq_false {g : List Nat} (hg : IsGroups g) :
    v6Blocked g = false ↔ IsPublicV6 (groupsValue g) := by
  obtain ⟨hlen, hlt⟩ := id hg
  match g, hlen with
  | [a, b, c, d, e, f, x, y], _ =>
    by_cases hE : EmbedsV4 (groupsValue [a, b, c, d, e, f, x, y])
    · rw [isPublicV6_of_embedsV4 hg hE, ← v4Blocked_eq_false, v6Blocked_of_embedsV4 hg hE]
      rfl
    by_cases hS : IsSixToFour (groupsValue [a, b, c, d, e, f, x, y])
    · rw [isPublicV6_of_sixToFour hg hE hS, ← v4Blocked_eq_false, v6Blocked_of_sixToFour hg hS]
      rfl
    · rw [v6Blocked_of_noV4 hg hE hS, isPublicV6_of_noV4 hg hE hS]
      have ha := hlt a (by simp)
      have hb := hlt b (by simp)
      omega

/-! ## Literals and their values -/

/-- A dotted quad of value `n`. -/
def IsV4Literal (s : JsString) (n : Nat) : Prop :=
  ∃ a b c d, IsDottedQuad s a b c d ∧ n = a * 2 ^ 24 + b * 2 ^ 16 + c * 2 ^ 8 + d

/-- An IPv6 text of value `v`, brackets optional. -/
def IsV6Literal (s : JsString) (v : Nat) : Prop :=
  ∃ t g, (s = t ∨ s = js "[" ++ t ++ js "]") ∧ IsIpv6Text t g ∧ v = groupsValue g

/-- A hexadecimal digit is below 16. -/
lemma hexDigitValue_lt {c : CodeUnit} {d : Nat} (h : hexDigitValue c = some d) : d < 16 := by
  unfold hexDigitValue isDigit at h
  split at h
  · rename_i hc
    simp only [Bool.and_eq_true, decide_eq_true_eq, UInt16.le_iff_toNat_le] at hc
    simp only [UInt16.reduceToNat] at hc
    cases h
    omega
  split at h
  · rename_i hc
    simp only [Bool.and_eq_true, decide_eq_true_eq, UInt16.le_iff_toNat_le] at hc
    simp only [UInt16.reduceToNat] at hc
    cases h
    omega
  split at h
  · rename_i hc
    simp only [Bool.and_eq_true, decide_eq_true_eq, UInt16.le_iff_toNat_le] at hc
    simp only [UInt16.reduceToNat] at hc
    cases h
    omega
  · cases h

/-- A group has 16 bits. -/
lemma IsHexGroup.lt {piece : JsString} {n : Nat} (h : IsHexGroup piece n) : n < 65536 := by
  obtain ⟨ds, hds, rfl⟩ := h.value
  have hlen : ds.length = piece.length := by
    have := congrArg List.length hds
    simpa using this.symm
  have hlt : ∀ d ∈ ds, d < 16 := by
    intro d hd
    have hmem : some d ∈ ds.map some := List.mem_map_of_mem hd
    rw [← hds] at hmem
    obtain ⟨c, -, hc⟩ := List.mem_map.mp hmem
    exact hexDigitValue_lt hc
  calc Nat.ofDigits 16 ds.reverse
      < 16 ^ ds.reverse.length := Nat.ofDigits_lt_base_pow_length (by decide)
        fun d hd => hlt d (List.mem_reverse.mp hd)
    _ ≤ 16 ^ 4 := Nat.pow_le_pow_right (by decide) (by rw [List.length_reverse, hlen]; exact h.short)

/-- The groups of a sequence have 16 bits. -/
lemma GroupSeq.lt {quad : Bool} {s : JsString} {groups : List Nat} (h : GroupSeq quad s groups) :
    ∀ x ∈ groups, x < 65536 := by
  induction h with
  | last hp => simpa using hp.lt
  | dotted hq =>
    have h1 := hq.lt_a
    have h2 := hq.lt_b
    have h3 := hq.lt_c
    have h4 := hq.lt_d
    intro x hx
    simp only [List.mem_cons, List.not_mem_nil, or_false] at hx
    omega
  | cons hp _ ih =>
    intro x hx
    rcases List.mem_cons.mp hx with rfl | hx
    · exact hp.lt
    · exact ih x hx

/-- The groups on one side of a gap have 16 bits. -/
lemma GroupSide.lt {quad : Bool} {s : JsString} {groups : List Nat} (h : GroupSide quad s groups) :
    ∀ x ∈ groups, x < 65536 := by
  rcases h with ⟨-, rfl⟩ | h
  · exact fun x hx => absurd hx List.not_mem_nil
  · exact h.lt

/-- An address is read as eight groups of 16 bits. -/
lemma IsIpv6Text.isGroups {s : JsString} {g : List Nat} (h : IsIpv6Text s g) : IsGroups g := by
  cases h with
  | full hseq hlen => exact ⟨hlen, hseq.lt⟩
  | gap hl hr hlen =>
    refine ⟨by simp; omega, ?_⟩
    intro x hx
    simp only [List.mem_append, List.mem_replicate] at hx
    rcases hx with (hx | ⟨-, rfl⟩) | hx
    · exact hl.lt x hx
    · decide
    · exact hr.lt x hx

/-- An address without brackets has none to take off. -/
lemma IsIpv6Text.unbracket_eq {s : JsString} {g : List Nat} (h : IsIpv6Text s g) :
    unbracket s = s := by
  rw [unbracket, if_neg]
  intro hb
  obtain ⟨t, rfl⟩ := startsWith_iff.mp (Bool.and_eq_true_iff.mp hb).1
  have hp := parse_of_isIpv6Text h
  rw [parseIpv6Text, if_pos] at hp
  · cases hp
  · simp only [Bool.or_eq_true, Bool.not_eq_true', List.all_append]
    exact .inr (Bool.and_eq_false_iff.mpr (.inl (by decide)))

/-- Brackets are taken off. -/
lemma unbracket_brackets (t : JsString) : unbracket (js "[" ++ t ++ js "]") = t := by
  rw [unbracket, if_pos]
  · rw [List.append_assoc, show 1 = (js "[").length from rfl, sliceFrom_append]
    exact List.dropLast_concat
  · rw [Bool.and_eq_true]
    constructor
    · rw [List.append_assoc]
      exact startsWith_append _ _
    · exact List.isSuffixOf_iff_suffix.mpr (List.suffix_append _ _)

/-- A text is what is left of it, or that in brackets. -/
lemma brackets_unbracket (s : JsString) :
    s = unbracket s ∨ s = js "[" ++ unbracket s ++ js "]" := by
  unfold unbracket
  split
  · rename_i hb
    simp only [Bool.and_eq_true] at hb
    right
    obtain ⟨t, rfl⟩ := startsWith_iff.mp hb.1
    rw [show 1 = (js "[").length from rfl, sliceFrom_append]
    cases t with
    | nil => exact absurd hb.2 (by decide)
    | cons c t =>
      have hsuf : js "]" <:+ c :: t := List.suffix_of_suffix_length_le
        (List.isSuffixOf_iff_suffix.mp hb.2) (List.suffix_append _ _)
        (Nat.succ_le_succ (Nat.zero_le _))
      obtain ⟨t', ht'⟩ := hsuf
      rw [← ht', show js "]" = [0x5D] from rfl, List.dropLast_concat, List.append_assoc]
  · exact .inl rfl

/-- The IPv6 texts that are read, brackets optional. -/
lemma parseIpv6_eq_some_iff {s : JsString} {g : List Nat} :
    parseIpv6 s = some g ↔ ∃ t, (s = t ∨ s = js "[" ++ t ++ js "]") ∧ IsIpv6Text t g := by
  rw [parseIpv6_eq_some]
  constructor
  · exact fun h => ⟨_, brackets_unbracket s, h⟩
  · rintro ⟨t, rfl | rfl, h⟩
    · rwa [h.unbracket_eq]
    · rwa [unbracket_brackets]

/-- The value of four octets. -/
lemma v4ToUint_four (a b c d : Nat) :
    v4ToUint [a, b, c, d] = a * 2 ^ 24 + b * 2 ^ 16 + c * 2 ^ 8 + d := by
  simp only [v4ToUint, List.foldl_cons, List.foldl_nil]
  omega

/-- An IPv4 literal is blocked unless its address is public. -/
lemma isBlockedIp_of_v4 {s : JsString} {n : Nat} (h : IsV4Literal s n) :
    isBlockedIp s = false ↔ IsPublicV4 n := by
  obtain ⟨a, b, c, d, hq, rfl⟩ := h
  rw [isBlockedIp, parseIpv4_eq_some.mpr ⟨a, b, c, d, rfl, hq⟩]
  dsimp only
  rw [v4Blocked_eq_false, v4ToUint_four]

/-- An IPv6 text is no IPv4 text. -/
lemma parseIpv4_of_v6 {s : JsString} {g : List Nat} (h : parseIpv6 s = some g) :
    parseIpv4 s = none := by
  rw [Option.eq_none_iff_forall_ne_some]
  intro v4 hv4
  obtain ⟨a, b, c, d, -, hq⟩ := parseIpv4_eq_some.mp hv4
  rw [parseIpv6_of_noColon hq.chars.2.1] at h
  cases h

/-- An IPv6 literal is blocked unless its address is public. -/
lemma isBlockedIp_of_v6 {s : JsString} {v : Nat} (h : IsV6Literal s v) :
    isBlockedIp s = false ↔ IsPublicV6 v := by
  obtain ⟨t, g, hs, ht, rfl⟩ := h
  have hp := parseIpv6_eq_some_iff.mpr ⟨t, hs, ht⟩
  rw [isBlockedIp, parseIpv4_of_v6 hp, hp]
  exact v6Blocked_eq_false ht.isGroups

/-- What is not blocked is a literal. -/
lemma literal_of_not_blocked {s : JsString} (h : isBlockedIp s = false) :
    (∃ n, IsV4Literal s n) ∨ ∃ v, IsV6Literal s v := by
  unfold isBlockedIp at h
  split at h
  · rename_i v4 hv4
    obtain ⟨a, b, c, d, -, hq⟩ := parseIpv4_eq_some.mp hv4
    exact .inl ⟨_, a, b, c, d, hq, rfl⟩
  split at h
  · rename_i v6 hv6
    obtain ⟨t, hs, ht⟩ := parseIpv6_eq_some_iff.mp hv6
    exact .inr ⟨_, t, v6, hs, ht, rfl⟩
  · cases h

/-- IP classification is exact and fails closed: what is not blocked is a literal of a public
address, and all spellings of one address get one answer. -/
theorem isBlockedIp_exact :
    (∀ s, isBlockedIp s = false ↔
      (∃ n, IsV4Literal s n ∧ IsPublicV4 n) ∨ ∃ v, IsV6Literal s v ∧ IsPublicV6 v) ∧
    (∀ s s' n, IsV4Literal s n → IsV4Literal s' n → isBlockedIp s = isBlockedIp s') ∧
    (∀ s s' v, IsV6Literal s v → IsV6Literal s' v → isBlockedIp s = isBlockedIp s') := by
  refine ⟨?_, ?_, ?_⟩
  · intro s
    constructor
    · intro h
      rcases literal_of_not_blocked h with ⟨n, hn⟩ | ⟨v, hv⟩
      · exact .inl ⟨n, hn, (isBlockedIp_of_v4 hn).mp h⟩
      · exact .inr ⟨v, hv, (isBlockedIp_of_v6 hv).mp h⟩
    · rintro (⟨n, hn, hpub⟩ | ⟨v, hv, hpub⟩)
      · exact (isBlockedIp_of_v4 hn).mpr hpub
      · exact (isBlockedIp_of_v6 hv).mpr hpub
  · intro s s' n hs hs'
    have h := (isBlockedIp_of_v4 hs).trans (isBlockedIp_of_v4 hs').symm
    rwa [← Bool.not_eq_true, ← Bool.not_eq_true, not_iff_not, ← Bool.eq_iff_iff] at h
  · intro s s' v hs hs'
    have h := (isBlockedIp_of_v6 hs).trans (isBlockedIp_of_v6 hs').symm
    rwa [← Bool.not_eq_true, ← Bool.not_eq_true, not_iff_not, ← Bool.eq_iff_iff] at h

theorem isBlockedIp_exact_example :
    ((∃ n, IsV4Literal (js "8.8.8.8") n ∧ IsPublicV4 n) ∨
      ∃ v, IsV6Literal (js "8.8.8.8") v ∧ IsPublicV6 v) ∧
      isBlockedIp (js "[::FFFF:a9fe:a9fe]") = isBlockedIp (js "::ffff:169.254.169.254") := by
  obtain ⟨hpublic, -, hv6⟩ := isBlockedIp_exact
  constructor
  · exact (hpublic (js "8.8.8.8")).mp (by decide)
  · obtain ⟨t, hs, ht⟩ := parseIpv6_eq_some_iff.mp (show parseIpv6 (js "[::FFFF:a9fe:a9fe]")
      = some [0, 0, 0, 0, 0, 0xffff, 0xa9fe, 0xa9fe] by decide)
    obtain ⟨t', hs', ht'⟩ := parseIpv6_eq_some_iff.mp (show parseIpv6 (js "::ffff:169.254.169.254")
      = some [0, 0, 0, 0, 0, 0xffff, 0xa9fe, 0xa9fe] by decide)
    exact hv6 _ _ _ ⟨t, _, hs, ht, rfl⟩ ⟨t', _, hs', ht', rfl⟩

end VtiDidcomm
