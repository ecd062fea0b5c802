import VtiDidcomm.Net.Ip
import Mathlib.Data.Nat.Digits.Defs

/-!
# The text forms of IP addresses

The grammar of the literals `net-guard.js` accepts, and that its parsers accept exactly that:
`IsDottedQuad` for `parseIpv4`, and for `parseIpv6` the RFC 4291 forms (`IsIpv6Text`), which are
eight groups, or fewer around one `::`, the last two perhaps written as a dotted quad.
-/

namespace VtiDidcomm
open Js

/-! ## The grammar -/

/-- Four decimal octets without leading zeros. -/
structure IsDottedQuad (s : JsString) (a b c d : Nat) : Prop where
  eq : s = natText a ++ dot :: (natText b ++ dot :: (natText c ++ dot :: natText d))
  lt_a : a < 256
  lt_b : b < 256
  lt_c : c < 256
  lt_d : d < 256

/-- One to four hexadecimal digits of value `n`. -/
structure IsHexGroup (piece : JsString) (n : Nat) : Prop where
  nonempty : piece ≠ []
  short : piece.length ≤ 4
  value : ∃ digits : List Nat, piece.map hexDigitValue = digits.map some ∧
    n = Nat.ofDigits 16 digits.reverse

/-- Groups between colons. With `quad`, a dotted quad may stand for the last two. -/
inductive GroupSeq : (quad : Bool) → JsString → List Nat → Prop where
  | last {quad piece n} : IsHexGroup piece n → GroupSeq quad piece [n]
  | dotted {piece a b c d} : IsDottedQuad piece a b c d →
      GroupSeq true piece [256 * a + b, 256 * c + d]
  | cons {quad piece n rest groups} : IsHexGroup piece n → GroupSeq quad rest groups →
      GroupSeq quad (piece ++ colon :: rest) (n :: groups)

/-- What may stand on one side of `::`: groups, or nothing. -/
def GroupSide (quad : Bool) (s : JsString) (groups : List Nat) : Prop :=
  (s = [] ∧ groups = []) ∨ GroupSeq quad s groups

/-- The text forms of an IPv6 address of eight groups. -/
inductive IsIpv6Text : JsString → List Nat → Prop where
  | full {s groups} : GroupSeq true s groups → groups.length = 8 → IsIpv6Text s groups
  | gap {left right l r} : GroupSide false left l → GroupSide true right r →
      l.length + r.length < 8 →
      IsIpv6Text (left ++ js "::" ++ right) (l ++ List.replicate (8 - l.length - r.length) 0 ++ r)

/-! ## Dotted quads -/

/-- The code unit of a decimal digit. -/
def digitUnit (d : Nat) : CodeUnit := (0x30 + d).toUInt16

/-- The digits are those of the numbers below 10. -/
lemma exists_digitUnit {c : CodeUnit} (h : isDigit c = true) : ∃ d < 10, c = digitUnit d := by
  simp only [isDigit, Bool.and_eq_true, decide_eq_true_eq, UInt16.le_iff_toNat_le] at h
  simp only [UInt16.reduceToNat] at h
  refine ⟨c.toNat - 0x30, by omega, ?_⟩
  rw [digitUnit, Nat.add_sub_cancel' h.1]
  simp

/-- A byte is read as it is printed. -/
lemma octet_natText : ∀ n < 256, octet (natText n) = some n := by decide +kernel

/-- An octet of one digit is printed as it is read. -/
lemma natText_of_octet_one : ∀ a < 10,
    (octet [digitUnit a]).all fun n => natText n = [digitUnit a] := by decide +kernel

/-- An octet of two digits is printed as it is read. -/
lemma natText_of_octet_two : ∀ a < 10, ∀ b < 10,
    (octet [digitUnit a, digitUnit b]).all fun n => natText n = [digitUnit a, digitUnit b] := by
  decide +kernel

/-- An octet of three digits is printed as it is read. -/
lemma natText_of_octet_three : ∀ a < 10, ∀ b < 10, ∀ c < 10,
    (octet [digitUnit a, digitUnit b, digitUnit c]).all fun n =>
      natText n = [digitUnit a, digitUnit b, digitUnit c] := by
  decide +kernel

/-- An octet is the decimal text of a number below 256. -/
lemma octet_eq_some {m : JsString} {n : Nat} : octet m = some n ↔ n < 256 ∧ m = natText n := by
  constructor
  · intro h
    have hguard := h
    unfold octet at hguard
    split at hguard
    · cases hguard
    rename_i hshape
    split at hguard
    · cases hguard
    split at hguard
    · cases hguard
    rename_i hle
    cases hguard
    simp only [Bool.or_eq_true, decide_eq_true_eq, Bool.not_eq_true', not_or, Bool.not_eq_false,
      List.all_eq_true] at hshape
    obtain ⟨⟨hne, hlen⟩, hdigits⟩ := hshape
    refine ⟨by omega, ?_⟩
    -- one lemma a length: at most a thousand texts, each checked by evaluation
    match m, hne, hlen, hdigits with
    | [x], _, _, hd =>
      obtain ⟨a, ha, rfl⟩ := exists_digitUnit (hd x (by simp))
      have := natText_of_octet_one a ha
      rw [h] at this
      exact (of_decide_eq_true this).symm
    | [x, y], _, _, hd =>
      obtain ⟨a, ha, rfl⟩ := exists_digitUnit (hd x (by simp))
      obtain ⟨b, hb, rfl⟩ := exists_digitUnit (hd y (by simp))
      have := natText_of_octet_two a ha b hb
      rw [h] at this
      exact (of_decide_eq_true this).symm
    | [x, y, z], _, _, hd =>
      obtain ⟨a, ha, rfl⟩ := exists_digitUnit (hd x (by simp))
      obtain ⟨b, hb, rfl⟩ := exists_digitUnit (hd y (by simp))
      obtain ⟨c, hc, rfl⟩ := exists_digitUnit (hd z (by simp))
      have := natText_of_octet_three a ha b hb c hc
      rw [h] at this
      exact (of_decide_eq_true this).symm
    | _ :: _ :: _ :: _ :: rest, _, hlen, _ => simp at hlen
  · rintro ⟨hn, rfl⟩
    exact octet_natText n hn

/-- A number is printed without a dot. -/
lemma dot_notMem_natText (n : Nat) : dot ∉ natText n := fun h =>
  absurd (isDigit_of_mem_natText h) (by decide)

/-- A number is printed without a colon. -/
lemma colon_notMem_natText (n : Nat) : colon ∉ natText n := fun h =>
  absurd (isDigit_of_mem_natText h) (by decide)

/-- The strict parser accepts exactly the dotted quads. -/
lemma parseIpv4_eq_some {s : JsString} {v4 : List Nat} :
    parseIpv4 s = some v4 ↔ ∃ a b c d, v4 = [a, b, c, d] ∧ IsDottedQuad s a b c d := by
  constructor
  · intro h
    unfold parseIpv4 at h
    split at h
    · rename_i pa pb pc pd hsplit
      obtain ⟨s1, rfl, -, h1⟩ := eq_of_split_cons hsplit
      obtain ⟨s2, rfl, -, h2⟩ := eq_of_split_cons h1
      obtain ⟨s3, rfl, -, h3⟩ := eq_of_split_cons h2
      obtain ⟨rfl, -⟩ := eq_of_split_singleton h3
      simp only [List.mapM_cons, List.mapM_nil, Option.bind_eq_bind, Option.pure_def,
        Option.bind_eq_some_iff, Option.some.injEq, octet_eq_some] at h
      obtain ⟨a, ⟨ha, rfl⟩, _, ⟨b, ⟨hb, rfl⟩, _, ⟨c, ⟨hc, rfl⟩, _, ⟨d, ⟨hd, rfl⟩, _, rfl, rfl⟩, rfl⟩,
        rfl⟩, rfl⟩ := h
      exact ⟨a, b, c, d, rfl, rfl, ha, hb, hc, hd⟩
    · cases h
  · rintro ⟨a, b, c, d, rfl, rfl, ha, hb, hc, hd⟩
    have hsplit : split dot (natText a ++ dot :: (natText b ++ dot :: (natText c ++ dot :: natText d)))
        = [natText a, natText b, natText c, natText d] := by
      rw [split_append_cons _ (dot_notMem_natText a), split_append_cons _ (dot_notMem_natText b),
        split_append_cons _ (dot_notMem_natText c), split_of_notMem (dot_notMem_natText d)]
    rw [parseIpv4, hsplit]
    simp [octet_natText, ha, hb, hc, hd]

/-- A dotted quad has a dot and no colon. -/
lemma IsDottedQuad.chars {s : JsString} {a b c d : Nat} (h : IsDottedQuad s a b c d) :
    dot ∈ s ∧ colon ∉ s ∧ s ≠ [] := by
  obtain ⟨rfl, ha, hb, hc, hd⟩ := h
  refine ⟨by simp, ?_, by simp⟩
  simp only [List.mem_append, List.mem_cons, not_or]
  exact ⟨colon_notMem_natText a, by decide, colon_notMem_natText b, by decide,
    colon_notMem_natText c, by decide, colon_notMem_natText d⟩

/-! ## Groups -/

/-- A `map` that never fails is the `map` of its values. -/
lemma mapM_eq_some_iff {α β : Type} {f : α → Option β} {l : List α} {bs : List β} :
    l.mapM f = some bs ↔ l.map f = bs.map some := by
  induction l generalizing bs with
  | nil => cases bs <;> simp
  | cons a l ih =>
    cases bs with
    | nil => simp [List.mapM_cons, Option.bind_eq_some_iff]
    | cons b bs =>
      simp only [List.mapM_cons, Option.bind_eq_bind, Option.bind_eq_some_iff, Option.pure_def,
        Option.some.injEq, List.cons.injEq, List.map_cons, ← ih]
      constructor
      · rintro ⟨b', hb, bs', hbs, rfl, rfl⟩
        exact ⟨hb, hbs⟩
      · rintro ⟨hb, hbs⟩
        exact ⟨b, hb, bs, hbs, rfl, rfl⟩

/-- The groups that are read. -/
lemma hexGroup_eq_some {piece : JsString} {n : Nat} :
    hexGroup piece = some n ↔ IsHexGroup piece n := by
  have hfold (ds : List Nat) : ds.foldl (fun n d => 16 * n + d) 0 = Nat.ofDigits 16 ds.reverse := by
    rw [Nat.ofDigits_eq_foldr, List.foldr_reverse]
    simp [add_comm]
  unfold hexGroup
  constructor
  · intro h
    split at h
    · cases h
    rename_i hlen
    simp only [Bool.or_eq_true, decide_eq_true_eq, not_or, Nat.not_lt] at hlen
    obtain ⟨ds, hds, rfl⟩ := Option.map_eq_some_iff.mp h
    exact ⟨hlen.1, hlen.2, ds, mapM_eq_some_iff.mp hds, hfold ds⟩
  · rintro ⟨hne, hlen, ds, hds, rfl⟩
    rw [mapM_eq_some_iff.mpr hds, if_neg (by simp [hne, hlen])]
    simp [hfold]

/-- A group is made of hexadecimal digits. -/
lemma IsHexGroup.chars {piece : JsString} {n : Nat} (h : IsHexGroup piece n) :
    ∀ c ∈ piece, (hexDigitValue c).isSome = true := by
  obtain ⟨ds, hds, -⟩ := h.value
  intro c hc
  have hmem : hexDigitValue c ∈ piece.map hexDigitValue := List.mem_map_of_mem hc
  rw [hds] at hmem
  obtain ⟨d, -, hd⟩ := List.mem_map.mp hmem
  simp [← hd]

/-- A group has no colon. -/
lemma IsHexGroup.colon_notMem {piece : JsString} {n : Nat} (h : IsHexGroup piece n) :
    colon ∉ piece := fun hc => absurd (h.chars colon hc) (by decide)

/-- A group has no dot. -/
lemma IsHexGroup.dot_notMem {piece : JsString} {n : Nat} (h : IsHexGroup piece n) :
    dot ∉ piece := fun hc => absurd (h.chars dot hc) (by decide)

/-- The groups of a text without a dotted quad are its parts between colons. -/
lemma groupSeq_false_iff {s : JsString} {groups : List Nat} :
    GroupSeq false s groups ↔ (split colon s).mapM hexGroup = some groups := by
  constructor
  · intro h
    generalize hq : false = quad at h
    induction h with
    | last hp =>
      rw [split_of_notMem hp.colon_notMem, mapM_eq_some_iff]
      simp [hexGroup_eq_some.mpr hp]
    | dotted => cases hq
    | cons hp _ ih =>
      rw [split_append_cons _ hp.colon_notMem, mapM_eq_some_iff, List.map_cons, List.map_cons,
        hexGroup_eq_some.mpr hp, mapM_eq_some_iff.mp (ih hq)]
  · intro h
    rw [mapM_eq_some_iff] at h
    generalize hparts : split colon s = parts at h
    induction parts generalizing s groups with
    | nil => exact absurd hparts (split_ne_nil colon s)
    | cons p parts ih =>
      match groups, h with
      | n :: groups, h =>
        obtain ⟨hp, hrest⟩ := List.cons.inj h
        cases parts with
        | nil =>
          obtain ⟨rfl, -⟩ := eq_of_split_singleton hparts
          cases groups with
          | nil => exact .last (hexGroup_eq_some.mp hp)
          | cons => cases hrest
        | cons q parts =>
          obtain ⟨post, rfl, -, hpost⟩ := eq_of_split_cons hparts
          exact .cons (hexGroup_eq_some.mp hp) (ih hpost hrest)

/-- A sequence without a quad is one where a quad may stand. -/
lemma GroupSeq.mono {s : JsString} {groups : List Nat} (h : GroupSeq false s groups) :
    GroupSeq true s groups := by
  generalize hq : false = quad at h
  induction h with
  | last hp => exact .last hp
  | dotted => cases hq
  | cons hp _ ih => exact .cons hp (ih hq)

/-- A dotted quad stands alone or after groups and a colon. -/
lemma groupSeq_true_iff {s : JsString} {groups : List Nat} :
    GroupSeq true s groups ↔ GroupSeq false s groups ∨
      ∃ q a b c d, IsDottedQuad q a b c d ∧
        ((s = q ∧ groups = [256 * a + b, 256 * c + d]) ∨
          ∃ h hs, GroupSeq false h hs ∧ s = h ++ colon :: q ∧
            groups = hs ++ [256 * a + b, 256 * c + d]) := by
  constructor
  · intro h
    generalize hq : true = quad at h
    induction h with
    | last hp => exact .inl (.last hp)
    | @dotted q a b c d hp => exact .inr ⟨q, a, b, c, d, hp, .inl ⟨rfl, rfl⟩⟩
    | @cons quad piece n rest groups hp _ ih =>
      rcases ih hq with hrest | ⟨q, a, b, c, d, hquad, ⟨rfl, rfl⟩ | ⟨h, hs, hh, rfl, rfl⟩⟩
      · exact .inl (.cons hp hrest)
      · exact .inr ⟨_, a, b, c, d, hquad, .inr ⟨piece, [n], .last hp, rfl, rfl⟩⟩
      · exact .inr ⟨q, a, b, c, d, hquad, .inr ⟨_, n :: hs, .cons hp hh, by simp, rfl⟩⟩
  · rintro (h | ⟨q, a, b, c, d, hquad, ⟨rfl, rfl⟩ | ⟨h, hs, hh, rfl, rfl⟩⟩)
    · exact h.mono
    · exact .dotted hquad
    · generalize hq : false = quad at hh
      induction hh with
      | last hp => exact .cons hp (.dotted hquad)
      | dotted => cases hq
      | cons hp _ ih =>
        rw [List.append_assoc]
        exact .cons hp (ih hq)

/-- A sequence is made of hexadecimal digits and colons. -/
lemma GroupSeq.chars {s : JsString} {groups : List Nat} (h : GroupSeq false s groups) :
    ∀ c ∈ s, (hexDigitValue c).isSome = true ∨ c = colon := by
  generalize hq : false = quad at h
  induction h with
  | last hp => exact fun c hc => .inl (hp.chars c hc)
  | dotted => cases hq
  | cons hp _ ih =>
    intro c hc
    rcases List.mem_append.mp hc with hc | hc
    · exact .inl (hp.chars c hc)
    rcases List.mem_cons.mp hc with rfl | hc
    · exact .inr rfl
    · exact ih hq c hc

/-- A sequence without a quad has no dot. -/
lemma GroupSeq.dot_notMem {s : JsString} {groups : List Nat} (h : GroupSeq false s groups) :
    dot ∉ s := by
  intro hd
  rcases h.chars dot hd with hc | hc
  · exact absurd hc (by decide)
  · exact absurd hc (by decide)

/-! ## Where `::` can stand -/

/-- No piece of a sequence is empty. -/
lemma GroupSeq.nil_notMem {s : JsString} {groups : List Nat} (h : GroupSeq false s groups) :
    [] ∉ split colon s := by
  intro hm
  have hmap := mapM_eq_some_iff.mp (groupSeq_false_iff.mp h)
  have hmem : hexGroup [] ∈ (split colon s).map hexGroup := List.mem_map_of_mem hm
  rw [hmap] at hmem
  obtain ⟨n, -, hn⟩ := List.mem_map.mp hmem
  cases hn

/-- A gap is an empty piece. -/
lemma split_doubleColon (a b : JsString) :
    split colon (a ++ js "::" ++ b) = split colon a ++ [] :: split colon b := by
  have e : a ++ js "::" ++ b = a ++ colon :: (colon :: b) := by
    simp [show js "::" = [colon, colon] from rfl]
  rw [e, split_append]
  rfl

/-- The left side of a gap has no gap of its own. -/
lemma GroupSide.no_gap_append {s : JsString} {groups : List Nat} (h : GroupSide false s groups) :
    ¬ js "::" <:+: s ++ [colon] := by
  rintro ⟨a, b, e⟩
  rcases h with ⟨rfl, -⟩ | h
  · have hlen := congrArg List.length e
    simp only [List.length_append, show (js "::").length = 2 from rfl, List.nil_append,
      List.length_singleton] at hlen
    omega
  · -- of the parts of `s ++ ":"` only the last is empty, and the one inside `::` comes before it
    have hsplit := congrArg (fun t => (split colon t).dropLast) e
    simp only [split_doubleColon, split_append, show split colon [] = [[]] from rfl] at hsplit
    rw [List.dropLast_append_of_ne_nil (List.cons_ne_nil _ _),
      List.dropLast_cons_of_ne_nil (split_ne_nil colon b), List.dropLast_concat] at hsplit
    exact h.nil_notMem (by rw [← hsplit]; simp)

/-- The right side of a gap has no gap of its own. -/
lemma GroupSide.no_gap_cons {s : JsString} {groups : List Nat} (h : GroupSide false s groups) :
    ¬ js "::" <:+: colon :: s := by
  rintro ⟨a, b, e⟩
  rcases h with ⟨rfl, -⟩ | h
  · have hlen := congrArg List.length e
    simp only [List.length_append, show (js "::").length = 2 from rfl,
      List.length_singleton] at hlen
    omega
  · have hsplit := congrArg (fun t => (split colon t).tail) e
    simp only [split_doubleColon] at hsplit
    rw [List.tail_append_of_ne_nil (split_ne_nil colon a), split, if_pos rfl, List.tail_cons] at hsplit
    exact h.nil_notMem (by rw [← hsplit]; simp)

/-- The first gap is where the left side ends. -/
lemma indexOfStr_doubleColon {pre : JsString} (post : JsString) (h : ¬ js "::" <:+: pre ++ [colon]) :
    indexOfStr (js "::") (pre ++ js "::" ++ post) = some pre.length := by
  obtain ⟨i, hi, hle⟩ := indexOfStr_le (js "::") pre post
  obtain ⟨pre', post', e, rfl, -⟩ := indexOfStr_eq_some hi
  rcases Nat.eq_or_lt_of_le hle with heq | hlt
  · rw [hi, heq]
  · exfalso
    have hpre : pre' ++ js "::" <+: pre ++ [colon] := by
      have hstart : pre' ++ js "::" <+: pre ++ js "::" ++ post := by
        rw [e]
        exact List.prefix_append _ _
      have hcolon : pre ++ [colon] <+: pre ++ js "::" ++ post := by
        rw [show js "::" = [colon] ++ [colon] from rfl]
        exact ⟨[colon] ++ post, by simp⟩
      apply List.prefix_of_prefix_length_le hstart hcolon
      simp only [List.length_append, show (js "::").length = 2 from rfl, List.length_singleton]
      omega
    exact h ((List.suffix_append pre' _).isInfix.trans hpre.isInfix)

/-- The last gap is where the right side starts. -/
lemma lastIndexOfStr_doubleColon {pre post : JsString} (h : ¬ js "::" <:+: colon :: post) :
    lastIndexOfStr (js "::") (pre ++ js "::" ++ post) = some pre.length := by
  have hrev : ¬ js "::" <:+: post.reverse ++ [colon] := by
    intro hin
    apply h
    rw [← List.reverse_infix, List.reverse_cons]
    exact hin
  have e : (pre ++ js "::" ++ post).reverse = post.reverse ++ js "::" ++ pre.reverse := by
    simp [show js "::" = [colon, colon] from rfl]
  rw [lastIndexOfStr, e, show (js "::").reverse = js "::" from rfl, indexOfStr_doubleColon _ hrev]
  simp only [List.length_append, List.length_reverse, Option.map_some, Option.some.injEq]
  omega

/-- The last colon is the one behind which there is none. -/
lemma lastIndexOfStr_colon {pre post : JsString} (h : colon ∉ post) :
    lastIndexOfStr [colon] (pre ++ colon :: post) = some pre.length := by
  have e : (pre ++ colon :: post).reverse = post.reverse ++ [colon] ++ pre.reverse := by simp
  rw [lastIndexOfStr, e, show [colon].reverse = [colon] from rfl,
    indexOfStr_append _ (fun hm => h (List.mem_reverse.mp hm))]
  simp only [List.length_append, List.length_reverse, List.length_cons, List.length_nil,
    Option.map_some, Option.some.injEq]
  omega

/-- A text without a colon has no last one. -/
lemma lastIndexOfStr_colon_eq_none {s : JsString} (h : colon ∉ s) :
    lastIndexOfStr [colon] s = none := by
  rw [lastIndexOfStr, Option.map_eq_none_iff, indexOfStr_eq_none]
  intro hin
  exact h (List.mem_reverse.mp (hin.subset (by simp)))

/-! ## The IPv6 parser -/

/-- The text inside brackets, or the text itself. -/
def unbracket (input : JsString) : JsString :=
  if startsWith input (js "[") && endsWith input (js "]") then (sliceFrom input 1).dropLast else input

/-- What `parseIpv6` makes of the text before a dotted quad: `want` groups. -/
def parseGroups (want : Nat) (s : JsString) : Option (List Nat) :=
  match indexOfStr (js "::") s with
  | none =>
    match hexGroups s with
    | some all => if all.length = want then some all else none
    | none => none
  | some gap =>
    if lastIndexOfStr (js "::") s ≠ some gap then none
    else
      match hexGroups (sliceTo s gap), hexGroups (sliceFrom s (gap + 2)) with
      | some head, some rest =>
        if want < head.length + rest.length + 1 then none
        else some (head ++ List.replicate (want - head.length - rest.length) 0 ++ rest)
      | _, _ => none

/-- What `parseIpv6` makes of a text without brackets. -/
def parseIpv6Text (s : JsString) : Option (List Nat) :=
  if s = [] || !s.all fun c => (hexDigitValue c).isSome || c = colon || c = dot then none
  else
    match lastIndexOfStr [colon] s with
    | none => none
    | some lastColon =>
      match ipv6Tail s lastColon with
      | none => none
      | some (tail, s) => (parseGroups (8 - tail.length) s).map (· ++ tail)

/-- The groups of a text, with those of the dotted quad after it. -/
lemma parseGroups_append (want : Nat) (s : JsString) (tail : List Nat) :
    (parseGroups want s).map (· ++ tail) = match indexOfStr (js "::") s with
      | none =>
        match hexGroups s with
        | some all => if all.length = want then some (all ++ tail) else none
        | none => none
      | some gap =>
        if lastIndexOfStr (js "::") s ≠ some gap then none
        else
          match hexGroups (sliceTo s gap), hexGroups (sliceFrom s (gap + 2)) with
          | some head, some rest =>
            if want < head.length + rest.length + 1 then none
            else some (head ++ List.replicate (want - head.length - rest.length) 0 ++ rest ++ tail)
          | _, _ => none := by
  unfold parseGroups
  cases indexOfStr (js "::") s with
  | none =>
    cases hexGroups s with
    | none => rfl
    | some all => dsimp only; split <;> rfl
  | some gap =>
    dsimp only
    split
    · rfl
    cases hexGroups (sliceTo s gap) with
    | none => rfl
    | some head =>
      cases hexGroups (sliceFrom s (gap + 2)) with
      | none => rfl
      | some rest => dsimp only; split <;> rfl

/-- Brackets are taken off first. -/
lemma parseIpv6_eq (input : JsString) : parseIpv6 input = parseIpv6Text (unbracket input) := by
  unfold parseIpv6 parseIpv6Text
  dsimp only
  rw [← unbracket]
  split
  · rfl
  cases lastIndexOfStr [colon] (unbracket input) with
  | none => rfl
  | some lastColon =>
    dsimp only
    cases ipv6Tail (unbracket input) lastColon with
    | none => rfl
    | some parts => exact (parseGroups_append _ _ _).symm

/-- The sides of a gap that are read. -/
lemma hexGroups_eq_some {s : JsString} {groups : List Nat} :
    hexGroups s = some groups ↔ GroupSide false s groups := by
  unfold hexGroups GroupSide
  rw [groupSeq_false_iff]
  by_cases h : s = []
  · subst h
    simp [split, hexGroup, eq_comm]
  · simp [h]

/-- The left side is cut off at the gap. -/
lemma sliceTo_doubleColon (left right : JsString) :
    sliceTo (left ++ js "::" ++ right) left.length = left := by
  rw [List.append_assoc, sliceTo_append]

/-- The right side is what follows the gap. -/
lemma sliceFrom_doubleColon (left right : JsString) :
    sliceFrom (left ++ js "::" ++ right) (left.length + 2) = right := by
  have hlen : left.length + 2 = (left ++ js "::").length := by
    rw [List.length_append]
    rfl
  rw [hlen, sliceFrom_append]

/-- The groups before a dotted quad: `want` of them, or fewer around one `::`. -/
lemma parseGroups_eq_some {want : Nat} (hwant : 0 < want) {s : JsString} {g : List Nat} :
    parseGroups want s = some g ↔ (GroupSeq false s g ∧ g.length = want) ∨
      ∃ left right l r, s = left ++ js "::" ++ right ∧ GroupSide false left l ∧
        GroupSide false right r ∧ l.length + r.length < want ∧
        g = l ++ List.replicate (want - l.length - r.length) 0 ++ r := by
  constructor
  · intro h
    unfold parseGroups at h
    split at h
    · split at h
      · rename_i all hall
        split at h
        · rename_i hlen
          cases h
          rcases hexGroups_eq_some.mp hall with ⟨-, rfl⟩ | hseq
          · -- the empty text is no group, and some are wanted
            exact absurd hlen (by simp; omega)
          · exact .inl ⟨hseq, hlen⟩
        · cases h
      · cases h
    · rename_i gap hgap
      obtain ⟨left, right, rfl, rfl, -⟩ := indexOfStr_eq_some hgap
      split at h
      · cases h
      rw [sliceTo_doubleColon, sliceFrom_doubleColon] at h
      split at h
      · rename_i l r hl hr
        split at h
        · cases h
        · cases h
          exact .inr ⟨left, right, l, r, rfl, hexGroups_eq_some.mp hl, hexGroups_eq_some.mp hr,
            by omega, rfl⟩
      · cases h
  · rintro (⟨hseq, hlen⟩ | ⟨left, right, l, r, rfl, hl, hr, hlen, rfl⟩)
    · have hno : indexOfStr (js "::") s = none := indexOfStr_eq_none.mpr fun hin =>
        GroupSide.no_gap_append (.inr hseq) (hin.trans (List.prefix_append _ _).isInfix)
      rw [parseGroups, hno, hexGroups_eq_some.mpr (.inr hseq)]
      simp [hlen]
    · -- the `::` between the two sides is both the first and the last
      simp only [parseGroups, indexOfStr_doubleColon right hl.no_gap_append,
        lastIndexOfStr_doubleColon hr.no_gap_cons, sliceTo_doubleColon, sliceFrom_doubleColon,
        hexGroups_eq_some.mpr hl, hexGroups_eq_some.mpr hr]
      rw [if_neg (by simp), if_neg (by omega)]

/-! ## The parser and the grammar -/

/-- Without a dot there is no quad to cut off. -/
lemma ipv6Tail_of_noDot {s : JsString} (i : Nat) (h : dot ∉ s) : ipv6Tail s i = some ([], s) := by
  simp [ipv6Tail, includes_eq_false.mpr h]

/-- The colon before a dotted quad stays when it is the second of a `::`. -/
def quadHead (h : JsString) : JsString :=
  if endsWith (h ++ [colon]) (js "::") then h ++ [colon] else h

/-- A text with a dot is taken for its dotted quad and what stands before it. -/
lemma ipv6Tail_eq_some {h q : JsString} {p : List Nat × JsString} (hdot : dot ∈ h ++ colon :: q) :
    ipv6Tail (h ++ colon :: q) h.length = some p ↔
      ∃ a b c d, IsDottedQuad q a b c d ∧ p = ([256 * a + b, 256 * c + d], quadHead h) := by
  have hto : sliceTo (h ++ colon :: q) (h.length + 1) = h ++ [colon] := by
    rw [show h ++ colon :: q = (h ++ [colon]) ++ q by simp,
      show h.length + 1 = (h ++ [colon]).length by simp, sliceTo_append]
  rw [ipv6Tail, includes_iff.mpr hdot, if_pos rfl, sliceFrom_append_cons, hto]
  constructor
  · intro e
    split at e
    · rename_i a b c d hq
      obtain ⟨a', b', c', d', e', hquad⟩ := parseIpv4_eq_some.mp hq
      cases e'
      cases e
      refine ⟨a, b, c, d, hquad, ?_⟩
      simp [quadHead]
    · cases e
  · rintro ⟨a, b, c, d, hquad, rfl⟩
    rw [parseIpv4_eq_some.mpr ⟨a, b, c, d, rfl, hquad⟩]
    simp [quadHead]

/-- A head ends in a gap when it ends in a colon. -/
lemma doubleColon_suffix_iff {h : JsString} : js "::" <:+ h ++ [colon] ↔ [colon] <:+ h := by
  rw [show js "::" = [colon] ++ [colon] from rfl]
  exact List.suffix_append_self_iff

/-- A quad behind a gap leaves the gap. -/
lemma quadHead_of_colon {h : JsString} (hc : [colon] <:+ h) : quadHead h = h ++ [colon] := by
  have hend : endsWith (h ++ [colon]) (js "::") = true :=
    List.isSuffixOf_iff_suffix.mpr (doubleColon_suffix_iff.mpr hc)
  rw [quadHead, if_pos hend]

/-- A quad behind a colon leaves what precedes it. -/
lemma quadHead_of_not_colon {h : JsString} (hc : ¬ [colon] <:+ h) : quadHead h = h := by
  rw [quadHead, if_neg]
  exact fun hend => hc (doubleColon_suffix_iff.mp (List.isSuffixOf_iff_suffix.mp hend))

/-- Groups do not end in a colon, whatever stands before them. -/
lemma GroupSeq.not_colon_suffix {s : JsString} {groups : List Nat} (h : GroupSeq false s groups)
    (pre : JsString) : ¬ [colon] <:+ pre ++ s := by
  intro hc
  have hne : s ≠ [] := by
    rintro rfl
    exact h.nil_notMem (by simp [split])
  have hs : [colon] <:+ s := List.suffix_of_suffix_length_le hc (List.suffix_append pre s)
    (List.length_pos_iff.mpr hne)
  exact GroupSide.no_gap_append (.inr h) (doubleColon_suffix_iff.mpr hs).isInfix

/-- The parser before a dotted quad: what it reads is an address with that quad as its end. -/
lemma isIpv6Text_of_quadHead {h q : JsString} {a b c d : Nat} {g : List Nat}
    (hq : IsDottedQuad q a b c d) (hg : parseGroups 6 (quadHead h) = some g) :
    IsIpv6Text (h ++ colon :: q) (g ++ [256 * a + b, 256 * c + d]) := by
  rw [parseGroups_eq_some (by decide)] at hg
  by_cases hc : [colon] <:+ h
  · rw [quadHead_of_colon hc] at hg
    rcases hg with ⟨hseq, -⟩ | ⟨left, right, l, r, e, hl, hr, hlen, rfl⟩
    · exact absurd (List.suffix_append h [colon]) (hseq.not_colon_suffix [])
    · -- the head ends in a colon, so nothing but the quad follows its `::`
      rcases hr with ⟨rfl, rfl⟩ | hr
      · have e' : h ++ colon :: q = left ++ js "::" ++ q := by
          rw [List.append_nil] at e
          rw [← e]
          simp
        have htext := IsIpv6Text.gap hl (.inr (.dotted hq)) (by simp at hlen ⊢; omega)
        rw [e']
        simpa [Nat.sub_sub, Nat.add_comm] using htext
      · exact absurd (e ▸ List.suffix_append h [colon]) (hr.not_colon_suffix _)
  · rw [quadHead_of_not_colon hc] at hg
    rcases hg with ⟨hseq, hlen⟩ | ⟨left, right, l, r, rfl, hl, hr, hlen, rfl⟩
    · exact .full (groupSeq_true_iff.mpr (.inr ⟨q, a, b, c, d, hq, .inr ⟨h, g, hseq, rfl, rfl⟩⟩))
        (by simp [hlen])
    · rcases hr with ⟨rfl, rfl⟩ | hr
      · refine absurd ?_ hc
        rw [List.append_nil, show js "::" = [colon] ++ [colon] from rfl, ← List.append_assoc]
        exact List.suffix_append _ _
      · have hright : GroupSeq true (right ++ colon :: q) (r ++ [256 * a + b, 256 * c + d]) :=
          groupSeq_true_iff.mpr (.inr ⟨q, a, b, c, d, hq, .inr ⟨right, r, hr, rfl, rfl⟩⟩)
        have htext := IsIpv6Text.gap hl (.inr hright) (by simp; omega)
        have hcount : 8 - l.length - (r ++ [256 * a + b, 256 * c + d]).length
            = 6 - l.length - r.length := by simp; omega
        rw [hcount] at htext
        simpa using htext

/-- A text with a colon is cut at its last one. -/
lemma exists_lastColon {s : JsString} (h : colon ∈ s) :
    ∃ hd q, s = hd ++ colon :: q ∧ colon ∉ q := by
  obtain ⟨q, hd, e, hq⟩ := List.eq_append_cons_of_mem (List.mem_reverse.mpr h)
  refine ⟨hd.reverse, q.reverse, ?_, fun hm => hq (List.mem_reverse.mp hm)⟩
  rw [← List.reverse_reverse s, e]
  simp

/-- What the parser reads is an IPv6 text. -/
lemma isIpv6Text_of_parse {s : JsString} {g : List Nat} (h : parseIpv6Text s = some g) :
    IsIpv6Text s g := by
  unfold parseIpv6Text at h
  split at h
  · cases h
  by_cases hcolon : colon ∈ s
  swap
  · rw [lastIndexOfStr_colon_eq_none hcolon] at h
    cases h
  obtain ⟨hd, q, rfl, hq⟩ := exists_lastColon hcolon
  rw [lastIndexOfStr_colon hq] at h
  dsimp only at h
  by_cases hdot : dot ∈ hd ++ colon :: q
  · -- a dot makes the last part a dotted quad
    split at h
    · cases h
    rename_i tail s' htail
    obtain ⟨a, b, c, d, hquad, hp⟩ := (ipv6Tail_eq_some hdot).mp htail
    cases hp
    obtain ⟨g', hg', rfl⟩ := Option.map_eq_some_iff.mp h
    exact isIpv6Text_of_quadHead hquad hg'
  · rw [ipv6Tail_of_noDot _ hdot] at h
    simp only [List.length_nil, Nat.sub_zero, List.append_nil, Option.map_id'] at h
    rcases (parseGroups_eq_some (by decide)).mp h with
      ⟨hseq, hlen⟩ | ⟨left, right, l, r, e', hl, hr, hlen, rfl⟩
    · exact .full hseq.mono hlen
    · rw [e']
      exact .gap hl (hr.imp_right GroupSeq.mono) hlen

/-- The characters of an address text. -/
def IsAddressChar (c : CodeUnit) : Prop := (hexDigitValue c).isSome = true ∨ c = colon ∨ c = dot

/-- A side of a gap is made of address characters. -/
lemma GroupSide.addressChars {s : JsString} {groups : List Nat} (h : GroupSide false s groups) :
    ∀ c ∈ s, IsAddressChar c := by
  rcases h with ⟨rfl, -⟩ | h
  · exact fun c hc => absurd hc List.not_mem_nil
  · exact fun c hc => (h.chars c hc).imp_right .inl

/-- A dotted quad is made of address characters. -/
lemma IsDottedQuad.addressChars {s : JsString} {a b c d : Nat} (h : IsDottedQuad s a b c d) :
    ∀ x ∈ s, IsAddressChar x := by
  have hdigits {n : Nat} (hn : n < 256) : ∀ x ∈ natText n, IsAddressChar x := by
    intro x hx
    refine .inl ?_
    rw [hexDigitValue, if_pos (isDigit_of_mem_natText hx)]
    rfl
  obtain ⟨rfl, ha, hb, hc, hd⟩ := h
  intro x hx
  simp only [List.mem_append, List.mem_cons] at hx
  rcases hx with hx | rfl | hx | rfl | hx | rfl | hx
  · exact hdigits ha x hx
  · exact .inr (.inr rfl)
  · exact hdigits hb x hx
  · exact .inr (.inr rfl)
  · exact hdigits hc x hx
  · exact .inr (.inr rfl)
  · exact hdigits hd x hx

/-- The parser of a text made of address characters, cut at its last colon. -/
lemma parseIpv6Text_cut {h q : JsString} (hh : ∀ c ∈ h, IsAddressChar c)
    (hq : ∀ c ∈ q, IsAddressChar c) (hc : colon ∉ q) :
    parseIpv6Text (h ++ colon :: q) = match ipv6Tail (h ++ colon :: q) h.length with
      | none => none
      | some (tail, s) => (parseGroups (8 - tail.length) s).map (· ++ tail) := by
  have hall : ((h ++ colon :: q).all fun c => (hexDigitValue c).isSome || c = colon || c = dot)
      = true := by
    rw [List.all_eq_true]
    intro c hm
    have hchar : IsAddressChar c := by
      rcases List.mem_append.mp hm with hm | hm
      · exact hh c hm
      rcases List.mem_cons.mp hm with rfl | hm
      · exact .inr (.inl rfl)
      · exact hq c hm
    rcases hchar with hc | rfl | rfl
    · simp [hc]
    · simp
    · simp
  rw [parseIpv6Text, if_neg (by rw [hall]; simp), lastIndexOfStr_colon hc]

/-- Without a dotted quad the whole text is groups. -/
lemma parseIpv6Text_groups {s : JsString} (hcolon : colon ∈ s) (hdot : dot ∉ s)
    (hchars : ∀ c ∈ s, IsAddressChar c) : parseIpv6Text s = parseGroups 8 s := by
  obtain ⟨hd, q, rfl, hq⟩ := exists_lastColon hcolon
  obtain ⟨hhd, hcons⟩ := List.forall_mem_append.mp hchars
  rw [parseIpv6Text_cut hhd (List.forall_mem_cons.mp hcons).2 hq, ipv6Tail_of_noDot _ hdot]
  simp

/-- A trailing quad stands for two groups. -/
lemma parseIpv6Text_quad {h q : JsString} {a b c d : Nat} (hq : IsDottedQuad q a b c d)
    (hh : ∀ c ∈ h, IsAddressChar c) :
    parseIpv6Text (h ++ colon :: q)
      = (parseGroups 6 (quadHead h)).map (· ++ [256 * a + b, 256 * c + d]) := by
  have hdot : dot ∈ h ++ colon :: q :=
    List.mem_append_right _ (List.mem_cons_of_mem _ hq.chars.1)
  rw [parseIpv6Text_cut hh hq.addressChars hq.chars.2.1,
    (ipv6Tail_eq_some hdot).mpr ⟨a, b, c, d, hq, rfl⟩]
  rfl

/-- The code units of two colons. -/
lemma js_doubleColon : js "::" = [colon, colon] := rfl

/-- Groups around a `::` before a dotted quad. -/
lemma parseIpv6Text_gap_quad {left right q : JsString} {l r : List Nat} {a b c d : Nat}
    (hq : IsDottedQuad q a b c d) {h : JsString} (hh : ∀ c ∈ h, IsAddressChar c)
    (hhead : quadHead h = left ++ js "::" ++ right) (hl : GroupSide false left l)
    (hr : GroupSide false right r) (hlen : l.length + r.length < 6) :
    parseIpv6Text (h ++ colon :: q) =
      some (l ++ List.replicate (6 - l.length - r.length) 0 ++ r ++ [256 * a + b, 256 * c + d]) := by
  have hgap : parseGroups 6 (quadHead h)
      = some (l ++ List.replicate (6 - l.length - r.length) 0 ++ r) := by
    rw [parseGroups_eq_some (by decide)]
    exact .inr ⟨left, right, l, r, hhead, hl, hr, hlen, rfl⟩
  rw [parseIpv6Text_quad hq hh, hgap]
  rfl

/-- A side of a gap has no dot. -/
lemma GroupSide.dot_notMem {s : JsString} {groups : List Nat} (h : GroupSide false s groups) :
    dot ∉ s := by
  rcases h with ⟨rfl, -⟩ | h
  · exact List.not_mem_nil
  · exact h.dot_notMem

/-- A gap is made of address characters. -/
lemma doubleColon_addressChars : ∀ c ∈ js "::", IsAddressChar c := by
  intro c hc
  rw [js_doubleColon] at hc
  simp only [List.mem_cons, List.not_mem_nil, or_false, or_self] at hc
  exact .inr (.inl hc)

/-- Groups around a `::`, without a dotted quad. -/
lemma parseIpv6Text_gap {left right : JsString} {l r : List Nat} (hl : GroupSide false left l)
    (hr : GroupSide false right r) (hlen : l.length + r.length < 8) :
    parseIpv6Text (left ++ js "::" ++ right)
      = some (l ++ List.replicate (8 - l.length - r.length) 0 ++ r) := by
  have hdot : dot ∉ left ++ js "::" ++ right := by
    simp only [List.mem_append, not_or]
    exact ⟨⟨hl.dot_notMem, by decide⟩, hr.dot_notMem⟩
  have hchars : ∀ c ∈ left ++ js "::" ++ right, IsAddressChar c := by
    simp only [List.forall_mem_append]
    exact ⟨⟨hl.addressChars, doubleColon_addressChars⟩, hr.addressChars⟩
  rw [parseIpv6Text_groups (by simp [js_doubleColon]) hdot hchars, parseGroups_eq_some (by decide)]
  exact .inr ⟨left, right, l, r, rfl, hl, hr, hlen, rfl⟩

/-- The parser reads every IPv6 text. -/
lemma parse_of_isIpv6Text {s : JsString} {g : List Nat} (h : IsIpv6Text s g) :
    parseIpv6Text s = some g := by
  cases h with
  | full hseq hlen =>
    rcases groupSeq_true_iff.mp hseq with hseq | ⟨q, a, b, c, d, hq, ⟨rfl, rfl⟩ | ⟨h, hs, hh, rfl, rfl⟩⟩
    · -- eight groups without a quad have a colon between them
      have hcolon : colon ∈ s := by
        by_contra hn
        have hmap := groupSeq_false_iff.mp hseq
        rw [split_of_notMem hn, mapM_eq_some_iff] at hmap
        have := congrArg List.length hmap
        simp [hlen] at this
      rw [parseIpv6Text_groups hcolon hseq.dot_notMem (GroupSide.addressChars (.inr hseq)),
        parseGroups_eq_some (by decide)]
      exact .inl ⟨hseq, hlen⟩
    · simp at hlen
    · have hlen' : hs.length = 6 := by simpa using hlen
      have hhead : quadHead h = h := quadHead_of_not_colon (hh.not_colon_suffix [])
      rw [parseIpv6Text_quad hq (GroupSide.addressChars (.inr hh)), hhead,
        (parseGroups_eq_some (by decide)).mpr (.inl ⟨hh, hlen'⟩)]
      rfl
  | @gap left right l r hl hr hlen =>
    rcases hr with hr | hr
    · exact parseIpv6Text_gap hl (.inl hr) hlen
    rcases groupSeq_true_iff.mp hr with hr | ⟨q, a, b, c, d, hq, ⟨rfl, rfl⟩ | ⟨h, hs, hh, rfl, rfl⟩⟩
    · exact parseIpv6Text_gap hl (.inr hr) hlen
    · -- the quad follows the `::` at once
      have hlen' : l.length < 6 := by simp at hlen; omega
      have hhead : quadHead (left ++ [colon]) = left ++ js "::" ++ [] := by
        rw [quadHead_of_colon (List.suffix_append _ _), js_doubleColon]
        simp
      have hchars : ∀ c ∈ left ++ [colon], IsAddressChar c := by
        simp only [List.forall_mem_append, List.forall_mem_singleton]
        exact ⟨hl.addressChars, .inr (.inl rfl)⟩
      have hread := parseIpv6Text_gap_quad hq hchars hhead hl (.inl ⟨rfl, rfl⟩) hlen'
      have e : left ++ js "::" ++ right = left ++ [colon] ++ colon :: right := by
        simp [js_doubleColon]
      rw [e, hread]
      simp [Nat.sub_sub, Nat.add_comm]
    · -- groups stand between the `::` and the quad
      have hlen' : l.length + hs.length < 6 := by simp at hlen; omega
      have hhead : quadHead (left ++ js "::" ++ h) = left ++ js "::" ++ h :=
        quadHead_of_not_colon (hh.not_colon_suffix _)
      have hchars : ∀ c ∈ left ++ js "::" ++ h, IsAddressChar c := by
        simp only [List.forall_mem_append]
        exact ⟨⟨hl.addressChars, doubleColon_addressChars⟩, GroupSide.addressChars (.inr hh)⟩
      have hread := parseIpv6Text_gap_quad hq hchars hhead hl (.inr hh) hlen'
      have hcount : 8 - l.length - (hs ++ [256 * a + b, 256 * c + d]).length
          = 6 - l.length - hs.length := by simp; omega
      rw [← List.append_assoc, hread, hcount]
      simp

/-- The parser reads exactly the RFC 4291 text forms, brackets optional. -/
lemma parseIpv6_eq_some {s : JsString} {g : List Nat} :
    parseIpv6 s = some g ↔ IsIpv6Text (unbracket s) g := by
  rw [parseIpv6_eq]
  exact ⟨isIpv6Text_of_parse, parse_of_isIpv6Text⟩

/-- Without a colon there is no IPv6 address. -/
lemma parseIpv6_of_noColon {s : JsString} (h : colon ∉ s) : parseIpv6 s = none := by
  have hbody : colon ∉ unbracket s := by
    unfold unbracket
    split
    · exact fun hm => h (List.mem_of_mem_drop (List.mem_of_mem_dropLast hm))
    · exact h
  rw [parseIpv6_eq, parseIpv6Text, lastIndexOfStr_colon_eq_none hbody]
  split <;> rfl

end VtiDidcomm
