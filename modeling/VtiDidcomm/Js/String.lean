import Mathlib.Algebra.GroupWithZero.Nat
import Mathlib.Data.List.DropRight
import Mathlib.Data.List.Infix
import Mathlib.Order.Lattice
import Mathlib.Tactic.Lemma

/-!
# JavaScript strings

A JavaScript string is a sequence of UTF-16 code units, lone surrogates included. This module gives
the string methods an identifier parser uses (`startsWith`, `indexOf`, `slice`, `split`, `includes`,
`replaceAll`) as functions on lists of code units, together with the cut lemmas that turn an index
into a decomposition `before ++ c :: after`.

`js` writes a literal; a literal is evaluated by `decide`.
-/

namespace Js

/-- A UTF-16 code unit. -/
abbrev CodeUnit := UInt16

/-- A JavaScript string. -/
abbrev JsString := List CodeUnit

instance : LawfulBEq JsString := inferInstance

/-- The UTF-16 code units of a Unicode scalar value. -/
def utf16 (c : Char) : List CodeUnit :=
  if c.toNat < 0x10000 then [c.toNat.toUInt16]
  else
    [(0xD800 + (c.toNat - 0x10000) / 0x400).toUInt16, (0xDC00 + (c.toNat - 0x10000) % 0x400).toUInt16]

/-- A string literal. -/
def js (s : String) : JsString := s.toList.flatMap utf16

/-- `s.startsWith(p)`. -/
def startsWith (s p : JsString) : Bool := p.isPrefixOf s

/-- `s.indexOf(c)` for a single code unit, `none` for `-1`. -/
def indexOf (s : JsString) (c : CodeUnit) : Option Nat := s.idxOf? c

/-- `s.indexOf(p)`, `none` for `-1`. -/
def indexOfStr (p : JsString) : JsString → Option Nat
  | [] => if p = [] then some 0 else none
  | c :: s => if p.isPrefixOf (c :: s) then some 0 else (indexOfStr p s).map (· + 1)

/-- `s.endsWith(p)`. -/
def endsWith (s p : JsString) : Bool := p.isSuffixOf s

/-- `s.includes(c)` for a single code unit. -/
def includes (s : JsString) (c : CodeUnit) : Bool := s.contains c

/-- `s.slice(i)`. -/
def sliceFrom (s : JsString) (i : Nat) : JsString := s.drop i

/-- `s.slice(0, i)`. -/
def sliceTo (s : JsString) (i : Nat) : JsString := s.take i

/-- `s.split(c)` for a single code unit. -/
def split (c : CodeUnit) : JsString → List JsString
  | [] => [[]]
  | d :: s =>
    if d = c then [] :: split c s
    else
      match split c s with
      | [] => [[d]]
      | part :: parts => (d :: part) :: parts

/-- `s.split(c)[0]`. -/
def splitHead (c : CodeUnit) (s : JsString) : JsString := (split c s).headD []

/-- `s.split(p)` for a longer separator: `skip` code units of a separator are still to be dropped,
`acc` is the current part, reversed. -/
def splitStrAux (p : JsString) (skip : Nat) (acc : JsString) : JsString → List JsString
  | [] => [acc.reverse]
  | c :: s =>
    match skip with
    | skip + 1 => splitStrAux p skip acc s
    | 0 =>
      if p.isPrefixOf (c :: s) then acc.reverse :: splitStrAux p (p.length - 1) [] s
      else splitStrAux p 0 (c :: acc) s

/-- `s.split(p)` for a non-empty separator. -/
def splitStr (p s : JsString) : List JsString := splitStrAux p 0 [] s

/-- `s.replaceAll(c, d)` for single code units. -/
def replaceAll (s : JsString) (c d : CodeUnit) : JsString := s.map fun u => if u = c then d else u

/-- `s.replace(/c+$/, "")`. -/
def trimEnd (s : JsString) (c : CodeUnit) : JsString := s.rdropWhile (· == c)

/-- The white space `Number.parseInt` skips. -/
def isWhiteSpace (c : CodeUnit) : Bool :=
  c ∈ ([0x09, 0x0A, 0x0B, 0x0C, 0x0D, 0x20, 0xA0, 0x1680, 0x2028, 0x2029, 0x202F, 0x205F, 0x3000,
    0xFEFF] : List CodeUnit) || (0x2000 ≤ c && c ≤ 0x200A)

/-- `s.trim()`. -/
def trim (s : JsString) : JsString := (s.dropWhile isWhiteSpace).rdropWhile isWhiteSpace

/-- The lowercase of an ASCII code unit; any other is left alone. -/
def asciiLower (c : CodeUnit) : CodeUnit := if 0x41 ≤ c && c ≤ 0x5A then c + 0x20 else c

/-- Whether a code unit is an ASCII digit. -/
def isDigit (c : CodeUnit) : Bool := 0x30 ≤ c && c ≤ 0x39

/-- The value of a hexadecimal digit. -/
def hexDigitValue (c : CodeUnit) : Option Nat :=
  if isDigit c then some (c.toNat - 0x30)
  else if 0x41 ≤ c && c ≤ 0x46 then some (c.toNat - 0x37)
  else if 0x61 ≤ c && c ≤ 0x66 then some (c.toNat - 0x57)
  else none

/-- The value of a run of ASCII digits. -/
def digitsValue (digits : JsString) : Nat :=
  digits.foldl (fun n c => 10 * n + (c.toNat - 0x30)) 0

/-- `String(n)` of a natural number. -/
def natText (n : Nat) : JsString := js (Nat.repr n)

/-- The double nearest to a natural number, ties to even; `none` for `Infinity`. -/
def toDouble (n : Nat) : Option Nat :=
  if n < 2 ^ 53 then some n
  else
    let ulp := 2 ^ (n.log2 - 52)
    let q := n / ulp
    let r := n % ulp
    let q := if ulp < 2 * r || (2 * r = ulp && q % 2 = 1) then q + 1 else q
    if q * ulp < 2 ^ 1024 then some (q * ulp) else none

/-- `Number.parseInt(s, 10)` for a text without `-`, when it is finite. -/
def parseInt (s : JsString) : Option Nat :=
  let s := s.dropWhile isWhiteSpace
  let s := if startsWith s (js "+") then sliceFrom s 1 else s
  let digits := s.takeWhile isDigit
  if digits = [] then none else toDouble (digitsValue digits)

/-! ## Doubles -/

/-- Below 2⁵³ a number is its own double. -/
lemma toDouble_of_lt {n : Nat} (h : n < 2 ^ 53) : toDouble n = some n := if_pos h

/-- A multiple of its unit in the last place is a double. -/
lemma toDouble_of_dvd {n : Nat} (h : 2 ^ (n.log2 - 52) ∣ n) (hn : n < 2 ^ 1024) :
    toDouble n = some n := by
  by_cases hsafe : n < 2 ^ 53
  · exact toDouble_of_lt hsafe
  have hulp : 0 < 2 ^ (n.log2 - 52) := Nat.two_pow_pos _
  have hround : ¬ (2 ^ (n.log2 - 52) < 2 * 0 ∨
      2 * 0 = 2 ^ (n.log2 - 52) ∧ n / 2 ^ (n.log2 - 52) % 2 = 1) := by
    omega
  have hexact : n / 2 ^ (n.log2 - 52) * 2 ^ (n.log2 - 52) = n := Nat.div_mul_cancel h
  simp only [toDouble, if_neg hsafe, Nat.mod_eq_zero_of_dvd h, Bool.or_eq_true, Bool.and_eq_true,
    decide_eq_true_eq, if_neg hround, hexact, if_pos hn]

/-! ## Prefixes -/

/-- `startsWith` tests for a prefix. -/
lemma startsWith_iff {s p : JsString} : startsWith s p = true ↔ p <+: s := by
  simp [startsWith]

/-- A string starts with what it was put together from. -/
@[simp] lemma startsWith_append (p s : JsString) : startsWith (p ++ s) p = true := by
  simp [startsWith]

/-! ## Indices and cuts -/

/-- An index is the length of what stands before the first occurrence. -/
lemma indexOf_eq_some {s : JsString} {c : CodeUnit} {i : Nat} :
    indexOf s c = some i ↔ ∃ pre post, s = pre ++ c :: post ∧ c ∉ pre ∧ pre.length = i := by
  induction s generalizing i with
  | nil => simp [indexOf, List.idxOf?]
  | cons d s ih =>
    unfold indexOf at ih ⊢
    rw [List.idxOf?_cons]
    by_cases h : d = c
    · subst h
      simp only [beq_self_eq_true, if_true, Option.some.injEq]
      constructor
      · rintro rfl
        exact ⟨[], s, rfl, by simp, rfl⟩
      · rintro ⟨pre, post, e, hn, rfl⟩
        cases pre with
        | nil => rfl
        | cons x pre => simp_all
    · simp only [beq_iff_eq, h, if_false, Option.map_eq_some_iff]
      constructor
      · rintro ⟨j, hj, rfl⟩
        obtain ⟨pre, post, rfl, hn, rfl⟩ := ih.mp hj
        exact ⟨d :: pre, post, rfl, by simp [hn, Ne.symm h], rfl⟩
      · rintro ⟨pre, post, e, hn, rfl⟩
        cases pre with
        | nil => simp_all
        | cons x pre =>
          simp only [List.cons_append, List.cons.injEq] at e
          obtain ⟨rfl, rfl⟩ := e
          exact ⟨pre.length, ih.mpr ⟨pre, post, rfl, by simp_all, rfl⟩, rfl⟩

/-- A code unit that is not found does not occur. -/
lemma indexOf_eq_none {s : JsString} {c : CodeUnit} : indexOf s c = none ↔ c ∉ s := by
  simp [indexOf]

/-- The first occurrence is the one that is found. -/
lemma indexOf_append {pre post : JsString} {c : CodeUnit} (h : c ∉ pre) :
    indexOf (pre ++ c :: post) c = some pre.length :=
  indexOf_eq_some.mpr ⟨pre, post, rfl, h, rfl⟩

/-- A string is cut where its parts meet. -/
@[simp] lemma sliceTo_append (pre post : JsString) : sliceTo (pre ++ post) pre.length = pre := by
  simp [sliceTo]

/-- What follows a cut is the second part. -/
@[simp] lemma sliceFrom_append (pre post : JsString) :
    sliceFrom (pre ++ post) pre.length = post := by
  simp [sliceFrom]

/-- The part after a separator starts one past its index. -/
@[simp] lemma sliceFrom_append_cons (pre : JsString) (c : CodeUnit) (post : JsString) :
    sliceFrom (pre ++ c :: post) (pre.length + 1) = post := by
  simp [sliceFrom, List.drop_append]

/-- `includes` tests for an occurrence. -/
lemma includes_iff {s : JsString} {c : CodeUnit} : includes s c = true ↔ c ∈ s := by
  simp [includes]

/-- What a string does not include does not occur in it. -/
lemma includes_eq_false {s : JsString} {c : CodeUnit} : includes s c = false ↔ c ∉ s := by
  simp [includes]

/-- The first index of a pattern splits the string around it, and the pattern does not start
earlier. -/
lemma indexOfStr_eq_some {p s : JsString} {i : Nat} (h : indexOfStr p s = some i) :
    ∃ pre post, s = pre ++ p ++ post ∧ pre.length = i ∧
      ∀ j < i, ¬ p <+: s.drop j := by
  induction s generalizing i with
  | nil =>
    simp only [indexOfStr] at h
    split at h
    · rename_i hp
      cases h
      exact ⟨[], [], by simp [hp], rfl, by simp⟩
    · cases h
  | cons c s ih =>
    simp only [indexOfStr] at h
    split at h
    · rename_i hp
      cases h
      obtain ⟨post, e⟩ := List.isPrefixOf_iff_prefix.mp hp
      exact ⟨[], post, by simp [e], rfl, by simp⟩
    · rename_i hp
      obtain ⟨j, hj, rfl⟩ := Option.map_eq_some_iff.mp h
      obtain ⟨pre, post, e, rfl, hfirst⟩ := ih hj
      refine ⟨c :: pre, post, by simp [e], rfl, fun k hk => ?_⟩
      cases k with
      | zero => simpa using hp
      | succ k => simpa using hfirst k (by omega)

/-- A pattern found at an offset is found at it or earlier. -/
lemma indexOfStr_le (p pre post : JsString) :
    ∃ i, indexOfStr p (pre ++ p ++ post) = some i ∧ i ≤ pre.length := by
  induction pre with
  | nil =>
    refine ⟨0, ?_, by simp⟩
    cases hs : p ++ post with
    | nil => simp_all [indexOfStr]
    | cons c s =>
      have : p.isPrefixOf (c :: s) = true := by
        rw [← hs]; simp
      simp [indexOfStr, hs, this]
  | cons c pre ih =>
    obtain ⟨i, hi, hle⟩ := ih
    by_cases h : p.isPrefixOf (c :: (pre ++ p ++ post)) = true
    · exact ⟨0, by simp only [List.cons_append, indexOfStr, h, if_true], by simp⟩
    · exact ⟨i + 1, by simp only [List.cons_append, indexOfStr, h, hi]; simp, by simp; omega⟩

/-- A text that is not found is no part of the string. -/
lemma indexOfStr_eq_none {p s : JsString} : indexOfStr p s = none ↔ ¬ p <:+: s := by
  induction s with
  | nil =>
    rw [List.infix_nil]
    by_cases h : p = [] <;> simp [indexOfStr, h]
  | cons c s ih =>
    rw [List.infix_cons_iff, not_or, ← ih]
    by_cases h : p <+: c :: s
    · simp [indexOfStr, List.isPrefixOf_iff_prefix.mpr h, h]
    · simp [indexOfStr, h]

/-- A pattern is found at once after a part without its first code unit. -/
lemma indexOfStr_append {c : CodeUnit} {p pre : JsString} (post : JsString) (h : c ∉ pre) :
    indexOfStr (c :: p) (pre ++ c :: p ++ post) = some pre.length := by
  induction pre with
  | nil => simp [indexOfStr]
  | cons d pre ih =>
    simp only [List.mem_cons, not_or] at h
    rw [List.cons_append, List.cons_append, indexOfStr, ih h.2]
    simp [h.1]

/-! ## Splitting -/

/-- A split has at least one part. -/
lemma split_ne_nil (c : CodeUnit) (s : JsString) : split c s ≠ [] := by
  cases s with
  | nil => simp [split]
  | cons d s =>
    simp only [split]
    split
    · simp
    · split <;> simp

/-- A string without the separator is its only part. -/
lemma split_of_notMem {c : CodeUnit} {s : JsString} (h : c ∉ s) : split c s = [s] := by
  induction s with
  | nil => rfl
  | cons d s ih =>
    simp only [List.mem_cons, not_or] at h
    simp [split, Ne.symm h.1, ih h.2]

/-- The first part ends at the first separator. -/
lemma split_append_cons {c : CodeUnit} {pre : JsString} (post : JsString) (h : c ∉ pre) :
    split c (pre ++ c :: post) = pre :: split c post := by
  induction pre with
  | nil => simp [split]
  | cons d pre ih =>
    simp only [List.mem_cons, not_or] at h
    simp [split, Ne.symm h.1, ih h.2]

/-- A string with two parts or more is cut at its first separator. -/
lemma eq_of_split_cons {c : CodeUnit} {s part next : JsString} {parts : List JsString}
    (h : split c s = part :: next :: parts) :
    ∃ post, s = part ++ c :: post ∧ c ∉ part ∧ split c post = next :: parts := by
  cases hi : indexOf s c with
  | none =>
    rw [split_of_notMem (indexOf_eq_none.mp hi)] at h
    cases h
  | some i =>
    obtain ⟨pre, post, rfl, hn, -⟩ := indexOf_eq_some.mp hi
    rw [split_append_cons post hn] at h
    obtain ⟨rfl, hparts⟩ := List.cons.inj h
    exact ⟨post, rfl, hn, hparts⟩

/-- A string with one part is that part. -/
lemma eq_of_split_singleton {c : CodeUnit} {s part : JsString} (h : split c s = [part]) :
    s = part ∧ c ∉ part := by
  cases hi : indexOf s c with
  | none =>
    have hn := indexOf_eq_none.mp hi
    rw [split_of_notMem hn] at h
    cases h
    exact ⟨rfl, hn⟩
  | some i =>
    obtain ⟨pre, post, rfl, hn, -⟩ := indexOf_eq_some.mp hi
    rw [split_append_cons post hn] at h
    exact absurd (List.cons.inj h).2 (split_ne_nil c post)

/-- The first part is all that precedes the separator. -/
lemma splitHead_eq_takeWhile (c : CodeUnit) (s : JsString) :
    splitHead c s = s.takeWhile (· != c) := by
  induction s with
  | nil => rfl
  | cons d s ih =>
    unfold splitHead at ih ⊢
    by_cases h : d = c
    · simp [split, h]
    · have hne := split_ne_nil c s
      cases hs : split c s with
      | nil => exact absurd hs hne
      | cons part parts =>
        rw [hs] at ih
        simpa [split, h, hs] using ih

/-- The first part has no separator. -/
lemma notMem_splitHead (c : CodeUnit) (s : JsString) : c ∉ splitHead c s := by
  rw [splitHead_eq_takeWhile]
  intro h
  have := List.mem_takeWhile_imp h
  simp at this

/-- The first part is a prefix. -/
lemma splitHead_isPrefix (c : CodeUnit) (s : JsString) : splitHead c s <+: s := by
  rw [splitHead_eq_takeWhile]
  exact List.takeWhile_prefix _

/-- A string without the separator is its own first part. -/
lemma splitHead_of_notMem {c : CodeUnit} {s : JsString} (h : c ∉ s) : splitHead c s = s := by
  simp [splitHead, split_of_notMem h]

/-- The first part ends where the separator is. -/
lemma splitHead_append_cons {c : CodeUnit} {pre : JsString} (post : JsString) (h : c ∉ pre) :
    splitHead c (pre ++ c :: post) = pre := by
  simp [splitHead, split_append_cons post h]

/-- A prefix without the separator stays a prefix of the first part. -/
lemma startsWith_splitHead {s p : JsString} {c : CodeUnit} (h : startsWith s p = true)
    (hc : c ∉ p) : startsWith (splitHead c s) p = true := by
  rw [startsWith_iff] at h ⊢
  obtain ⟨t, rfl⟩ := h
  rw [splitHead_eq_takeWhile, List.takeWhile_append_of_pos]
  · exact List.prefix_append _ _
  · intro d hd
    simp only [bne_iff_ne]
    rintro rfl
    exact hc hd

/-! ## Replacing and trimming -/

/-- Nothing is replaced where it does not occur. -/
lemma replaceAll_of_notMem {s : JsString} {c d : CodeUnit} (h : c ∉ s) :
    replaceAll s c d = s := by
  rw [replaceAll]
  conv_rhs => rw [← List.map_id s]
  apply List.map_congr_left
  intro u hu
  have hne : u ≠ c := fun he => h (he ▸ hu)
  simp [hne]

/-- Nothing is trimmed where it does not occur. -/
lemma trimEnd_of_notMem {s : JsString} {c : CodeUnit} (h : c ∉ s) : trimEnd s c = s := by
  rw [trimEnd, List.rdropWhile_eq_self_iff]
  intro hne hlast
  exact h (beq_iff_eq.mp hlast ▸ List.getLast_mem hne)

/-- Trimming the end keeps what stands in front. -/
lemma trimEnd_cons {c d : CodeUnit} (h : c ≠ d) (s : JsString) :
    trimEnd (c :: s) d = c :: trimEnd s d := by
  induction s using List.reverseRecOn with
  | nil =>
    rw [trimEnd, List.rdropWhile_singleton, if_neg (by simpa using h)]
    rfl
  | append_singleton s e ih =>
    rw [← List.cons_append, trimEnd, trimEnd, List.rdropWhile_concat, List.rdropWhile_concat]
    split
    · exact ih
    · rfl

/-- Trimming keeps the other code units. -/
lemma mem_trimEnd {s : JsString} {c d : CodeUnit} (h : c ∈ s) (hne : c ≠ d) :
    c ∈ trimEnd s d := by
  rw [trimEnd, List.rdropWhile, List.mem_reverse]
  have hsplit := List.takeWhile_append_dropWhile (p := (· == d)) (l := s.reverse)
  rw [← List.mem_reverse, ← hsplit, List.mem_append] at h
  refine h.resolve_left fun htake => hne ?_
  simpa using List.mem_takeWhile_imp htake

/-- Replacing keeps the length. -/
@[simp] lemma length_replaceAll (s : JsString) (c d : CodeUnit) :
    (replaceAll s c d).length = s.length := by
  simp [replaceAll]

/-- A code unit that is not put in does not appear. -/
lemma notMem_replaceAll {s : JsString} {c d e : CodeUnit} (h : e ∉ s) (hd : e ≠ d) :
    e ∉ replaceAll s c d := by
  intro hm
  obtain ⟨u, hu, rfl⟩ := List.mem_map.mp hm
  split at h
  · rename_i hc
    rw [if_pos hc] at hd
    exact hd rfl
  · exact h hu

/-- Replacing back undoes a replacement by a new code unit. -/
lemma replaceAll_replaceAll {s : JsString} {c d : CodeUnit} (h : d ∉ s) :
    replaceAll (replaceAll s c d) d c = s := by
  induction s with
  | nil => rfl
  | cons u s ih =>
    simp only [List.mem_cons, not_or] at h
    have htail : (replaceAll (replaceAll s c d) d c) = s := ih h.2
    unfold replaceAll at htail ⊢
    by_cases hu : u = c
    · simp [hu, htail]
    · simp [hu, Ne.symm h.1, htail]

/-- The parts after a replacement are the parts between either separator. -/
lemma split_replaceAll (s : JsString) (c d : CodeUnit) :
    split d (replaceAll s c d) = (split d s).flatMap (split c) := by
  induction s with
  | nil => rfl
  | cons u s ih =>
    have hcons : replaceAll (u :: s) c d = (if u = c then d else u) :: replaceAll s c d := rfl
    rw [hcons]
    by_cases hd : u = d
    · simp [split, hd, ih]
    · cases hs : split d s with
      | nil => exact absurd hs (split_ne_nil d s)
      | cons part parts =>
        rw [hs, List.flatMap_cons] at ih
        by_cases hu : u = c
        · subst hu
          simp [split, hd, hs, ih]
        · cases hp : split c part with
          | nil => exact absurd hp (split_ne_nil c part)
          | cons q qs =>
            rw [hp, List.cons_append] at ih
            simp [split, hd, hu, hs, hp, ih]

/-- Splitting is split at every separator. -/
lemma split_append (s t : JsString) (c : CodeUnit) :
    split c (s ++ c :: t) = split c s ++ split c t := by
  induction s with
  | nil => simp [split]
  | cons d s ih =>
    by_cases hd : d = c
    · simp [split, hd, ih]
    · cases hs : split c s with
      | nil => exact absurd hs (split_ne_nil c s)
      | cons part parts =>
        rw [hs] at ih
        simp [split, hd, hs, ih]

/-- A part has no separator, and is made of the string's code units. -/
lemma of_mem_split {c : CodeUnit} {s part : JsString} (h : part ∈ split c s) :
    c ∉ part ∧ part ⊆ s := by
  induction s generalizing part with
  | nil =>
    obtain rfl := List.mem_singleton.mp h
    exact ⟨List.not_mem_nil, List.Subset.refl _⟩
  | cons d s ih =>
    by_cases hd : d = c
    · rw [split, if_pos hd] at h
      cases h with
      | head => exact ⟨List.not_mem_nil, List.nil_subset _⟩
      | tail _ h =>
        obtain ⟨hc, hs⟩ := ih h
        exact ⟨hc, List.subset_cons_of_subset d hs⟩
    · cases hs : split c s with
      | nil => exact absurd hs (split_ne_nil c s)
      | cons head parts =>
        rw [split, if_neg hd, hs] at h
        rw [hs] at ih
        cases h with
        | head =>
          -- `d` joins the part behind it
          obtain ⟨hc, hsub⟩ := ih List.mem_cons_self
          refine ⟨?_, List.cons_subset_cons d hsub⟩
          rw [List.mem_cons, not_or]
          exact ⟨Ne.symm hd, hc⟩
        | tail _ h =>
          obtain ⟨hc, hsub⟩ := ih (List.mem_cons_of_mem head h)
          exact ⟨hc, List.subset_cons_of_subset d hsub⟩

/-- A string without empty parts has no separator at its end to trim. -/
lemma trimEnd_of_split {s : JsString} {c : CodeUnit} (h : [] ∉ split c s) : trimEnd s c = s := by
  rw [trimEnd, List.rdropWhile_eq_self_iff]
  intro hne hlast
  have e : s = s.dropLast ++ c :: [] := by
    conv_lhs => rw [← List.dropLast_append_getLast hne, beq_iff_eq.mp hlast]
  rw [e, split_append] at h
  exact h (by simp [split])

/-- A string splits around a pattern that occurs in it once, at a code unit found nowhere else. -/
lemma splitStr_append {c : CodeUnit} {p pre post : JsString} (hpre : c ∉ pre) (hpost : c ∉ post) :
    splitStr (c :: p) (pre ++ c :: p ++ post) = [pre, post] := by
  have hskip (skip acc rest : JsString) :
      splitStrAux (c :: p) skip.length acc (skip ++ rest) = splitStrAux (c :: p) 0 acc rest := by
    induction skip with
    | nil => rfl
    | cons d skip ih => exact ih
  have hrun (part acc rest : JsString) (h : c ∉ part) :
      splitStrAux (c :: p) 0 acc (part ++ rest) =
        splitStrAux (c :: p) 0 (part.reverse ++ acc) rest := by
    induction part generalizing acc with
    | nil => rfl
    | cons d part ih =>
      simp only [List.mem_cons, not_or] at h
      rw [List.cons_append, splitStrAux]
      simp [h.1, ih (d :: acc) h.2]
  have hend := hrun post [] [] hpost
  rw [List.append_nil] at hend
  rw [splitStr, List.append_assoc, hrun _ _ _ hpre, List.cons_append, splitStrAux]
  simp only [List.isPrefixOf_cons_cons, beq_self_eq_true, Bool.true_and]
  rw [if_pos (by simp), List.length_cons, Nat.add_sub_cancel, hskip, hend]
  simp [splitStrAux]

/-! ## Numbers as text -/

/-- The code points of the digits. -/
lemma toNat_of_isDigit {c : Char} (h : c.isDigit = true) : 0x30 ≤ c.toNat ∧ c.toNat ≤ 0x39 := by
  simp only [Char.isDigit, Bool.and_eq_true, decide_eq_true_eq] at h
  exact ⟨UInt32.le_iff_toNat_le.mp h.1, UInt32.le_iff_toNat_le.mp h.2⟩

/-- The text of a number is its decimal digits. -/
lemma digitsValue_natText (n : Nat) : digitsValue (natText n) = n := by
  have hstep (l : List Char) (hl : ∀ c ∈ l, c.isDigit = true) (acc : Nat) :
      (l.flatMap utf16).foldl (fun n c => 10 * n + (c.toNat - 0x30)) acc =
        Nat.ofDigitChars 10 l acc := by
    induction l generalizing acc with
    | nil => rfl
    | cons c l ih =>
      obtain ⟨hc, hl⟩ := List.forall_mem_cons.mp hl
      obtain ⟨hlo, hhi⟩ := toNat_of_isDigit hc
      have hunit : utf16 c = [c.toNat.toUInt16] := by
        rw [utf16, if_pos (by omega)]
      have htoNat : c.toNat.toUInt16.toNat = c.toNat := by
        simp only [Nat.toUInt16_eq, UInt16.toNat_ofNat']
        omega
      rw [List.flatMap_cons, hunit, List.singleton_append, List.foldl_cons, ih hl, htoNat,
        Nat.ofDigitChars_cons]
      rfl
  rw [digitsValue, natText, js, Nat.toList_repr]
  rw [hstep _ (fun c hc => Nat.isDigit_of_mem_toDigits (by decide) (by decide) hc)]
  exact Nat.ofDigitChars_ten_toDigits

/-- A number is printed in digits. -/
lemma isDigit_of_mem_natText {n : Nat} {c : CodeUnit} (h : c ∈ natText n) : isDigit c = true := by
  rw [natText, js, Nat.toList_repr] at h
  obtain ⟨d, hd, hc⟩ := List.mem_flatMap.mp h
  obtain ⟨hlo, hhi⟩ := toNat_of_isDigit (Nat.isDigit_of_mem_toDigits (by decide) (by decide) hd)
  rw [utf16, if_pos (by omega), List.mem_singleton] at hc
  have hval : c.toNat = d.toNat := by
    rw [hc, Nat.toUInt16_eq, UInt16.toNat_ofNat']
    omega
  simp only [isDigit, Bool.and_eq_true, decide_eq_true_eq, UInt16.le_iff_toNat_le, hval]
  exact ⟨hlo, hhi⟩

/-- Numbers with one text are equal. -/
lemma natText_injective : Function.Injective natText := by
  intro m n h
  rw [← digitsValue_natText m, h, digitsValue_natText]

end Js
