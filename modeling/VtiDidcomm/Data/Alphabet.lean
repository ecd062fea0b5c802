import Mathlib.Data.List.GetD
import Mathlib.Data.List.Nodup

/-!
# Alphabets

An alphabet is the list of its characters, in the order of the digits they stand for. Where no
character stands for two digits, looking a character up and reading a digit are inverse to each
other, and the texts over the alphabet are the lists of digits (`exists_digits`, `map_inj`).
-/

namespace Data.Alphabet

variable {α : Type} [BEq α] [LawfulBEq α] {chars : List α} {x c : α} {d e : Nat}

/-- A character is looked up at the place it was taken from. -/
lemma lookup_getD (hnodup : chars.Nodup) (h : d < chars.length) :
    chars.idxOf? (chars.getD d x) = some d := by
  rw [List.idxOf?_eq_some_iff, List.getD_eq_getElem chars x h]
  refine ⟨h, rfl, ?_⟩
  intro i hi hsame
  exact Nat.ne_of_lt hi ((hnodup.getElem_inj_iff).mp hsame)

/-- Looking up inverts indexing. -/
lemma lookup_eq_some (hnodup : chars.Nodup) :
    chars.idxOf? c = some d ↔ d < chars.length ∧ c = chars.getD d x := by
  constructor
  · intro h
    obtain ⟨hd, hc, -⟩ := List.idxOf?_eq_some_iff.mp h
    exact ⟨hd, by rw [List.getD_eq_getElem chars x hd, hc]⟩
  · intro h
    rw [h.2]
    exact lookup_getD hnodup h.1

omit [BEq α] [LawfulBEq α] in
/-- Distinct places have distinct characters. -/
lemma getD_inj (hnodup : chars.Nodup) (hd : d < chars.length) (he : e < chars.length) :
    chars.getD d x = chars.getD e x ↔ d = e := by
  rw [List.getD_eq_getElem chars x hd, List.getD_eq_getElem chars x he]
  exact hnodup.getElem_inj_iff

/-- The characters of an alphabet are those at its places. -/
lemma mem_iff (hnodup : chars.Nodup) : c ∈ chars ↔ ∃ d < chars.length, c = chars.getD d x := by
  rw [← List.isSome_idxOf?, Option.isSome_iff_exists]
  exact exists_congr fun _ => lookup_eq_some hnodup

/-- A text over the alphabet is a text of digits. -/
lemma exists_digits (hnodup : chars.Nodup) {s : List α} (h : ∀ c ∈ s, c ∈ chars) :
    ∃ ds : List Nat, s = ds.map (chars.getD · x) ∧ ∀ d ∈ ds, d < chars.length := by
  induction s with
  | nil => exact ⟨[], rfl, by simp⟩
  | cons c s ih =>
    obtain ⟨hc, hs⟩ := List.forall_mem_cons.mp h
    obtain ⟨d, hd, hcd⟩ := (mem_iff hnodup).mp hc
    obtain ⟨ds, hds, hlt⟩ := ih hs
    exact ⟨d :: ds, by rw [hcd, hds]; rfl, List.forall_mem_cons.mpr ⟨hd, hlt⟩⟩

omit [BEq α] [LawfulBEq α] in
/-- Digits are told apart by their text. -/
lemma map_inj (hnodup : chars.Nodup) {ds es : List Nat} (hds : ∀ d ∈ ds, d < chars.length)
    (hes : ∀ e ∈ es, e < chars.length) :
    ds.map (chars.getD · x) = es.map (chars.getD · x) ↔ ds = es := by
  constructor
  · intro h
    induction ds generalizing es with
    | nil => exact (List.map_eq_nil_iff.mp h.symm).symm
    | cons d ds ih =>
      cases es with
      | nil => cases h
      | cons e es =>
        obtain ⟨hd, hds⟩ := List.forall_mem_cons.mp hds
        obtain ⟨he, hes⟩ := List.forall_mem_cons.mp hes
        obtain ⟨hde, h⟩ := List.cons.inj h
        rw [(getD_inj hnodup hd he).mp hde, ih hds hes h]
  · exact congrArg _

end Data.Alphabet
