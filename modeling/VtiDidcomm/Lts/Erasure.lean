import Mathlib.Data.Nat.Count
import VtiDidcomm.Lts.Threads

/-!
# Threads left out

Comparing threads with the same threads but for some, `out`, that never started. The threads that
stay are numbered anew (`renumber`), as they would have been without the others. `Without` is the
relation, and its lemmas say that it is kept when a thread starts or moves: on both sides for a
thread that stays, on one side for one that is left out.
-/

namespace Lts

variable (out : Nat → Prop) [DecidablePred out]

/-- The number of a thread when those of `out` have not started. -/
def renumber (i : Nat) : Nat := Nat.count (fun j => ¬ out j) i

variable {out}

/-- A thread that stays takes the next number. -/
lemma renumber_succ {i : Nat} (h : ¬ out i) : renumber out (i + 1) = renumber out i + 1 :=
  Nat.count_succ_eq_succ_count_iff.mpr h

/-- A thread that is left out takes none. -/
lemma renumber_succ_out {i : Nat} (h : out i) : renumber out (i + 1) = renumber out i :=
  Nat.count_succ_eq_count_iff.mpr (not_not.mpr h)

/-- Numbers below every thread that is left out stay. -/
lemma renumber_eq_self {n : Nat} (h : ∀ i, out i → n ≤ i) : renumber out n = n :=
  Nat.count_iff_forall.mpr fun i hi hout => absurd (h i hout) (by omega)

/-- Renumbering keeps the order. -/
lemma renumber_mono {i j : Nat} (h : i ≤ j) : renumber out i ≤ renumber out j :=
  Nat.count_monotone _ h

/-- A thread that stays keeps its place in the order. -/
lemma renumber_lt_iff {i j : Nat} (h : ¬ out i) : renumber out i < renumber out j ↔ i < j :=
  ⟨Nat.lt_of_count_lt_count, Nat.count_strict_mono h⟩

/-- Threads that stay have numbers of their own. -/
lemma renumber_injective {i j : Nat} (hi : ¬ out i) (hj : ¬ out j)
    (h : renumber out i = renumber out j) : i = j :=
  Nat.count_injective hi hj h

namespace Threads

variable {φ : Type*} {t t' : Threads φ}

variable (out) in
/-- The threads `t'` are the threads `t` without those of `out`. -/
structure Without (t t' : Threads φ) : Prop where
  next : t'.next = renumber out t.next
  phase : ∀ i, ¬ out i → t'.phase (renumber out i) = t.phase i

/-- Threads that have not started are left out of nothing. -/
lemma without_self (h : ∀ i, out i → t.next ≤ i) : Without out t t where
  next := (renumber_eq_self h).symm
  phase i _ := by
    by_cases hi : i < t.next
    · rw [renumber_eq_self fun j hj => Nat.le_trans (Nat.le_of_lt hi) (h j hj)]
    · -- neither number has started
      have hle : t.next ≤ i := by omega
      have hle' : renumber out t.next ≤ renumber out i := renumber_mono hle
      rw [renumber_eq_self h] at hle'
      rw [t.fresh _ hle', t.fresh _ hle]

/-- A thread that stays starts on both sides. -/
lemma Without.start (h : Without out t t') (hin : ¬ out t.next) (p : Option φ) :
    Without out (t.start p) (t'.start p) where
  next := by simp [h.next, renumber_succ hin]
  phase i hi := by
    simp only [Threads.start, h.next]
    by_cases hnext : i = t.next
    · subst hnext
      simp
    · rw [Function.update_of_ne hnext,
        Function.update_of_ne fun heq => hnext (renumber_injective hi hin heq)]
      exact h.phase i hi

/-- A thread that is left out starts on one side only. -/
lemma Without.start_out (h : Without out t t') (hout : out t.next) (p : Option φ) :
    Without out (t.start p) t' where
  next := by simp [h.next, renumber_succ_out hout]
  phase i hi := by
    have hne : i ≠ t.next := fun heq => hi (heq ▸ hout)
    simp only [Threads.start]
    rw [Function.update_of_ne hne]
    exact h.phase i hi

/-- A thread that stays moves on both sides. -/
lemma Without.move (h : Without out t t') {j : Nat} (hin : ¬ out j) (p : Option φ) :
    Without out (t.move j p) (t'.move (renumber out j) p) where
  next := h.next
  phase i hi := by
    simp only [Threads.move, h.next, renumber_lt_iff hin]
    split
    · by_cases hij : i = j
      · subst hij
        simp
      · rw [Function.update_of_ne hij,
          Function.update_of_ne fun heq => hij (renumber_injective hi hin heq)]
        exact h.phase i hi
    · exact h.phase i hi

/-- A thread that is left out moves on one side only. -/
lemma Without.move_out (h : Without out t t') {j : Nat} (hout : out j) (p : Option φ) :
    Without out (t.move j p) t' where
  next := h.next
  phase i hi := by
    have hne : i ≠ j := fun heq => hi (heq ▸ hout)
    rw [phase_move_of_ne hne]
    exact h.phase i hi

end Threads

end Lts
