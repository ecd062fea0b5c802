import Mathlib.Algebra.Order.BigOperators.Group.Finset
import VtiDidcomm.Lts.Run
import VtiDidcomm.Lts.Threads

/-!
# Ranked threads

Threads whose phases have a rank that goes down with every move, in a system whose events say which
thread they are of and whether they are its last. `Told` is what the events of a run tell: a thread
that waits has not told its end, one that has ended told it once, and none tells more than its rank
allows. `work` bounds the moves that are left.
-/

namespace Lts

namespace Threads

variable {φ ε : Type*} {rank : φ → Nat} {bound : Nat} {owner : ε → Option Nat} {final : ε → Bool}

/-- The rank of where a thread waits. -/
def rankOf (rank : φ → Nat) : Option φ → Nat
  | none => 0
  | some p => rank p + 1

variable (rank bound owner final) in
/-- A step on the threads: a thread starts, a thread goes on, or none does anything. -/
inductive Advances (t : Threads φ) : ε → Threads φ → Prop where
  | starts {p e} : owner e = some t.next → final e = p.isNone → rankOf rank p ≤ bound →
    Advances t e (t.start p)
  | moves {i p q e} : t.phase i = some p → owner e = some i → final e = q.isNone →
    rankOf rank q < rankOf rank (some p) → Advances t e (t.move i q)
  | idle {e} : owner e = none → Advances t e t

variable (owner) in
/-- The events of a thread. -/
def eventsOf (i : Nat) (tr : List ε) : List ε :=
  tr.filter (owner · = some i)

variable (rank bound owner final) in
/-- What a run has told of its threads. -/
structure Told (t : Threads φ) (tr : List ε) : Prop where
  started : ∀ i < t.next, (eventsOf owner i tr).length + rankOf rank (t.phase i) ≤ bound + 1 ∧
    (eventsOf owner i tr).countP final = if t.phase i = none then 1 else 0
  fresh : ∀ i, t.next ≤ i → eventsOf owner i tr = []

/-- Nothing is told before a thread starts. -/
lemma told_empty : Told rank bound owner final empty [] where
  started i hi := absurd hi (Nat.not_lt_zero i)
  fresh _ _ := rfl

/-- An event of another thread is not among a thread's own. -/
lemma eventsOf_snoc_of_ne {i : Nat} {tr : List ε} {e : ε} (h : owner e ≠ some i) :
    eventsOf owner i (tr ++ [e]) = eventsOf owner i tr := by
  simp [eventsOf, h]

/-- An event of a thread is its last one. -/
lemma eventsOf_snoc {i : Nat} {tr : List ε} {e : ε} (h : owner e = some i) :
    eventsOf owner i (tr ++ [e]) = eventsOf owner i tr ++ [e] := by
  simp [eventsOf, h]

/-- What a run has told is kept by every step. -/
lemma Told.advances {t t' : Threads φ} {tr : List ε} {e : ε} (h : Told rank bound owner final t tr)
    (hs : Advances rank bound owner final t e t') : Told rank bound owner final t' (tr ++ [e]) := by
  cases hs with
  | @starts p _ howner hfinal hrank =>
    have hne {i : Nat} (hi : i ≠ t.next) : owner e ≠ some i := by
      rw [howner]
      simpa using Ne.symm hi
    refine ⟨fun i hi => ?_, fun i hi => ?_⟩
    · obtain rfl | hlt := Nat.eq_or_lt_of_le (Nat.le_of_lt_succ hi)
      · -- the new thread, which had told nothing
        rw [eventsOf_snoc howner, h.fresh _ (Nat.le_refl _), phase_start_next]
        refine ⟨by simp; omega, ?_⟩
        cases p <;> simp_all
      · rw [eventsOf_snoc_of_ne (hne (Nat.ne_of_lt hlt))]
        have hphase : (t.start p).phase i = t.phase i :=
          Function.update_of_ne (Nat.ne_of_lt hlt) ..
        rw [hphase]
        exact h.started i hlt
    · have hi : t.next < i := hi
      rw [eventsOf_snoc_of_ne (hne (Nat.ne_of_gt hi))]
      exact h.fresh i (Nat.le_of_lt hi)
  | @moves j p q _ hp howner hfinal hrank =>
    have hne {i : Nat} (hi : i ≠ j) : owner e ≠ some i := by
      rw [howner]
      simpa using Ne.symm hi
    refine ⟨fun i hi => ?_, fun i hi => ?_⟩
    · by_cases hij : i = j
      · subst hij
        obtain ⟨hlen, hcount⟩ := h.started i (lt_next hp)
        rw [eventsOf_snoc howner, phase_move_self hp]
        rw [hp] at hlen hcount
        refine ⟨by simp only [List.length_append, List.length_singleton]; omega, ?_⟩
        rw [List.countP_append, hcount]
        cases q <;> simp_all
      · rw [eventsOf_snoc_of_ne (hne hij), phase_move_of_ne hij]
        exact h.started i hi
    · have hi : t.next ≤ i := hi
      have hij : i ≠ j := by
        have := lt_next hp
        omega
      rw [eventsOf_snoc_of_ne (hne hij)]
      exact h.fresh i hi
  | idle howner =>
    refine ⟨fun i hi => ?_, fun i hi => ?_⟩
    · rw [eventsOf_snoc_of_ne (by simp [howner])]
      exact h.started i hi
    · rw [eventsOf_snoc_of_ne (by simp [howner])]
      exact h.fresh i hi

/-! ## The work left -/

/-- How many moves the threads have left at most. -/
def work (rank : φ → Nat) (t : Threads φ) : Nat :=
  (Finset.range t.next).sum fun i => rankOf rank (t.phase i)

/-- A thread that moves down leaves less work. -/
lemma work_move_lt {t : Threads φ} {i : Nat} {p : φ} {q : Option φ} (hp : t.phase i = some p)
    (hrank : rankOf rank q < rankOf rank (some p)) : work rank (t.move i q) < work rank t := by
  have hi : i < t.next := lt_next hp
  refine Finset.sum_lt_sum (fun j _ => ?_) ⟨i, Finset.mem_range.mpr hi, ?_⟩
  · by_cases hj : j = i
    · rw [hj, phase_move_self hp, hp]
      exact Nat.le_of_lt hrank
    · rw [phase_move_of_ne hj]
  · rw [phase_move_self hp, hp]
    exact hrank

/-- A run in which every step moves a thread is no longer than the work it does. -/
lemma length_add_work_le {σ : Type*} {step : σ → List ε → σ → Prop} {threads : σ → Threads φ}
    (h : ∀ {s evs s'}, step s evs s' → evs.length = 1 ∧ work rank (threads s') < work rank (threads s))
    {s s' : σ} {tr : List ε} (r : Run step s tr s') :
    tr.length + work rank (threads s') ≤ work rank (threads s) := by
  induction r with
  | nil => simp
  | snoc _ hs ih =>
    obtain ⟨hlen, hlt⟩ := h hs
    rw [List.length_append, hlen]
    omega

end Threads

end Lts
