import Mathlib.Logic.Function.Basic
import Mathlib.Tactic.Lemma

/-!
# Threads

Any number of threads, numbered as they start; `phase i` is where thread `i` waits, `none` when it
has ended or not started. `Each` says what every waiting thread satisfies, and `Alone` that at most
one is in a section; their lemmas say what a thread that starts or moves does to both.
-/

namespace Lts

/-- Threads, each in a phase. -/
structure Threads (φ : Type*) where
  phase : Nat → Option φ
  next : Nat
  fresh : ∀ i, next ≤ i → phase i = none

namespace Threads

variable {φ : Type*}

/-- No threads. -/
def empty : Threads φ := ⟨fun _ => none, 0, fun _ _ => rfl⟩

/-- Starts the next thread; `none` when it ends at once. -/
def start (t : Threads φ) (p : Option φ) : Threads φ where
  phase := Function.update t.phase t.next p
  next := t.next + 1
  fresh i hi := by
    rw [Function.update_of_ne (by omega)]
    exact t.fresh i (by omega)

/-- Moves a thread that has started, or ends it. -/
def move (t : Threads φ) (i : Nat) (p : Option φ) : Threads φ where
  phase := if i < t.next then Function.update t.phase i p else t.phase
  next := t.next
  fresh j hj := by
    split
    · rw [Function.update_of_ne (by omega)]
      exact t.fresh j hj
    · exact t.fresh j hj

/-- A thread that has a phase was started. -/
lemma lt_next {t : Threads φ} {i : Nat} {p : φ} (h : t.phase i = some p) : i < t.next := by
  by_contra hle
  rw [t.fresh i (by omega)] at h
  cases h

@[simp] lemma next_move (t : Threads φ) (i : Nat) (p : Option φ) : (t.move i p).next = t.next := rfl

@[simp] lemma next_start (t : Threads φ) (p : Option φ) : (t.start p).next = t.next + 1 := rfl

/-- A thread in a phase after a move moved there, or was there. -/
lemma of_phase_move {t : Threads φ} {i j : Nat} {p : Option φ} {q : φ}
    (h : (t.move i p).phase j = some q) : j = i ∧ p = some q ∨ j ≠ i ∧ t.phase j = some q := by
  have hlt : j < t.next := lt_next (t := t.move i p) h
  by_cases hji : j = i
  · subst hji
    simp only [move, if_pos hlt, Function.update_self] at h
    exact .inl ⟨rfl, h⟩
  · refine .inr ⟨hji, ?_⟩
    simp only [move] at h
    split at h
    · rwa [Function.update_of_ne hji] at h
    · exact h

/-- After a start, the threads are the old ones and the new one. -/
lemma of_phase_start {t : Threads φ} {j : Nat} {p : Option φ} {q : φ}
    (h : (t.start p).phase j = some q) :
    j = t.next ∧ p = some q ∨ j ≠ t.next ∧ t.phase j = some q := by
  by_cases hj : j = t.next
  · subst hj
    simp only [start, Function.update_self] at h
    exact .inl ⟨rfl, h⟩
  · simp only [start] at h
    rw [Function.update_of_ne hj] at h
    exact .inr ⟨hj, h⟩

/-- A thread that moves is in its new phase. -/
lemma phase_move_self {t : Threads φ} {i : Nat} {p : φ} (h : t.phase i = some p) (q : Option φ) :
    (t.move i q).phase i = q := by
  simp only [move, if_pos (lt_next h), Function.update_self]

/-- The other threads stay in theirs. -/
lemma phase_move_of_ne {t : Threads φ} {i j : Nat} (h : j ≠ i) (q : Option φ) :
    (t.move i q).phase j = t.phase j := by
  simp only [move]
  split
  · exact Function.update_of_ne h ..
  · rfl

@[simp] lemma phase_start_next (t : Threads φ) (p : Option φ) : (t.start p).phase t.next = p := by
  simp [start]

/-- A start leaves the threads that run. -/
lemma phase_start_of_some {t : Threads φ} {j : Nat} {q : φ} (h : t.phase j = some q)
    (p : Option φ) : (t.start p).phase j = some q := by
  have hne : j ≠ t.next := Nat.ne_of_lt (lt_next h)
  simp only [start]
  rw [Function.update_of_ne hne]
  exact h

/-! ## What every thread satisfies -/

/-- Every waiting thread satisfies `G`. -/
def Each (G : Nat → φ → Prop) (t : Threads φ) : Prop := ∀ i p, t.phase i = some p → G i p

/-- There is no thread at first. -/
lemma each_empty (G : Nat → φ → Prop) : Each G empty := nofun

/-- A weaker property holds of each thread too. -/
lemma Each.imp {G G' : Nat → φ → Prop} {t : Threads φ} (h : Each G t)
    (hG : ∀ i p, G i p → G' i p) : Each G' t :=
  fun i p hp => hG i p (h i p hp)

/-- After a move, what the other threads satisfied and what the moved one came to is each. -/
lemma each_move {G : Nat → φ → Prop} {t : Threads φ} {i : Nat} {p : Option φ}
    (h : ∀ j q, j ≠ i → t.phase j = some q → G j q) (hp : ∀ q, p = some q → G i q) :
    Each G (t.move i p) := by
  intro j q hq
  obtain ⟨rfl, hpq⟩ | ⟨hji, hj⟩ := of_phase_move hq
  · exact hp q hpq
  · exact h j q hji hj

/-- A property of each thread is kept when it holds of the one that moves. -/
lemma Each.move {G : Nat → φ → Prop} {t : Threads φ} (h : Each G t) {i : Nat} {p : Option φ}
    (hp : ∀ q, p = some q → G i q) : Each G (t.move i p) :=
  each_move (fun j q _ hj => h j q hj) hp

/-- A property of each thread is kept when it holds of the one that starts. -/
lemma Each.start {G : Nat → φ → Prop} {t : Threads φ} (h : Each G t) {p : Option φ}
    (hp : ∀ q, p = some q → G t.next q) : Each G (t.start p) := by
  intro j q hq
  obtain ⟨rfl, hpq⟩ | ⟨-, hj⟩ := of_phase_start hq
  · exact hp q hpq
  · exact h j q hj

/-! ## Sections -/

/-- At most one thread is in the section `W`. -/
def Alone (W : φ → Prop) (t : Threads φ) : Prop :=
  ∀ i j p q, t.phase i = some p → t.phase j = some q → W p → W q → i = j

/-- There is no thread to be alone. -/
lemma alone_empty (W : φ → Prop) : Alone W empty := nofun

/-- A thread that does not start in the section leaves it as it is. -/
lemma Alone.start {W : φ → Prop} {t : Threads φ} (h : Alone W t) {p : Option φ}
    (hp : ∀ q, p = some q → ¬ W q) : Alone W (t.start p) := by
  intro i j q r hi hj hq hr
  obtain ⟨-, hpq⟩ | ⟨-, hi⟩ := of_phase_start hi
  · exact absurd hq (hp q hpq)
  obtain ⟨-, hpr⟩ | ⟨-, hj⟩ := of_phase_start hj
  · exact absurd hr (hp r hpr)
  exact h i j q r hi hj hq hr

/-- A thread may move within the section, out of it, and into it when no other is there. -/
lemma Alone.move {W : φ → Prop} {t : Threads φ} (h : Alone W t) {i : Nat} {p : Option φ}
    (hp : ∀ q, p = some q → W q → ∀ j r, j ≠ i → t.phase j = some r → ¬ W r) :
    Alone W (t.move i p) := by
  intro j k q r hj hk hq hr
  obtain ⟨rfl, hpq⟩ | ⟨hji, hj'⟩ := of_phase_move hj
  · obtain ⟨rfl, -⟩ | ⟨hkj, hk'⟩ := of_phase_move hk
    · rfl
    · exact absurd hr (hp q hpq hq k r hkj hk')
  · obtain ⟨rfl, hpr⟩ | ⟨-, hk'⟩ := of_phase_move hk
    · exact absurd hq (hp r hpr hr j q hji hj')
    · exact h j k q r hj' hk' hq hr

end Threads

end Lts
