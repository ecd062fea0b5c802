import Mathlib.Data.List.Basic
import Mathlib.Tactic.Lemma

/-!
# Maps in order of last use

A map bounded by `limit`, as the list of its entries, the least recently used first. `touch` is a
use of a key that is there, `put` the storing of an entry: a full map drops its least recently used
entry, unless the key was there already.
-/

namespace Lru

variable {K V : Type*} [DecidableEq K]

/-- The entries of the other keys. -/
def without (k : K) (m : List (K × V)) : List (K × V) := m.filter (·.1 ≠ k)

/-- A use of `k`. -/
def touch (k : K) (m : List (K × V)) : List (K × V) := without k m ++ m.filter (·.1 = k)

/-- The other entries when `k` is stored. -/
def makeRoom (limit : Nat) (k : K) (m : List (K × V)) : List (K × V) :=
  if limit ≤ (without k m).length then (without k m).tail else without k m

/-- A store of `v` under `k`. -/
def put (limit : Nat) (k : K) (v : V) (m : List (K × V)) : List (K × V) :=
  makeRoom limit k m ++ [(k, v)]

/-- A key that is not there is dropped for free. -/
lemma without_of_notMem {k : K} {m : List (K × V)} (h : k ∉ m.map Prod.fst) : without k m = m := by
  rw [without, List.filter_eq_self]
  intro e he
  rw [decide_eq_true_eq]
  rintro rfl
  exact h (List.mem_map_of_mem he)

omit [DecidableEq K] in
/-- A key of distinct keys stands in one place. -/
lemma notMem_around {k : K} {v : V} {pre post : List (K × V)}
    (h : ((pre ++ (k, v) :: post).map Prod.fst).Nodup) :
    k ∉ pre.map Prod.fst ∧ k ∉ post.map Prod.fst := by
  simp only [List.map_append, List.map_cons, List.nodup_append, List.nodup_cons] at h
  obtain ⟨-, ⟨hpost, -⟩, hdisj⟩ := h
  exact ⟨fun hk => hdisj k hk k (by simp) rfl, hpost⟩

/-- Dropping a key takes out its entry. -/
lemma without_append {k : K} {v : V} {pre post : List (K × V)}
    (h : ((pre ++ (k, v) :: post).map Prod.fst).Nodup) :
    without k (pre ++ (k, v) :: post) = pre ++ post := by
  obtain ⟨hpre, hpost⟩ := notMem_around h
  have e : without k (pre ++ (k, v) :: post) = without k pre ++ without k post := by
    simp [without]
  rw [e, without_of_notMem hpre, without_of_notMem hpost]

/-- A key that is not there has no entry. -/
private lemma filter_key_of_notMem {k : K} {m : List (K × V)}
    (h : k ∉ m.map Prod.fst) : m.filter (·.1 = k) = [] := by
  rw [List.filter_eq_nil_iff]
  intro e he hk
  exact h (of_decide_eq_true hk ▸ List.mem_map_of_mem he)

/-- Touching a key that is not there changes nothing. -/
lemma touch_of_notMem {k : K} {m : List (K × V)} (h : k ∉ m.map Prod.fst) : touch k m = m := by
  rw [touch, without_of_notMem h, filter_key_of_notMem h, List.append_nil]

/-- Touching moves the entry to the end. -/
lemma touch_append {k : K} {v : V} {pre post : List (K × V)}
    (h : ((pre ++ (k, v) :: post).map Prod.fst).Nodup) :
    touch k (pre ++ (k, v) :: post) = pre ++ post ++ [(k, v)] := by
  obtain ⟨hpre, hpost⟩ := notMem_around h
  rw [touch, without_append h]
  simp [filter_key_of_notMem hpre, filter_key_of_notMem hpost]

/-- There is room below the limit. -/
lemma makeRoom_of_lt {limit : Nat} {k : K} {m : List (K × V)}
    (h : (without k m).length < limit) : makeRoom limit k m = without k m := by
  rw [makeRoom, if_neg (Nat.not_le.mpr h)]

/-- A full map without `k` drops its least recently used entry. -/
lemma makeRoom_full {limit : Nat} {k : K} {m : List (K × V)} (hk : k ∉ m.map Prod.fst)
    (h : limit ≤ m.length) : makeRoom limit k m = m.tail := by
  rw [makeRoom, without_of_notMem hk, if_pos h]

end Lru
