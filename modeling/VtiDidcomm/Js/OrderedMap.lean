import Mathlib.Data.List.Nodup
import Mathlib.Data.List.Perm.Subperm
import Mathlib.Tactic.Lemma

/-!
# Insertion-ordered maps

The JavaScript `Map`: entries in the order their keys were first inserted, one entry per key. A
`set` of a present key updates it in place; a key that is deleted and set again goes to the back.
`makeRoom` is the eviction loop such a map is bounded with: while it holds `capacity` entries, drop
the oldest.

`mem_entries` says what a map holds; the operations are specified by membership and every `get`
lemma is read off from there.
-/

namespace Js

/-- A map that remembers insertion order. -/
structure OrderedMap (K V : Type*) where
  /-- The entries, oldest first. -/
  entries : List (K × V)
  /-- A key has one entry. -/
  nodup : (entries.map Prod.fst).Nodup

namespace OrderedMap

variable {K V : Type*} [DecidableEq K]

/-- `new Map()` -/
def empty : OrderedMap K V := ⟨[], by simp⟩

/-- `m.get(k)` -/
def get (m : OrderedMap K V) (k : K) : Option V := (m.entries.find? (·.1 = k)).map Prod.snd

/-- `m.has(k)` -/
def has (m : OrderedMap K V) (k : K) : Bool := m.entries.any (·.1 = k)

/-- `m.size` -/
def size (m : OrderedMap K V) : Nat := m.entries.length

/-- The part of a map that keeps some of its entries, in order. -/
def keep (m : OrderedMap K V) (l : List (K × V)) (h : l.Sublist m.entries) : OrderedMap K V :=
  ⟨l, m.nodup.sublist (h.map _)⟩

/-- `m.delete(k)` -/
def delete (m : OrderedMap K V) (k : K) : OrderedMap K V :=
  m.keep (m.entries.filter (·.1 ≠ k)) List.filter_sublist

/-- Setting an entry keeps the keys distinct. -/
private lemma nodup_set (m : OrderedMap K V) (k : K) (v : V) :
    ((if m.has k then m.entries.map fun e => if e.1 = k then (k, v) else e
      else m.entries ++ [(k, v)]).map Prod.fst).Nodup := by
  split
  · have : (m.entries.map fun e => if e.1 = k then (k, v) else e).map Prod.fst
        = m.entries.map Prod.fst := by
      rw [List.map_map]
      apply List.map_congr_left
      intro e _
      simp only [Function.comp]
      split <;> simp_all
    rw [this]
    exact m.nodup
  · rename_i h
    rw [List.map_append, List.nodup_append]
    refine ⟨m.nodup, by simp, ?_⟩
    simp only [List.map_cons, List.map_nil, List.mem_singleton]
    rintro x hx y rfl rfl
    obtain ⟨e, he, rfl⟩ := List.mem_map.mp hx
    exact h (by simp only [has, List.any_eq_true]; exact ⟨e, he, by simp⟩)

/-- `m.set(k, v)` -/
def set (m : OrderedMap K V) (k : K) (v : V) : OrderedMap K V :=
  ⟨if m.has k then m.entries.map fun e => if e.1 = k then (k, v) else e
    else m.entries ++ [(k, v)], nodup_set m k v⟩

/-- The entries left by `while (m.size >= capacity) m.delete(m.keys().next().value)`. -/
def dropOldest (capacity : Nat) : List (K × V) → List (K × V)
  | [] => []
  | e :: es => if capacity ≤ es.length + 1 then dropOldest capacity es else e :: es

omit [DecidableEq K] in
/-- What is left when the oldest entries go is a suffix. -/
lemma dropOldest_suffix (capacity : Nat) (l : List (K × V)) : dropOldest capacity l <:+ l := by
  induction l with
  | nil => exact List.suffix_rfl
  | cons e es ih =>
    simp only [dropOldest]
    split
    · exact ih.trans (List.suffix_cons e es)
    · exact List.suffix_rfl

/-- The eviction loop. -/
def makeRoom (m : OrderedMap K V) (capacity : Nat) : OrderedMap K V :=
  m.keep (dropOldest capacity m.entries) (dropOldest_suffix capacity m.entries).sublist

/-! ## Membership -/

/-- The entries are the keys with their values. -/
lemma mem_entries {m : OrderedMap K V} {k : K} {v : V} :
    (k, v) ∈ m.entries ↔ m.get k = some v := by
  obtain ⟨l, hl⟩ := m
  simp only [get]
  induction l with
  | nil => simp
  | cons e es ih =>
    simp only [List.map_cons, List.nodup_cons] at hl
    obtain ⟨a, b⟩ := e
    by_cases h : a = k
    · subst h
      simp only [List.mem_cons, Prod.mk.injEq, true_and, List.find?_cons_of_pos, decide_true,
        Option.map_some, Option.some.injEq]
      constructor
      · rintro (rfl | hm)
        · rfl
        · exact absurd (List.mem_map.mpr ⟨(a, v), hm, rfl⟩) hl.1
      · rintro rfl
        exact .inl rfl
    · rw [List.find?_cons_of_neg (by simpa using h)]
      simp only [List.mem_cons, Prod.mk.injEq, Ne.symm h, false_and, false_or]
      exact ih hl.2

/-- A map has the keys it has a value for. -/
lemma has_iff {m : OrderedMap K V} {k : K} : m.has k = true ↔ ∃ v, m.get k = some v := by
  simp only [has, List.any_eq_true, decide_eq_true_eq]
  constructor
  · rintro ⟨⟨a, b⟩, he, rfl⟩
    exact ⟨b, mem_entries.mp he⟩
  · rintro ⟨v, h⟩
    exact ⟨(k, v), mem_entries.mpr h, rfl⟩

/-- A key that a map does not have has no value. -/
lemma has_eq_false {m : OrderedMap K V} {k : K} : m.has k = false ↔ m.get k = none := by
  rw [← Bool.not_eq_true, has_iff, Option.eq_none_iff_forall_ne_some]
  simp

/-- A map that is cut down has the values of the entries it keeps. -/
lemma get_keep {m : OrderedMap K V} {l : List (K × V)} {h : l.Sublist m.entries} {k : K} {v : V} :
    (m.keep l h).get k = some v ↔ (k, v) ∈ l :=
  mem_entries.symm

/-- A map that keeps some entries returns only what the whole map returned. -/
lemma get_of_get_keep {m : OrderedMap K V} {l : List (K × V)} {h : l.Sublist m.entries} {k : K}
    {v : V} (hg : (m.keep l h).get k = some v) : m.get k = some v :=
  mem_entries.mp (h.subset (get_keep.mp hg))

/-- The entries of a map that is set are the new one and those of other keys. -/
lemma mem_set {m : OrderedMap K V} {k k' : K} {v v' : V} :
    (k', v') ∈ (m.set k v).entries ↔
      (k' = k ∧ v' = v) ∨ (k' ≠ k ∧ (k', v') ∈ m.entries) := by
  simp only [set]
  split
  · rename_i h
    simp only [has, List.any_eq_true, decide_eq_true_eq] at h
    simp only [List.mem_map, Prod.exists]
    constructor
    · rintro ⟨a, b, hm, e⟩
      split at e
      · simp_all
      · rename_i hne
        simp only [Prod.mk.injEq] at e
        obtain ⟨rfl, rfl⟩ := e
        exact .inr ⟨hne, hm⟩
    · rintro (⟨rfl, rfl⟩ | ⟨hne, hm⟩)
      · obtain ⟨⟨a, b⟩, hm, rfl⟩ := h
        exact ⟨a, b, hm, by simp⟩
      · exact ⟨k', v', hm, by simp [hne]⟩
  · rename_i h
    simp only [has, List.any_eq_true, decide_eq_true_eq, not_exists, not_and] at h
    simp only [List.mem_append, List.mem_singleton, Prod.mk.injEq]
    constructor
    · rintro (hm | h')
      · exact .inr ⟨h _ hm, hm⟩
      · exact .inl h'
    · rintro (h' | ⟨-, hm⟩)
      · exact .inr h'
      · exact .inl hm

@[simp] lemma get_empty (k : K) : (empty : OrderedMap K V).get k = none := rfl

/-- The value that is set is found. -/
@[simp] lemma get_set_self (m : OrderedMap K V) (k : K) (v : V) : (m.set k v).get k = some v :=
  mem_entries.mp (mem_set.mpr (.inl ⟨rfl, rfl⟩))

/-- The values of other keys stay. -/
lemma get_set_ne {m : OrderedMap K V} {k k' : K} {v : V} (h : k' ≠ k) :
    (m.set k v).get k' = m.get k' := by
  ext w
  rw [← mem_entries, mem_set, ← mem_entries]
  simp [h]

/-- The two cases at once. -/
lemma get_set {m : OrderedMap K V} {k k' : K} {v : V} :
    (m.set k v).get k' = if k' = k then some v else m.get k' := by
  split
  · rename_i h
    rw [h, get_set_self]
  · rename_i h
    exact get_set_ne h

/-- What is found after a key is deleted is what other keys have. -/
lemma get_delete_eq_some {m : OrderedMap K V} {k k' : K} {v : V} :
    (m.delete k).get k' = some v ↔ k' ≠ k ∧ m.get k' = some v := by
  rw [delete, get_keep, List.mem_filter, mem_entries]
  simp [and_comm]

/-- A key that is deleted has no value. -/
@[simp] lemma get_delete_self (m : OrderedMap K V) (k : K) : (m.delete k).get k = none := by
  rw [Option.eq_none_iff_forall_ne_some]
  intro v h
  exact (get_delete_eq_some.mp h).1 rfl

/-- The values of other keys stay when a key is deleted. -/
lemma get_delete_ne {m : OrderedMap K V} {k k' : K} (h : k' ≠ k) :
    (m.delete k).get k' = m.get k' := by
  ext v
  simp [get_delete_eq_some, h]

/-- Deleting adds no value. -/
lemma get_of_get_delete {m : OrderedMap K V} {k k' : K} {v : V}
    (h : (m.delete k).get k' = some v) : m.get k' = some v :=
  (get_delete_eq_some.mp h).2

/-- Making room adds no value. -/
lemma get_of_get_makeRoom {m : OrderedMap K V} {capacity : Nat} {k : K} {v : V}
    (h : (m.makeRoom capacity).get k = some v) : m.get k = some v :=
  get_of_get_keep h

/-! ## The order of the entries -/

/-- A new key goes to the end. -/
lemma entries_set_of_not_has {m : OrderedMap K V} {k : K} (v : V) (h : m.has k = false) :
    (m.set k v).entries = m.entries ++ [(k, v)] := by
  simp [set, h]

/-- A key that is there keeps its place. -/
lemma entries_set_of_has {m : OrderedMap K V} {k : K} {old v : V} {pre post : List (K × V)}
    (h : m.entries = pre ++ (k, old) :: post) : (m.set k v).entries = pre ++ (k, v) :: post := by
  have hnodup := m.nodup
  have hhas : m.has k = true := by simp [has, h]
  rw [h, List.map_append, List.map_cons, List.nodup_append, List.nodup_cons] at hnodup
  obtain ⟨-, ⟨hpost, -⟩, hdisj⟩ := hnodup
  -- the entries of the other keys are left as they are
  have hkeep {l : List (K × V)} (hl : k ∉ l.map Prod.fst) :
      l.map (fun e => if e.1 = k then (k, v) else e) = l := by
    refine (List.map_congr_left fun e he => if_neg ?_).trans (List.map_id l)
    rintro rfl
    exact hl (List.mem_map_of_mem he)
  have hpre : k ∉ pre.map Prod.fst := fun hk => hdisj k hk k (by simp) rfl
  simp [set, hhas, h, hkeep hpre, hkeep hpost]

/-- A key that is there has a place among the entries. -/
lemma exists_entries_of_has {m : OrderedMap K V} {k : K} (h : m.has k = true) :
    ∃ pre v post, m.entries = pre ++ (k, v) :: post := by
  obtain ⟨v, hv⟩ := has_iff.mp h
  obtain ⟨pre, post, e⟩ := List.append_of_mem (mem_entries.mpr hv)
  exact ⟨pre, v, post, e⟩

/-! ## Sizes -/

omit [DecidableEq K] in
@[simp] lemma size_empty : (empty : OrderedMap K V).size = 0 := rfl

/-- Deleting makes no map larger. -/
lemma size_delete_le (m : OrderedMap K V) (k : K) : (m.delete k).size ≤ m.size :=
  List.length_filter_le _ _

/-- Setting a key that is there keeps the size. -/
lemma size_set_of_has {m : OrderedMap K V} {k : K} (v : V) (h : m.has k = true) :
    (m.set k v).size = m.size := by
  simp [size, set, h]

/-- Setting a new key adds one to the size. -/
lemma size_set_of_not_has {m : OrderedMap K V} {k : K} (v : V) (h : m.has k = false) :
    (m.set k v).size = m.size + 1 := by
  simp [size, set, h]

/-- Setting adds at most one to the size. -/
lemma size_set_le (m : OrderedMap K V) (k : K) (v : V) : (m.set k v).size ≤ m.size + 1 := by
  cases h : m.has k with
  | true => rw [size_set_of_has v h]; omega
  | false => exact Nat.le_of_eq (size_set_of_not_has v h)

/-- A present key leaves a gap when deleted. -/
lemma size_delete_of_has {m : OrderedMap K V} {k : K} (h : m.has k = true) :
    (m.delete k).size < m.size := by
  simp only [has, List.any_eq_true, decide_eq_true_eq] at h
  obtain ⟨e, he, rfl⟩ := h
  exact List.length_filter_lt_length_iff_exists.mpr ⟨e, he, by simp⟩

omit [DecidableEq K] in
/-- The eviction loop leaves room for one entry. -/
lemma size_makeRoom_lt (m : OrderedMap K V) {capacity : Nat} (h : 0 < capacity) :
    (m.makeRoom capacity).size < capacity := by
  simp only [makeRoom, keep, size]
  induction m.entries with
  | nil => simpa [dropOldest] using h
  | cons e es ih =>
    simp only [dropOldest]
    split
    · exact ih
    · simp only [List.length_cons]; omega

omit [DecidableEq K] in
/-- Nothing is dropped below the capacity. -/
lemma dropOldest_of_lt {capacity : Nat} {l : List (K × V)} (h : l.length < capacity) :
    dropOldest capacity l = l := by
  cases l with
  | nil => rfl
  | cons e es =>
    simp only [List.length_cons] at h
    simp [dropOldest, Nat.not_le.mpr h]

omit [DecidableEq K] in
/-- A map below its capacity has room. -/
lemma makeRoom_of_lt {m : OrderedMap K V} {capacity : Nat} (h : m.size < capacity) :
    m.makeRoom capacity = m := by
  obtain ⟨l, hl⟩ := m
  simp only [makeRoom, keep, OrderedMap.mk.injEq]
  exact dropOldest_of_lt h

/-- A map whose keys lie in a list has room for one more of them. -/
lemma size_lt_of_keys {m : OrderedMap K V} {ids : List K} {k : K}
    (hkeys : ∀ k v, m.get k = some v → k ∈ ids) (hk : k ∈ ids) (hnew : m.get k = none) :
    m.size < ids.length := by
  have hmem : k ∉ m.entries.map Prod.fst := by
    rintro h
    obtain ⟨⟨_, v⟩, hv, rfl⟩ := List.mem_map.mp h
    rw [mem_entries, hnew] at hv
    cases hv
  have hnodup : (k :: m.entries.map Prod.fst).Nodup := List.nodup_cons.mpr ⟨hmem, m.nodup⟩
  have hsub : k :: m.entries.map Prod.fst ⊆ ids := by
    intro x hx
    obtain rfl | hx := List.mem_cons.mp hx
    · exact hk
    · obtain ⟨⟨_, v⟩, hv, rfl⟩ := List.mem_map.mp hx
      exact hkeys _ v (mem_entries.mp hv)
  have := (hnodup.subperm hsub).length_le
  rwa [List.length_cons, List.length_map] at this

/-- Deleting a key that is not there changes nothing. -/
lemma delete_of_not_has {m : OrderedMap K V} {k : K} (h : m.has k = false) : m.delete k = m := by
  obtain ⟨l, hl⟩ := m
  simp only [has, List.any_eq_false, decide_eq_true_eq] at h
  simp only [delete, keep, OrderedMap.mk.injEq, List.filter_eq_self]
  intro e he
  simpa using h e he

end OrderedMap

end Js
