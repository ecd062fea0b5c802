import Mathlib.Data.List.Nodup
import Mathlib.Data.List.Perm.Subperm
import Mathlib.Tactic.Lemma

/-!
# Bounded sets

A JavaScript `Set` that is kept at `capacity` elements: elements are in the order they were first
added, adding a present element changes nothing, and adding one too many evicts the oldest.

While no more than `capacity` different elements are ever added, nothing is evicted:
`Records` is that invariant.
-/

namespace Js

/-- An insertion-ordered set of at most `capacity` elements. -/
structure BoundedSet (α : Type*) (capacity : Nat) where
  /-- The elements, oldest first. -/
  items : List α
  nodup : items.Nodup
  length_le : items.length ≤ capacity

namespace BoundedSet

variable {α : Type*} [DecidableEq α] {capacity : Nat}

/-- `new Set()` -/
def empty : BoundedSet α capacity := ⟨[], by simp, by simp⟩

/-- `s.has(x)` -/
def has (s : BoundedSet α capacity) (x : α) : Bool := x ∈ s.items

/-- The elements once `x` is added, before any is evicted. -/
def insertItem (l : List α) (x : α) : List α := if x ∈ l then l else l ++ [x]

/-- `if (s.size > capacity) s.delete(s.values().next().value)` -/
def evict (capacity : Nat) (l : List α) : List α := if capacity < l.length then l.tail else l

omit [DecidableEq α] in
/-- Eviction only drops items. -/
lemma evict_sublist (l : List α) : (evict capacity l).Sublist l := by
  unfold evict
  split
  · exact List.tail_sublist l
  · exact List.Sublist.refl l

/-- Inserting keeps the items distinct. -/
lemma nodup_insertItem {l : List α} (h : l.Nodup) (x : α) : (insertItem l x).Nodup := by
  unfold insertItem
  split
  · exact h
  · rename_i hx
    exact List.nodup_append.mpr ⟨h, by simp, by rintro a ha b hb rfl; simp_all⟩

/-- Inserting adds at most one item. -/
lemma length_insertItem_le (l : List α) (x : α) : (insertItem l x).length ≤ l.length + 1 := by
  unfold insertItem
  split <;> simp

/-- The items after an insertion are the old ones and the new one. -/
lemma mem_insertItem {l : List α} {x y : α} : y ∈ insertItem l x ↔ y ∈ l ∨ y = x := by
  unfold insertItem
  split
  · rename_i hx
    exact ⟨.inl, fun h => h.elim id fun e => e ▸ hx⟩
  · simp

/-- `s.add(x)`, and the oldest element is evicted past the capacity. -/
def add (s : BoundedSet α capacity) (x : α) : BoundedSet α capacity where
  items := evict capacity (insertItem s.items x)
  nodup := (nodup_insertItem s.nodup x).sublist (evict_sublist _)
  length_le := by
    have hins := length_insertItem_le s.items x
    have hlen := s.length_le
    unfold evict
    split
    · rw [List.length_tail]
      omega
    · omega

/-- What a set has is in its list. -/
lemma has_iff {s : BoundedSet α capacity} {x : α} : s.has x = true ↔ x ∈ s.items := by
  simp [has]

/-- What is in a set after an `add` was there before, or was added. -/
lemma of_mem_add {s : BoundedSet α capacity} {x y : α} (h : y ∈ (s.add x).items) :
    y ∈ s.items ∨ y = x :=
  mem_insertItem.mp ((evict_sublist _).subset h)

/-- What is in a set after a list was added was there before, or is in the list. -/
lemma of_mem_addAll {s : BoundedSet α capacity} {l : List α} {y : α}
    (h : y ∈ (l.foldl .add s).items) : y ∈ s.items ∨ y ∈ l := by
  induction l generalizing s with
  | nil => exact .inl h
  | cons x l ih =>
    obtain h | h := ih h
    · obtain h | rfl := of_mem_add h
      · exact .inl h
      · exact .inr (List.mem_cons_self ..)
    · exact .inr (List.mem_cons_of_mem _ h)

/-! ## What a set records -/

/-- There are at most `capacity` different elements in a list. -/
def Fits (capacity : Nat) (l : List α) : Prop :=
  ∃ ids : List α, ids.length ≤ capacity ∧ ∀ x ∈ l, x ∈ ids

/-- A set holds only what was added to it, and all of it while that fits. -/
structure Records (s : BoundedSet α capacity) (added : List α) : Prop where
  only : ∀ x ∈ s.items, x ∈ added
  all : Fits capacity added → ∀ x ∈ added, x ∈ s.items

omit [DecidableEq α] in
/-- The empty set records that nothing was added. -/
lemma records_empty : Records (empty : BoundedSet α capacity) [] := ⟨by simp [empty], by simp⟩

omit [DecidableEq α] in
/-- A list fits where a longer one does. -/
lemma Fits.left {l l' : List α} (h : Fits capacity (l ++ l')) : Fits capacity l :=
  h.imp fun _ ⟨hlen, hmem⟩ => ⟨hlen, fun x hx => hmem x (List.mem_append_left _ hx)⟩

omit [DecidableEq α] in
/-- A list fits where one with all its items does. -/
lemma Fits.subset {l l' : List α} (h : Fits capacity l) (hsub : ∀ x ∈ l', x ∈ l) :
    Fits capacity l' :=
  h.imp fun _ ⟨hlen, hmem⟩ => ⟨hlen, fun x hx => hmem x (hsub x hx)⟩

omit [DecidableEq α] in
/-- A set records its own items. -/
lemma records_self (s : BoundedSet α capacity) : Records s s.items := ⟨fun _ h => h, fun _ _ h => h⟩

/-- One more item is recorded when it is added. -/
lemma Records.add {s : BoundedSet α capacity} {added : List α} (h : Records s added) (x : α) :
    Records (s.add x) (added ++ [x]) where
  only y hy := by
    obtain hy | rfl := of_mem_add hy
    · exact List.mem_append_left _ (h.only y hy)
    · simp
  all hfits y hy := by
    have hall := h.all hfits.left
    obtain ⟨ids, hlen, hmem⟩ := hfits
    have hitems : ∀ z ∈ insertItem s.items x, z ∈ ids := by
      intro z hz
      obtain hz | rfl := mem_insertItem.mp hz
      · exact hmem z (List.mem_append_left _ (h.only z hz))
      · exact hmem z (by simp)
    -- the elements are different and all among `ids`, so none is evicted
    have hle : (insertItem s.items x).length ≤ ids.length :=
      (List.subperm_of_subset (nodup_insertItem s.nodup x) hitems).length_le
    have hkept : (s.add x).items = insertItem s.items x := by
      simp only [BoundedSet.add, evict]
      rw [if_neg (by omega)]
    rw [hkept, mem_insertItem]
    simpa using (List.mem_append.mp hy).imp_left (hall y)

/-- A list of items is recorded when they are added. -/
lemma Records.addAll {s : BoundedSet α capacity} {added : List α} (h : Records s added)
    (l : List α) : Records (l.foldl .add s) (added ++ l) := by
  induction l generalizing s added with
  | nil => simpa using h
  | cons x l ih =>
    rw [List.append_cons]
    exact ih (h.add x)

end BoundedSet

end Js
