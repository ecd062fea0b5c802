import Mathlib.Logic.Basic
import Mathlib.Data.List.Basic

/-!
# Prefix-free encodings

An encoding is a relation between values and texts over an alphabet, so that an encoder which may
fail is one too. It is prefix-free when a text that starts with the encoding of a value determines
the value and what follows it, so that fields one after the other can be cut off one by one.
Encodings of one width are prefix-free, and a prefix-free encoding of the length makes any text
prefix-free.
-/

namespace Data

variable {α σ : Type}

/-- Whether a text determines the value it starts with, and the rest. -/
def PrefixFree (R : α → List σ → Prop) : Prop :=
  ∀ {a b x y s t}, R a x → R b y → x ++ s = y ++ t → a = b ∧ s = t

/-- A text after the encoding of its length. -/
def LengthPrefixed (L : Nat → List σ → Prop) (a text : List σ) : Prop :=
  ∃ size, L a.length size ∧ text = size ++ a

/-- A prefix-free encoding determines the value. -/
lemma PrefixFree.injective {R : α → List σ → Prop} (hR : PrefixFree R) {a b : α} {x : List σ}
    (ha : R a x) (hb : R b x) : a = b :=
  (hR (s := []) (t := []) ha hb rfl).1

/-- Words of one length are prefix free. -/
lemma PrefixFree.ofWidth {R : α → List σ → Prop} (n : Nat) (hwidth : ∀ {a x}, R a x → x.length = n)
    (hinj : ∀ {a b x}, R a x → R b x → a = b) : PrefixFree R := by
  intro a b x y s t ha hb h
  have hlen : x.length = y.length := by rw [hwidth ha, hwidth hb]
  obtain ⟨rfl, hst⟩ := List.append_inj h hlen
  exact ⟨hinj ha hb, hst⟩

/-- Strings behind a prefix-free length are prefix free. -/
lemma PrefixFree.lengthPrefixed {L : Nat → List σ → Prop} (hL : PrefixFree L) :
    PrefixFree (LengthPrefixed L) := by
  intro a b x y s t ha hb h
  obtain ⟨m, hm, rfl⟩ := ha
  obtain ⟨n, hn, rfl⟩ := hb
  rw [List.append_assoc, List.append_assoc] at h
  obtain ⟨hlen, h⟩ := hL hm hn h
  exact List.append_inj h hlen

end Data
