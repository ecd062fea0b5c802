import Mathlib.Tactic.Lemma

/-!
# Programs that make requests

A program over a request type `Q` and an answer type `A`: it returns, or makes a request and goes on
with whatever the world answers. `Safe φ p` says that every request `p` can make satisfies `φ`,
whatever the answers; `Returns p a` that some answers lead it to return `a`. Both are compositional:
`safe_bind` and `returns_bind` are the rules, and the `run_` lemmas carry them to programs that may
throw.
-/

namespace Effect

universe u

/-- A program that makes requests `Q` and is answered with `A`. -/
inductive Prog (Q A α : Type u) where
  | done (a : α)
  | request (q : Q) (k : A → Prog Q A α)

namespace Prog

variable {Q A α β : Type u}

/-- Sequencing. -/
def bind : Prog Q A α → (α → Prog Q A β) → Prog Q A β
  | done a, f => f a
  | request q k, f => request q fun x => (k x).bind f

instance : Monad (Prog Q A) where
  pure := done
  bind := bind

/-- One request, returning its answer. -/
def ask (q : Q) : Prog Q A A := request q done

/-- Every request the program can make satisfies `φ`. -/
def Safe (φ : Q → Prop) : Prog Q A α → Prop
  | done _ => True
  | request q k => φ q ∧ ∀ x, Safe φ (k x)

/-- Some answers lead the program to return `a`. -/
def Returns : Prog Q A α → α → Prop
  | done b, a => b = a
  | request _ k, a => ∃ x, Returns (k x) a

@[simp] lemma safe_pure {φ : Q → Prop} (a : α) : Safe φ (pure a : Prog Q A α) := trivial

@[simp] lemma returns_pure {a b : α} : Returns (pure b : Prog Q A α) a ↔ b = a := Iff.rfl

@[simp] lemma safe_ask {φ : Q → Prop} (q : Q) : Safe φ (ask q : Prog Q A A) ↔ φ q := by
  simp [ask, Safe]

@[simp] lemma returns_ask (q : Q) (x : A) : Returns (ask q : Prog Q A A) x := ⟨x, rfl⟩

/-- A program goes on safely from whatever its first part returns. -/
lemma safe_bind {φ : Q → Prop} {p : Prog Q A α} {f : α → Prog Q A β} :
    Safe φ (p >>= f) ↔ Safe φ p ∧ ∀ a, Returns p a → Safe φ (f a) := by
  induction p with
  | done a => exact ⟨fun h => ⟨trivial, fun b e => e ▸ h⟩, fun h => h.2 a rfl⟩
  | request q k ih =>
    constructor
    · rintro ⟨hq, hk⟩
      exact ⟨⟨hq, fun x => ((ih x).mp (hk x)).1⟩, fun a ⟨x, hx⟩ => ((ih x).mp (hk x)).2 a hx⟩
    · rintro ⟨⟨hq, hk⟩, hf⟩
      exact ⟨hq, fun x => (ih x).mpr ⟨hk x, fun a ha => hf a ⟨x, ha⟩⟩⟩

/-- What a program returns its second part does, from what the first returned. -/
lemma returns_bind {p : Prog Q A α} {f : α → Prog Q A β} {b : β} :
    Returns (p >>= f) b ↔ ∃ a, Returns p a ∧ Returns (f a) b := by
  induction p with
  | done a => exact ⟨fun h => ⟨a, rfl, h⟩, fun ⟨_, e, h⟩ => e ▸ h⟩
  | request q k ih =>
    constructor
    · rintro ⟨x, hx⟩
      obtain ⟨a, ha, hf⟩ := (ih x).mp hx
      exact ⟨a, ⟨x, ha⟩, hf⟩
    · rintro ⟨a, ⟨x, ha⟩, hf⟩
      exact ⟨x, (ih x).mpr ⟨a, ha, hf⟩⟩

/-! ## Programs that may throw -/

variable {E : Type u}

/-- A program that throws does not go on. -/
lemma run_bind {p : ExceptT E (Prog Q A) α} {f : α → ExceptT E (Prog Q A) β} :
    (p >>= f).run = p.run >>= fun r => match r with
      | .ok a => (f a).run
      | .error e => pure (.error e) := by
  refine congrArg (p.run >>= ·) (funext fun r => ?_)
  cases r <;> rfl

@[simp] lemma run_pure (a : α) : (pure a : ExceptT E (Prog Q A) α).run = pure (.ok a) := rfl

@[simp] lemma run_throw (e : E) :
    (throw e : ExceptT E (Prog Q A) α).run = pure (.error e) := rfl

/-- A sequence that may throw is safe when its first part is and its second part is for every value
the first returns. -/
lemma safe_run_bind {φ : Q → Prop} {p : ExceptT E (Prog Q A) α}
    {f : α → ExceptT E (Prog Q A) β} :
    Safe φ (p >>= f).run ↔ Safe φ p.run ∧ ∀ a, Returns p.run (.ok a) → Safe φ (f a).run := by
  rw [run_bind, safe_bind]
  refine and_congr_right fun _ => ⟨fun h a ha => h (.ok a) ha, ?_⟩
  rintro h (e | a) ha
  · trivial
  · exact h a ha

/-- Where the second part is safe, the first decides. -/
lemma safe_run_bind_left {φ : Q → Prop} {p : ExceptT E (Prog Q A) α}
    {f : α → ExceptT E (Prog Q A) β} (hf : ∀ a, Safe φ (f a).run) :
    Safe φ (p >>= f).run ↔ Safe φ p.run := by
  rw [safe_run_bind]
  exact and_iff_left fun a _ => hf a

/-- What is returned without a throw came through both parts. -/
lemma returns_run_bind {p : ExceptT E (Prog Q A) α} {f : α → ExceptT E (Prog Q A) β} {b : β} :
    Returns (p >>= f).run (.ok b) ↔ ∃ a, Returns p.run (.ok a) ∧ Returns (f a).run (.ok b) := by
  rw [run_bind, returns_bind]
  constructor
  · rintro ⟨e | a, ha, hf⟩
    · cases hf
    · exact ⟨a, ha, hf⟩
  · rintro ⟨a, ha, hf⟩
    exact ⟨.ok a, ha, hf⟩

/-- A pure function asks nothing. -/
lemma safe_run_map {φ : Q → Prop} {f : α → β} {p : ExceptT E (Prog Q A) α} :
    Safe φ (f <$> p).run ↔ Safe φ p.run := by
  refine (safe_bind (p := p.run)).trans (and_iff_left fun r _ => ?_)
  cases r <;> trivial

/-- What is thrown is handed to the handler. -/
lemma run_tryCatch {p : ExceptT E (Prog Q A) α} {h : E → ExceptT E (Prog Q A) α} :
    (tryCatch p h).run = p.run >>= fun r => match r with
      | .ok a => pure (.ok a)
      | .error e => (h e).run := by
  refine congrArg (p.run >>= ·) (funext fun r => ?_)
  cases r <;> rfl

/-- A handled program is safe when it is and its handler is for every error it throws. -/
lemma safe_run_tryCatch {φ : Q → Prop} {p : ExceptT E (Prog Q A) α}
    {h : E → ExceptT E (Prog Q A) α} :
    Safe φ (tryCatch p h).run ↔
      Safe φ p.run ∧ ∀ e, Returns p.run (.error e) → Safe φ (h e).run := by
  rw [run_tryCatch, safe_bind]
  refine and_congr_right fun _ => ⟨fun hs e he => hs (.error e) he, ?_⟩
  rintro hs (e | a) ha
  · exact hs e ha
  · trivial

/-- A handled program returns what it returns without its handler, or what the handler returns. -/
lemma returns_run_tryCatch {p : ExceptT E (Prog Q A) α} {h : E → ExceptT E (Prog Q A) α} {a : α} :
    Returns (tryCatch p h).run (.ok a) ↔
      Returns p.run (.ok a) ∨ ∃ e, Returns p.run (.error e) ∧ Returns (h e).run (.ok a) := by
  rw [run_tryCatch, returns_bind]
  constructor
  · rintro ⟨e | b, hp, hr⟩
    · exact .inr ⟨e, hp, hr⟩
    · cases hr
      exact .inl hp
  · rintro (hp | ⟨e, hp, hr⟩)
    · exact ⟨.ok a, hp, rfl⟩
    · exact ⟨.error e, hp, hr⟩

end Prog

end Effect
