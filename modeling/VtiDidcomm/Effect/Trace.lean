import VtiDidcomm.Effect.Prog

/-!
# Runs of programs

`Runs p tr a` says that `p` returns `a` after the exchanges `tr`: its requests in order, each with
the answer it got. `FailsOn` is the property that a program throws once it has got a bad answer.

`embed` runs a program among more requests, and `supply` answers the additional ones; a program that
is embedded and supplied is itself again (`supply_embed`).
-/

namespace Effect

universe u

namespace Prog

variable {Q A Q' A' α β : Type u}

/-- The program returns `a` after the exchanges `tr`. -/
def Runs : Prog Q A α → List (Q × A) → α → Prop
  | done b, tr, a => tr = [] ∧ b = a
  | request q k, tr, a => ∃ x rest, tr = (q, x) :: rest ∧ Runs (k x) rest a

/-- A program that is done asks nothing. -/
lemma runs_pure {a b : α} {tr : List (Q × A)} :
    Runs (pure b : Prog Q A α) tr a ↔ tr = [] ∧ b = a := Iff.rfl

/-- A question is asked and answered. -/
lemma runs_ask {q : Q} {tr : List (Q × A)} {x : A} :
    Runs (ask q : Prog Q A A) tr x ↔ tr = [(q, x)] := by
  constructor
  · rintro ⟨y, rest, rfl, rfl, rfl⟩
    rfl
  · rintro rfl
    exact ⟨x, [], rfl, rfl, rfl⟩

/-- The exchanges of a program are those of its parts. -/
lemma runs_bind {p : Prog Q A α} {f : α → Prog Q A β} {tr : List (Q × A)} {b : β} :
    Runs (p >>= f) tr b ↔
      ∃ a tr₁ tr₂, tr = tr₁ ++ tr₂ ∧ Runs p tr₁ a ∧ Runs (f a) tr₂ b := by
  induction p generalizing tr with
  | done a =>
    constructor
    · exact fun h => ⟨a, [], tr, rfl, ⟨rfl, rfl⟩, h⟩
    · rintro ⟨_, _, tr₂, rfl, ⟨rfl, rfl⟩, h⟩
      exact h
  | request q k ih =>
    constructor
    · rintro ⟨x, rest, rfl, h⟩
      obtain ⟨a, tr₁, tr₂, rfl, hp, hf⟩ := (ih x).mp h
      exact ⟨a, (q, x) :: tr₁, tr₂, rfl, ⟨x, tr₁, rfl, hp⟩, hf⟩
    · rintro ⟨a, _, tr₂, rfl, ⟨x, rest, rfl, hp⟩, hf⟩
      exact ⟨x, rest ++ tr₂, rfl, (ih x).mpr ⟨a, rest, tr₂, rfl, hp, hf⟩⟩

/-- A run of a sequence that returns is a run of each of its parts. -/
lemma runs_run_bind {E : Type u} {p : ExceptT E (Prog Q A) α} {f : α → ExceptT E (Prog Q A) β}
    {tr : List (Q × A)} {b : β} :
    Runs (p >>= f).run tr (.ok b) ↔
      ∃ a tr₁ tr₂, tr = tr₁ ++ tr₂ ∧ Runs p.run tr₁ (.ok a) ∧ Runs (f a).run tr₂ (.ok b) := by
  rw [run_bind, runs_bind]
  constructor
  · rintro ⟨e | a, tr₁, tr₂, htr, hp, hf⟩
    · cases hf.2
    · exact ⟨a, tr₁, tr₂, htr, hp, hf⟩
  · rintro ⟨a, tr₁, tr₂, htr, hp, hf⟩
    exact ⟨.ok a, tr₁, tr₂, htr, hp, hf⟩

/-- The questions of a run are those a program may ask. -/
lemma Runs.safe {φ : Q → Prop} {p : Prog Q A α} {tr : List (Q × A)} {a : α} (h : Runs p tr a)
    (hs : Safe φ p) : ∀ x ∈ tr, φ x.1 := by
  induction p generalizing tr with
  | done b =>
    obtain ⟨rfl, -⟩ := h
    simp
  | request q k ih =>
    obtain ⟨x, rest, rfl, h⟩ := h
    intro y hy
    rcases List.mem_cons.mp hy with rfl | hy
    · exact hs.1
    · exact ih x h (hs.2 x) y hy

/-- A run returns what its program can return. -/
lemma Runs.returns {p : Prog Q A α} {tr : List (Q × A)} {a : α} (h : Runs p tr a) :
    Returns p a := by
  induction p generalizing tr with
  | done b => exact h.2
  | request q k ih =>
    obtain ⟨x, rest, -, h⟩ := h
    exact ⟨x, ih x h⟩

/-! ## Programs that fail on bad answers -/

variable {E : Type u}

/-- A run that got a bad answer throws an error that satisfies `ψ`. -/
def FailsOn (bad : Q × A → Prop) (ψ : E → Prop) (p : ExceptT E (Prog Q A) α) : Prop :=
  ∀ tr r, Runs p.run tr r → (∃ x ∈ tr, bad x) → ∃ e, ψ e ∧ r = .error e

/-- A program that is done meets no bad exchange. -/
lemma failsOn_pure {bad : Q × A → Prop} {ψ : E → Prop} (r : Except E α) :
    FailsOn bad ψ (ExceptT.mk (pure r) : ExceptT E (Prog Q A) α) := by
  rintro tr _ ⟨rfl, rfl⟩ ⟨x, hx, -⟩
  cases hx

/-- A sequence fails on bad answers when its first part does and its second does for every value the
first returns. -/
lemma FailsOn.bind {bad : Q × A → Prop} {ψ : E → Prop} {p : ExceptT E (Prog Q A) α}
    {f : α → ExceptT E (Prog Q A) β} (hp : FailsOn bad ψ p)
    (hf : ∀ a, Returns p.run (.ok a) → FailsOn bad ψ (f a)) : FailsOn bad ψ (p >>= f) := by
  rintro tr r h ⟨x, hx, hbad⟩
  rw [run_bind] at h
  obtain ⟨s, tr₁, tr₂, rfl, h₁, h₂⟩ := runs_bind.mp h
  cases s with
  | error e =>
    obtain ⟨rfl, rfl⟩ := h₂
    rw [List.append_nil] at hx
    obtain ⟨e', he', heq⟩ := hp tr₁ _ h₁ ⟨x, hx, hbad⟩
    cases heq
    exact ⟨e, he', rfl⟩
  | ok a =>
    rcases List.mem_append.mp hx with hx | hx
    · obtain ⟨e, -, heq⟩ := hp tr₁ _ h₁ ⟨x, hx, hbad⟩
      cases heq
    · exact hf a h₁.returns tr₂ r h₂ ⟨x, hx, hbad⟩

/-- A handler that throws these errors again keeps them. -/
lemma FailsOn.tryCatch {bad : Q × A → Prop} {ψ : E → Prop} {p : ExceptT E (Prog Q A) α}
    {h : E → ExceptT E (Prog Q A) α} (hp : FailsOn bad ψ p) (hψ : ∀ e, ψ e → h e = throw e)
    (hh : ∀ e, FailsOn bad ψ (h e)) : FailsOn bad ψ (tryCatch p h) := by
  rintro tr r hrun ⟨x, hx, hbad⟩
  rw [run_tryCatch] at hrun
  obtain ⟨s, tr₁, tr₂, rfl, h₁, h₂⟩ := runs_bind.mp hrun
  cases s with
  | ok a =>
    obtain ⟨rfl, rfl⟩ := h₂
    rw [List.append_nil] at hx
    exact hp tr₁ _ h₁ ⟨x, hx, hbad⟩
  | error e =>
    rcases List.mem_append.mp hx with hx | hx
    · obtain ⟨e', he', heq⟩ := hp tr₁ _ h₁ ⟨x, hx, hbad⟩
      cases heq
      replace h₂ : Runs (h e).run tr₂ r := h₂
      rw [hψ e he'] at h₂
      obtain ⟨-, rfl⟩ := h₂
      exact ⟨e, he', rfl⟩
    · exact hh e tr₂ r h₂ ⟨x, hx, hbad⟩

/-- A program that makes no request whose answer can be bad. -/
lemma failsOn_of_safe {φ : Q → Prop} {bad : Q × A → Prop} {ψ : E → Prop}
    {p : ExceptT E (Prog Q A) α} (h : Safe φ p.run) (hφ : ∀ x, φ x.1 → ¬ bad x) :
    FailsOn bad ψ p := by
  rintro tr r hr ⟨x, hx, hbad⟩
  exact absurd hbad (hφ x (hr.safe h x hx))

/-- A pure function does not change what makes a program fail. -/
lemma FailsOn.map {bad : Q × A → Prop} {ψ : E → Prop} {p : ExceptT E (Prog Q A) α} (f : α → β)
    (hp : FailsOn bad ψ p) : FailsOn bad ψ (f <$> p) := by
  rintro tr r h hb
  obtain ⟨s, tr₁, tr₂, rfl, h₁, h₂⟩ := (runs_bind (p := p.run)).mp h
  cases s with
  | error e =>
    obtain ⟨rfl, rfl⟩ := h₂
    obtain ⟨e', he', heq⟩ := hp tr₁ _ h₁ (by simpa using hb)
    cases heq
    exact ⟨e, he', rfl⟩
  | ok a =>
    obtain ⟨rfl, rfl⟩ := h₂
    obtain ⟨e, -, heq⟩ := hp tr₁ _ h₁ (by simpa using hb)
    cases heq

/-- The failures may be described more weakly. -/
lemma FailsOn.mono {bad : Q × A → Prop} {ψ χ : E → Prop} {p : ExceptT E (Prog Q A) α}
    (h : FailsOn bad ψ p) (hi : ∀ e, ψ e → χ e) : FailsOn bad χ p := by
  intro tr r hr hb
  obtain ⟨e, he, rfl⟩ := h tr r hr hb
  exact ⟨e, hi e he, rfl⟩

/-! ## More requests -/

/-- The program among the requests `Q'`, reading its answers out of theirs. -/
def embed (f : Q → Q') (g : A' → A) : Prog Q A α → Prog Q' A' α
  | done a => done a
  | request q k => request (f q) fun x => (k (g x)).embed f g

/-- The questions of an embedded program are the images of its own. -/
lemma safe_embed {φ : Q' → Prop} {f : Q → Q'} {g : A' → A} {p : Prog Q A α}
    (h : Safe (fun q => φ (f q)) p) : Safe φ (p.embed f g) := by
  induction p with
  | done a => trivial
  | request q k ih => exact ⟨h.1, fun x => ih (g x) (h.2 (g x))⟩

/-- The exchanges of an embedded program are the images of its own. -/
lemma runs_embed {f : Q → Q'} {g : A' → A} {p : Prog Q A α} {tr : List (Q' × A')} {a : α}
    (h : Runs (p.embed f g) tr a) :
    ∃ tr' : List (Q × A'), tr = tr'.map (Prod.map f id) ∧ Runs p (tr'.map (Prod.map id g)) a := by
  induction p generalizing tr with
  | done b =>
    obtain ⟨rfl, rfl⟩ := h
    exact ⟨[], rfl, rfl, rfl⟩
  | request q k ih =>
    obtain ⟨x, rest, rfl, h⟩ := h
    obtain ⟨tr', rfl, hk⟩ := ih (g x) h
    exact ⟨(q, x) :: tr', rfl, g x, tr'.map (Prod.map id g), rfl, hk⟩

/-- An embedded program fails on what it finds bad. -/
lemma FailsOn.embed {bad : Q × A → Prop} {bad' : Q' × A' → Prop} {E : Type u} {ψ : E → Prop}
    {p : ExceptT E (Prog Q A) α} {f : Q → Q'} {g : A' → A} (hp : FailsOn bad ψ p)
    (h : ∀ q x, bad' (f q, x) → bad (q, g x)) :
    FailsOn bad' ψ (ExceptT.mk (p.run.embed f g)) := by
  rintro tr r hr ⟨x, hx, hbad⟩
  obtain ⟨tr', rfl, hrun⟩ := runs_embed hr
  obtain ⟨y, hy, rfl⟩ := List.mem_map.mp hx
  exact hp _ r hrun ⟨Prod.map id g y, List.mem_map_of_mem hy, h y.1 y.2 hbad⟩

/-- Answers every request that `h` knows the answer to, and makes the others. -/
def supply (h : Q' → Q ⊕ A') (g : A → A') : Prog Q' A' α → Prog Q A α
  | done a => done a
  | request q k =>
    match h q with
    | .inl q => request q fun x => (k (g x)).supply h g
    | .inr x => (k x).supply h g

/-- The answers are supplied to both parts. -/
lemma supply_bind {h : Q' → Q ⊕ A'} {g : A → A'} {p : Prog Q' A' α} {f : α → Prog Q' A' β} :
    (p >>= f).supply h g = p.supply h g >>= fun a => (f a).supply h g := by
  induction p with
  | done a => rfl
  | request q k ih =>
    simp only [Bind.bind, bind, supply] at ih ⊢
    split
    · simp only [bind, ih]
    · exact ih _

/-- A program that was embedded is got back. -/
lemma supply_embed {h : Q' → Q ⊕ A'} {g : A → A'} {f : Q → Q'} {g' : A' → A} (p : Prog Q A α)
    (hf : ∀ q, h (f q) = .inl q) (hg : ∀ x, g' (g x) = x) : (p.embed f g').supply h g = p := by
  induction p with
  | done a => rfl
  | request q k ih => simp only [embed, supply, hf, hg, ih]

end Prog

end Effect
