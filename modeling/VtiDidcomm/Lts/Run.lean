import Mathlib.Data.List.Basic
import Mathlib.Tactic.Lemma

/-!
# Runs and their traces

A transition system whose steps emit events: `Run step s tr s'` says that steps from `s` lead to
`s'` and emit the events `tr`, in order. `Run.invariant` is the induction rule for a property of the
state and of the events so far; `Guarded` is the property "whenever this event was emitted, that
held of the events before it".
-/

namespace Lts

variable {σ ε : Type*}

/-- A finite run of a system whose steps emit events. -/
inductive Run (step : σ → List ε → σ → Prop) : σ → List ε → σ → Prop where
  | nil (s) : Run step s [] s
  | snoc {s s' s'' tr evs} : Run step s tr s' → step s' evs s'' → Run step s (tr ++ evs) s''

/-- A run keeps what each of its steps keeps. -/
lemma Run.invariant {step : σ → List ε → σ → Prop} {I : σ → List ε → Prop} {s s' : σ}
    {tr : List ε} (r : Run step s tr s') (init : I s [])
    (keep : ∀ {s tr evs s'}, I s tr → step s evs s' → I s' (tr ++ evs)) : I s' tr := by
  induction r with
  | nil => exact init
  | snoc _ hs ih => exact keep ih hs

/-- A run whose events all satisfy `P` is a run of steps whose events do. -/
lemma Run.restrict {step : σ → List ε → σ → Prop} {P : ε → Prop} {s s' : σ} {tr : List ε}
    (r : Run step s tr s') (h : ∀ e ∈ tr, P e) :
    Run (fun s evs s' => step s evs s' ∧ ∀ e ∈ evs, P e) s tr s' := by
  induction r with
  | nil => exact .nil _
  | snoc _ hs ih =>
    exact .snoc (ih fun e he => h e (List.mem_append_left _ he))
      ⟨hs, fun e he => h e (List.mem_append_right _ he)⟩

/-- Whenever an event was emitted, `φ` held of the events before it and of the event. -/
def Guarded (φ : List ε → ε → Prop) (tr : List ε) : Prop :=
  ∀ pre e post, tr = pre ++ e :: post → φ pre e

/-- The steps of a function on the commands that meet a condition on the state. -/
def DoesIf {κ : Type*} (f : σ → κ → Option (σ × ε)) (cond : σ → κ → Prop) (s : σ) (evs : List ε)
    (s' : σ) : Prop :=
  ∃ cmd e, cond s cmd ∧ f s cmd = some (s', e) ∧ evs = [e]

/-- The steps of a function that maps a command to the next state and one event. -/
def Does {κ : Type*} (f : σ → κ → Option (σ × ε)) (s : σ) (evs : List ε) (s' : σ) : Prop :=
  ∃ cmd e, f s cmd = some (s', e) ∧ evs = [e]

/-- The same function, which says with each event what command it was emitted for. -/
def logged {κ : Type*} (f : σ → κ → Option (σ × ε)) (s : σ) (cmd : κ) : Option (σ × κ × ε) :=
  (f s cmd).map fun r => (r.1, cmd, r.2)

/-- Executes commands one after the other. -/
def exec {κ : Type*} (f : σ → κ → Option (σ × ε)) (s : σ) : List κ → Option (σ × List ε)
  | [] => some (s, [])
  | cmd :: cmds =>
    match f s cmd with
    | none => none
    | some (s', e) => (exec f s' cmds).map fun r => (r.1, e :: r.2)

/-- A logged step is a step with the command it was made by. -/
lemma logged_eq_some {κ : Type*} {f : σ → κ → Option (σ × ε)} {s s' : σ} {cmd : κ} {x : κ × ε} :
    logged f s cmd = some (s', x) ↔ x.1 = cmd ∧ f s cmd = some (s', x.2) := by
  obtain ⟨cmd', e⟩ := x
  simp only [logged, Option.map_eq_some_iff]
  constructor
  · rintro ⟨⟨s₁, e₁⟩, hf, heq⟩
    cases heq
    exact ⟨rfl, hf⟩
  · rintro ⟨rfl, hf⟩
    exact ⟨(s', e), hf, rfl⟩

/-- One more command extends a run. -/
lemma Run.does {κ : Type*} {f : σ → κ → Option (σ × ε)} {s s' s'' : σ} {tr : List ε}
    (r : Run (Does f) s tr s') (cmd : κ) {e : ε} (h : f s' cmd = some (s'', e)) :
    Run (Does f) s (tr ++ [e]) s'' :=
  .snoc r ⟨cmd, e, h, rfl⟩

/-- One more command extends a run and its log. -/
lemma Run.logs {κ : Type*} {f : σ → κ → Option (σ × ε)} {s s' s'' : σ} {log : List (κ × ε)}
    (r : Run (Does (logged f)) s log s') (cmd : κ) {e : ε} (h : f s' cmd = some (s'', e)) :
    Run (Does (logged f)) s (log ++ [(cmd, e)]) s'' :=
  r.does cmd (logged_eq_some.mpr ⟨rfl, h⟩)

/-- Two runs are joined. -/
lemma Run.trans {step : σ → List ε → σ → Prop} {s s' s'' : σ} {tr tr' : List ε}
    (r : Run step s tr s') (r' : Run step s' tr' s'') : Run step s (tr ++ tr') s'' := by
  induction r' with
  | nil => simpa using r
  | snoc _ hs ih =>
    rw [← List.append_assoc]
    exact .snoc ih hs

/-- No command, no step. -/
lemma exec_nil {κ : Type*} {f : σ → κ → Option (σ × ε)} (s : σ) : exec f s [] = some (s, []) := rfl

/-- The first command is one step, the others go on from there. -/
lemma exec_cons_eq_some {κ : Type*} {f : σ → κ → Option (σ × ε)} {s s' : σ} {cmd : κ}
    {cmds : List κ} {tr : List ε} : exec f s (cmd :: cmds) = some (s', tr) ↔
      ∃ s₁ e tr', f s cmd = some (s₁, e) ∧ exec f s₁ cmds = some (s', tr') ∧ tr = e :: tr' := by
  simp only [exec]
  constructor
  · intro h
    split at h
    · cases h
    · rename_i s₁ e hs
      obtain ⟨⟨s₂, tr'⟩, hr, heq⟩ := Option.map_eq_some_iff.mp h
      cases heq
      exact ⟨s₁, e, tr', hs, hr, rfl⟩
  · rintro ⟨s₁, e, tr', hs, hr, rfl⟩
    simp [hs, hr]

/-- A step and an execution are joined. -/
lemma exec_cons {κ : Type*} {f : σ → κ → Option (σ × ε)} {s s₁ s' : σ} {cmd : κ} {cmds : List κ}
    {e : ε} {tr : List ε} (hs : f s cmd = some (s₁, e)) (h : exec f s₁ cmds = some (s', tr)) :
    exec f s (cmd :: cmds) = some (s', e :: tr) :=
  exec_cons_eq_some.mpr ⟨s₁, e, tr, hs, h, rfl⟩

/-- An execution is cut where its commands are. -/
lemma exec_append_eq_some {κ : Type*} {f : σ → κ → Option (σ × ε)} {s s' : σ}
    {cmds cmds' : List κ} {tr : List ε} : exec f s (cmds ++ cmds') = some (s', tr) ↔
      ∃ s₁ tr₁ tr₂, exec f s cmds = some (s₁, tr₁) ∧ exec f s₁ cmds' = some (s', tr₂) ∧
        tr = tr₁ ++ tr₂ := by
  induction cmds generalizing s tr with
  | nil => simp [exec]
  | cons cmd cmds ih =>
    rw [List.cons_append, exec_cons_eq_some]
    constructor
    · rintro ⟨s₁, e, tr', hs, hr, rfl⟩
      obtain ⟨s₂, tr₁, tr₂, h₁, h₂, rfl⟩ := ih.mp hr
      exact ⟨s₂, e :: tr₁, tr₂, exec_cons hs h₁, h₂, rfl⟩
    · rintro ⟨s₂, tr₁, tr₂, h₁, h₂, rfl⟩
      obtain ⟨s₁, e, tr', hs, hr, rfl⟩ := exec_cons_eq_some.mp h₁
      exact ⟨s₁, e, tr' ++ tr₂, hs, ih.mpr ⟨s₂, tr', tr₂, hr, h₂, rfl⟩, rfl⟩

/-- An execution is a run. -/
lemma run_of_exec {κ : Type*} {f : σ → κ → Option (σ × ε)} {s s' : σ} {cmds : List κ}
    {tr : List ε} (h : exec f s cmds = some (s', tr)) : Run (Does f) s tr s' := by
  induction cmds generalizing s tr with
  | nil =>
    cases h
    exact .nil _
  | cons cmd cmds ih =>
    obtain ⟨s₁, e, tr', hs, hr, rfl⟩ := exec_cons_eq_some.mp h
    have first : Run (Does f) s ([] ++ [e]) s₁ := .snoc (.nil s) ⟨cmd, e, hs, rfl⟩
    exact first.trans (ih hr)

/-- Nothing has happened yet. -/
lemma guarded_nil {φ : List ε → ε → Prop} : Guarded φ [] := by
  intro pre e post h
  simp at h

/-- A guard on a longer trace is the guard on the shorter one and on the last event. -/
lemma guarded_snoc {φ : List ε → ε → Prop} {tr : List ε} {e : ε} :
    Guarded φ (tr ++ [e]) ↔ Guarded φ tr ∧ φ tr e := by
  constructor
  · intro h
    refine ⟨fun pre d post hd => h pre d (post ++ [e]) (by simp [hd]), h tr e [] rfl⟩
  · rintro ⟨h, he⟩ pre d post hd
    obtain rfl | ⟨post, x, rfl⟩ := List.eq_nil_or_concat post
    · obtain ⟨rfl, hx⟩ := List.append_inj' hd rfl
      cases hx
      exact he
    · rw [List.concat_eq_append, ← List.cons_append, ← List.append_assoc] at hd
      exact h pre d post (List.append_inj' hd rfl).1

end Lts
