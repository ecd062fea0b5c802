import VtiDidcomm.Lts.Ranked
import VtiDidcomm.Resolver.Cache

/-!
# Calls in flight

Handler calls are threads that start, are waited for and end once: the resolver's calls are
simulated by `Lts.Threads`, whose `Told` says what their events tell. With it, `single_flight`: what
is in flight is the pending shared calls, one for a DID, and nobody waits for a call that has
completed.
-/

namespace VtiDidcomm.Resolver
open Js

variable {T : Type*}

/-- The handler call an event is of. -/
def Event.call : Event T → Option Nat
  | .called call _ _ => some call
  | .fulfilled call _ _ => some call
  | .rejected call _ => some call
  | _ => none

/-- Whether an event is the last of its call. -/
def Event.isLast : Event T → Bool
  | .fulfilled .. => true
  | .rejected .. => true
  | _ => false

/-- A call that was made for a DID and has not completed. -/
structure Outstanding (tr : List (Event T)) (call : Nat) (did : JsString) : Prop where
  called : ∃ options, .called call did options ∈ tr
  pending : ∀ e ∈ tr, e.call = some call → e.isLast = false

/-- What an event says of the calls before it: a call is new when it starts, and outstanding when it
completes or a caller comes to wait for it. -/
def InTurn (pre : List (Event T)) : Event T → Prop
  | .called call _ _ => ∀ e ∈ pre, e.call ≠ some call
  | .joined call did _ => Outstanding pre call did
  | .fulfilled call _ _ => ∃ did, Outstanding pre call did
  | .rejected call _ => ∃ did, Outstanding pre call did
  | _ => True

/-! ## Calls are threads -/

/-- The threads that wait in the pending calls. -/
structure Simulates (t : Lts.Threads Pending) (s : State T) : Prop where
  next : t.next = s.next
  phase : ∀ call, t.phase call = s.pending.get call

/-- The calls tell of themselves in the events. -/
abbrev Told (t : Lts.Threads Pending) (tr : List (Event T)) : Prop :=
  t.Told (fun _ => 0) 1 Event.call Event.isLast tr

/-- A step on the calls that wait. -/
abbrev Advances (t : Lts.Threads Pending) : Event T → Lts.Threads Pending → Prop :=
  t.Advances (fun _ => 0) 1 Event.call Event.isLast

variable {cfg : Config} {s s' : State T} {t : Lts.Threads Pending} {e : Event T}

/-- What a step does to the calls, and to what is in flight. -/
inductive Flies (s s' : State T) : Event T → Prop where
  | starts (p : Pending) : s'.next = s.next + 1 → s'.pending = s.pending.set s.next p →
    (p.share = none ∧ s'.inflight = s.inflight ∨
      s.inflight.get p.did = none ∧ s'.inflight = s.inflight.set p.did s.next) →
    Flies s s' (.called s.next p.did p.options)
  | ends {call p} {e : Event T} : s.pending.get call = some p → e.call = some call →
    e.isLast = true → s'.next = s.next → s'.pending = s.pending.delete call →
    (p.share = none ∧ s'.inflight = s.inflight ∨
      p.share.isSome = true ∧ s'.inflight = s.inflight.delete p.did) → Flies s s' e
  | same {e : Event T} : e.call = none → s'.next = s.next → s'.pending = s.pending →
    s'.inflight = s.inflight →
    (∀ call did options, e = .joined call did options → s.inflight.get did = some call) →
    Flies s s' e

/-- A completion is the last event of its call. -/
lemma Event.CompletesUnstored.isLast {call : Nat} (h : e.CompletesUnstored call) :
    e.call = some call ∧ e.isLast = true := by
  cases e with
  | rejected c err => exact ⟨congrArg some h, rfl⟩
  | fulfilled c result stored =>
    cases stored with
    | none => exact ⟨congrArg some h, rfl⟩
    | some _ => exact h.elim
  | _ => exact h.elim

/-- What a step does to the calls in flight. -/
lemma Steps.flies [LinearOrder T] [Add T] [Zero T] (hs : Steps cfg s s' e) : Flies s s' e := by
  cases hs with
  | @resolve did options _ _ hr =>
    cases hr with
    | bypassed => exact .starts ⟨did, options, none⟩ rfl rfl (.inl ⟨rfl, rfl⟩)
    | called hm hb hnone =>
      exact .starts ⟨did, options, some (cacheKey did)⟩ rfl rfl (.inr ⟨hnone, rfl⟩)
    | joined hm hb hcall =>
      refine .same rfl rfl rfl rfl ?_
      rintro _ _ _ ⟨⟩
      exact hcall
    | refused | refusedMissed | served => exact .same rfl rfl rfl rfl nofun
  | complete hp hc =>
    cases hc with
    | alone hshare he => exact .ends hp he.isLast.1 he.isLast.2 rfl rfl (.inl ⟨hshare, rfl⟩)
    | shared hshare he =>
      exact .ends hp he.isLast.1 he.isLast.2 rfl rfl (.inr ⟨hshare ▸ rfl, rfl⟩)
    | stored hshare hcache => exact .ends hp rfl rfl rfl rfl (.inr ⟨hshare ▸ rfl, rfl⟩)
  | invalidate | clearCache | setCacheTtl | tick => exact .same rfl rfl rfl rfl nofun

/-- Every step of the resolver is a step of the threads. -/
lemma Simulates.flies (h : Simulates t s) (hf : Flies s s' e) :
    ∃ t', Advances t e t' ∧ Simulates t' s' := by
  cases hf with
  | starts p hn hp hi =>
    refine ⟨t.start (some p), .starts (congrArg some h.next.symm) rfl ?_, ?_, fun call => ?_⟩
    · simp [Lts.Threads.rankOf]
    · rw [hn, ← h.next, Lts.Threads.next_start]
    · rw [hp, OrderedMap.get_set, ← h.next]
      split
      · rename_i hc
        rw [hc, Lts.Threads.phase_start_next]
      · rename_i hc
        rw [← h.phase]
        exact Function.update_of_ne hc ..
  | @ends call p _ hcall hof hlast hn hp hi =>
    have hphase : t.phase call = some p := (h.phase call).trans hcall
    refine ⟨t.move call none, .moves hphase hof hlast ?_, ?_, fun i => ?_⟩
    · simp [Lts.Threads.rankOf]
    · rw [hn, ← h.next, Lts.Threads.next_move]
    · by_cases hi : i = call
      · rw [hi, Lts.Threads.phase_move_self hphase, hp, OrderedMap.get_delete_self]
      · rw [Lts.Threads.phase_move_of_ne hi, hp, OrderedMap.get_delete_ne hi, h.phase]
  | same hof hn hp hi hjoined =>
    exact ⟨t, .idle hof, h.next.trans hn.symm, fun call => hp ▸ h.phase call⟩

/-! ## What is in flight -/

/-- The calls are told in the events, and those that are shared are in flight. -/
structure Flying (cfg : Config) (s : State T) (tr : List (Event T)) : Prop where
  wellFormed : WellFormed cfg s
  numbered : Numbered s tr
  told : ∃ t, Simulates t s ∧ Told t tr
  called : ∀ call p, s.pending.get call = some p → .called call p.did p.options ∈ tr
  inflight : ∀ call p, s.pending.get call = some p → p.share.isSome = true →
    s.inflight.get p.did = some call
  follows : Lts.Guarded InTurn tr

variable {tr : List (Event T)}

/-- The outstanding calls are the pending ones. -/
lemma Flying.outstanding_iff (h : Flying cfg s tr) {call : Nat} {did : JsString} :
    Outstanding tr call did ↔ ∃ p, s.pending.get call = some p ∧ p.did = did := by
  obtain ⟨t, hsim, htold⟩ := h.told
  have hcount {call : Nat} (hlt : call < s.next) :
      (∀ e ∈ tr, e.call = some call → e.isLast = false) ↔ (s.pending.get call).isSome = true := by
    have hends := (htold.started call (hsim.next ▸ hlt)).2
    rw [hsim.phase] at hends
    cases hget : s.pending.get call with
    | none =>
      rw [hget, if_pos rfl] at hends
      have hpos : 0 < (Lts.Threads.eventsOf Event.call call tr).countP Event.isLast := by omega
      obtain ⟨e, hmem, hlast⟩ := List.countP_pos_iff.mp hpos
      obtain ⟨hmem, hof⟩ := List.mem_filter.mp hmem
      simp only [Option.isSome_none, Bool.false_eq_true, iff_false, not_forall]
      exact ⟨e, hmem, by simpa using hof, by simp [hlast]⟩
    | some p =>
      rw [hget, if_neg (by simp), List.countP_eq_zero] at hends
      simp only [Option.isSome_some, iff_true]
      intro e hmem hof
      simpa using hends e (List.mem_filter.mpr ⟨hmem, by simpa using hof⟩)
  constructor
  · intro hout
    obtain ⟨options, hcalled⟩ := hout.called
    have hlt := h.numbered.lt _ _ _ hcalled
    obtain ⟨p, hp⟩ := Option.isSome_iff_exists.mp ((hcount hlt).mp hout.pending)
    exact ⟨p, hp, (h.numbered.unique _ _ _ _ _ (h.called _ _ hp) hcalled).1⟩
  · rintro ⟨p, hp, rfl⟩
    have hlt := h.wellFormed.pending_lt _ _ hp
    exact ⟨⟨_, h.called _ _ hp⟩, (hcount hlt).mpr (Option.isSome_iff_exists.mpr ⟨p, hp⟩)⟩

/-- An event follows what was told before it. -/
lemma Flying.follows_next (h : Flying cfg s tr) (hf : Flies s s' e) : InTurn tr e := by
  have outstanding {call : Nat} {p : Pending} (hp : s.pending.get call = some p) :
      Outstanding tr call p.did := h.outstanding_iff.mpr ⟨p, hp, rfl⟩
  cases hf with
  | starts p hn hp hi =>
    obtain ⟨t, hsim, htold⟩ := h.told
    intro e hmem hof
    have hmem' : e ∈ Lts.Threads.eventsOf Event.call s.next tr :=
      List.mem_filter.mpr ⟨hmem, by simpa using hof⟩
    rw [htold.fresh s.next (Nat.le_of_eq hsim.next)] at hmem'
    cases hmem'
  | ends hcall hof hlast hn hp hi =>
    cases e with
    | fulfilled c result stored =>
      cases hof
      exact ⟨_, outstanding hcall⟩
    | rejected c err =>
      cases hof
      exact ⟨_, outstanding hcall⟩
    | _ => cases hlast
  | same hof hn hp hi hjoined =>
    cases e with
    | joined call did options =>
      obtain ⟨p, hp, rfl, -⟩ := h.wellFormed.inflight _ _ (hjoined _ _ _ rfl)
      exact outstanding hp
    | called | fulfilled | rejected => cases hof
    | _ => trivial

/-- The next call is in flight beside the others. -/
lemma Flying.inflight_next (h : Flying cfg s tr) (hf : Flies s s' e) (call : Nat) (p : Pending)
    (hp : s'.pending.get call = some p) (hshare : p.share.isSome = true) :
    s'.inflight.get p.did = some call := by
  cases hf with
  | starts q hn hpend hi =>
    rw [hpend, OrderedMap.get_set] at hp
    split at hp
    · rename_i hcall
      cases hp
      obtain ⟨hnone, -⟩ | ⟨-, hi⟩ := hi
      · rw [hnone] at hshare
        cases hshare
      · rw [hi, hcall, OrderedMap.get_set_self]
    · have hold := h.inflight _ _ hp hshare
      obtain ⟨-, hi⟩ | ⟨hnone, hi⟩ := hi
      · rwa [hi]
      · -- the DID of another call in flight is another one
        rw [hi, OrderedMap.get_set_ne, hold]
        intro hsame
        rw [hsame, hnone] at hold
        cases hold
  | @ends c q _ hcall hof hlast hn hpend hi =>
    rw [hpend] at hp
    obtain ⟨hne, hp⟩ := OrderedMap.get_delete_eq_some.mp hp
    have hold := h.inflight _ _ hp hshare
    obtain ⟨-, hi⟩ | ⟨hshared, hi⟩ := hi
    · rwa [hi]
    · rw [hi, OrderedMap.get_delete_ne, hold]
      intro hsame
      have hother := h.inflight _ _ hcall hshared
      rw [← hsame, hold, Option.some.injEq] at hother
      exact hne hother
  | same hof hn hpend hi hjoined =>
    rw [hpend] at hp
    rw [hi]
    exact h.inflight _ _ hp hshare

/-- A call that is pending was made. -/
lemma Flying.called_next (h : Flying cfg s tr) (hf : Flies s s' e) (call : Nat) (p : Pending)
    (hp : s'.pending.get call = some p) : .called call p.did p.options ∈ tr ++ [e] := by
  cases hf with
  | starts q hn hpend hi =>
    rw [hpend, OrderedMap.get_set] at hp
    split at hp
    · rename_i hcall
      cases hp
      rw [hcall]
      exact List.mem_append_right _ (List.mem_singleton_self _)
    · exact List.mem_append_left _ (h.called _ _ hp)
  | ends hcall hof hlast hn hpend hi =>
    rw [hpend] at hp
    exact List.mem_append_left _ (h.called _ _ (OrderedMap.get_of_get_delete hp))
  | same hof hn hpend hi hjoined =>
    rw [hpend] at hp
    exact List.mem_append_left _ (h.called _ _ hp)

variable [LinearOrder T] [Add T] [Zero T]

/-- A step keeps track of the calls in flight. -/
lemma Flying.steps (h : Flying cfg s tr) (hs : Steps cfg s s' e) : Flying cfg s' (tr ++ [e]) := by
  have hf := hs.flies
  obtain ⟨t, hsim, htold⟩ := h.told
  obtain ⟨t', hadvances, hsim'⟩ := hsim.flies hf
  exact ⟨h.wellFormed.steps hs, h.numbered.steps hs, ⟨t', hsim', htold.advances hadvances⟩,
    h.called_next hf, h.inflight_next hf, Lts.guarded_snoc.mpr ⟨h.follows, h.follows_next hf⟩⟩

/-- A run keeps track of the calls in flight. -/
lemma flying_of_run {ttl now : T} (r : Lts.Run (Step cfg) (init ttl now) tr s) :
    Flying cfg s tr := by
  have hinit : Flying cfg (init ttl now) [] :=
    ⟨wellFormed_init ttl now, numbered_init ttl now,
      ⟨.empty, ⟨rfl, fun _ => rfl⟩, Lts.Threads.told_empty⟩, nofun, nofun, Lts.guarded_nil⟩
  apply r.invariant hinit
  intro s tr evs s' h hstep
  obtain ⟨e, rfl, hs⟩ := Step.steps hstep
  exact h.steps hs

/-! ## One flight for a DID -/

omit [Add T] in
/-- A `resolve` that finds no live entry waits for the call in flight of its DID, if there is one. -/
lemma resolve_joins {did method : JsString} {options : ResolveOptions} {call : Nat}
    (hm : parseMethod did = .ok method) (hb : bypasses cfg s method options = false)
    (hlive : ∀ hit, s.cache.get (cacheKey did) = some hit → hit.expires ≤ s.now)
    (hcall : s.inflight.get did = some call) :
    (resolve cfg s did options).2 = .joined call did options := by
  have hmissed {s : State T} (hcall : s.inflight.get did = some call) :
      (resolveMissed cfg s did method options).2 = .joined call did options := by
    simp only [resolveMissed, hcall]
  unfold resolve
  simp only [hm, hb, Bool.false_eq_true, if_false]
  split
  · rename_i hit hhit
    rw [if_neg (not_lt.mpr (hlive hit hhit))]
    exact hmissed hcall
  · exact hmissed hcall

/-- The inputs that complete a call. -/
inductive Settles (call : Nat) : Command T → Prop where
  | fulfil (result) : Settles call (.fulfil call result)
  | reject (err) : Settles call (.reject call err)

omit [Zero T] in
/-- A completion ends its call. -/
lemma Completes.ends {call : Nat} {p : Pending} (h : Completes cfg s call p s' e) :
    e.call = some call ∧ e.isLast = true ∧ s'.pending = s.pending.delete call := by
  cases h with
  | alone hshare he => exact ⟨he.isLast.1, he.isLast.2, rfl⟩
  | shared hshare he => exact ⟨he.isLast.1, he.isLast.2, rfl⟩
  | stored hshare hcache => exact ⟨rfl, rfl, rfl⟩

/-- A pending call completes with whatever its handler does. -/
lemma completes_of_pending (cfg : Config) {call : Nat} {p : Pending}
    (hp : s.pending.get call = some p) {cmd : Command T} (hcmd : Settles call cmd) :
    ∃ s' e, step cfg s cmd = some (s', e) ∧ Completes cfg s call p s' e := by
  cases hcmd with
  | fulfil result =>
    have hsome : (fulfil cfg s call result).isSome = true := by
      unfold fulfil
      rw [hp]
      dsimp only
      split
      · rfl
      · split
        · rfl
        · split <;> rfl
    obtain ⟨⟨s', e⟩, hs⟩ := Option.isSome_iff_exists.mp hsome
    obtain ⟨q, hq, hcompletes⟩ := fulfil_completes hs
    cases hp.symm.trans hq
    exact ⟨s', e, hs, hcompletes⟩
  | reject err =>
    have hsome : (reject s call err).isSome = true := by
      rw [reject, hp]
      rfl
    obtain ⟨⟨s', e⟩, hs⟩ := Option.isSome_iff_exists.mp hsome
    obtain ⟨q, hq, hcompletes⟩ := reject_completes cfg hs
    cases hp.symm.trans hq
    exact ⟨s', e, hs, hcompletes⟩

/-- Concurrent resolutions share their calls, and no caller is left behind. In any run a call starts
once, completes at most once, and is waited for by resolutions of its own DID only while it is
outstanding. The calls in flight are the pending shared ones, one for a DID: a resolution that finds
no live entry waits for it, and starts none. A pending call can complete, and nobody waits for it
after that. -/
theorem single_flight {ttl now : T} (r : Lts.Run (Step cfg) (init ttl now) tr s) :
    Lts.Guarded InTurn tr ∧
    (∀ call did, Outstanding tr call did ↔ ∃ p, s.pending.get call = some p ∧ p.did = did) ∧
    (∀ did call, s.inflight.get did = some call ↔
      ∃ p, s.pending.get call = some p ∧ p.did = did ∧ p.share.isSome = true) ∧
    (∀ did method options call, parseMethod did = .ok method →
      bypasses cfg s method options = false →
      (∀ hit, s.cache.get (cacheKey did) = some hit → hit.expires ≤ s.now) →
      s.inflight.get did = some call → (resolve cfg s did options).2 = .joined call did options) ∧
    ∀ call p cmd, s.pending.get call = some p → Settles call cmd →
      ∃ s' e, step cfg s cmd = some (s', e) ∧ e.call = some call ∧ e.isLast = true ∧
        ∀ did, s'.inflight.get did ≠ some call := by
  have inv := flying_of_run r
  refine ⟨inv.follows, fun call did => inv.outstanding_iff, fun did call => ⟨?_, ?_⟩, ?_, ?_⟩
  · exact inv.wellFormed.inflight did call
  · rintro ⟨p, hp, rfl, hshare⟩
    exact inv.inflight call p hp hshare
  · intro did method options call hm hb hlive hcall
    exact resolve_joins hm hb hlive hcall
  · intro call p cmd hp hcmd
    obtain ⟨s', e, hs, hcompletes⟩ := completes_of_pending cfg hp hcmd
    obtain ⟨hof, hlast, hpend⟩ := hcompletes.ends
    refine ⟨s', e, hs, hof, hlast, fun did hin => ?_⟩
    obtain ⟨q, hq, -⟩ := (inv.wellFormed.steps (.complete hp hcompletes)).inflight did call hin
    rw [hpend, OrderedMap.get_delete_self] at hq
    cases hq

/-- Two resolutions of a DID share a call, which then completes. -/
theorem single_flight_example :
    ∃ tr s, .joined 0 (js "did:webvh:Qm:a.example") {} ∈ tr ∧ Lts.Guarded InTurn tr ∧
      (∀ did, s.inflight.get did ≠ some 0) ∧
      Lts.Run (Step ⟨1, [js "webvh"]⟩) (init 10 0 : State Nat) tr s := by
  let did := js "did:webvh:Qm:a.example"
  let err := error (js "timeout")
  have hrun := Lts.run_of_exec
    (show Lts.exec (step ⟨1, [js "webvh"]⟩) (init 10 0 : State Nat)
      [.resolve did {}, .resolve did {}, .reject 0 err] =
        some (_, [.called 0 did {}, .joined 0 did {}, .rejected 0 err]) from rfl)
  obtain ⟨hfollows, -, hinflight, -⟩ := single_flight hrun
  refine ⟨_, _, List.mem_cons_of_mem _ List.mem_cons_self, hfollows, fun did h => ?_, hrun⟩
  obtain ⟨p, hp, -⟩ := (hinflight did 0).mp h
  cases hp

end VtiDidcomm.Resolver
