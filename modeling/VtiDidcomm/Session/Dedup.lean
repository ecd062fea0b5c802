import VtiDidcomm.Session.Sender

/-!
# Redeliveries

How often a session hands a queued frame off. The `_seen` check of a handler and its `_markSeen` are
separate steps, with the consumer between them; a redelivery that is checked while the first
delivery is there is handed off a second time (`overlapping_redelivery`). Where no check is made
while another handler of the same queue id is between its own check and its mark, no frame is handed
off after a success, nor succeeds twice: `dispatched_at_most_once`.
-/

namespace VtiDidcomm.Session
open Js

variable (cfg : Config) (q : JsString)

/-- The handler is about to check whether the queue id `q` was seen. -/
def Phase.Checks : Phase → Prop
  | .hashing text _ => cfg.sha256Hex text = q
  | .tspHashing text _ => cfg.sha256Hex text = q
  | _ => False

/-- The handler has handed off the queue id `q`, and its consumer has not settled. -/
def Phase.Pending : Phase → Prop
  | .delivering text _ true => cfg.sha256Hex text = q
  | .tspConsuming text => cfg.sha256Hex text = q
  | _ => False

/-- The consumer of the queue id `q` has succeeded, and the handler has not marked it. -/
def Phase.Succeeded : Phase → Prop
  | .delivered text _ true => cfg.sha256Hex text = q
  | .tspConsumed text => cfg.sha256Hex text = q
  | _ => False

/-- The handler is between its check of the queue id `q` and its mark. -/
def Phase.Holds (p : Phase) : Prop := p.Pending cfg q ∨ p.Succeeded cfg q

/-- The event hands a frame with the queue id `q` to a consumer. -/
def Event.HandsOff : Event → Prop
  | .handed _ text _ true _ _ _ => cfg.sha256Hex text = q
  | .tspHanded _ text _ => cfg.sha256Hex text = q
  | _ => False

/-- The hand-off of a frame with the queue id `q` succeeds. -/
def Event.Succeeds : Event → Prop
  | .completed _ text _ true => cfg.sha256Hex text = q
  | .tspFulfilled _ text => cfg.sha256Hex text = q
  | _ => False

/-- A queue id is checked only while no handler is between its check of it and its mark. -/
def Unraced (s : State) : Input → Prop
  | .hashed h => ∀ p q, s.handlers.phase h = some p → p.Checks cfg q →
    ∀ j r, s.handlers.phase j = some r → ¬ r.Holds cfg q
  | _ => True

/-- A queue id is not handed off after it succeeded, and succeeds once. -/
def AtMostOnce (pre : List Event) (e : Event) : Prop :=
  ∀ q, e.HandsOff cfg q ∨ e.Succeeds cfg q → ∀ d ∈ pre, ¬ d.Succeeds cfg q

/-- The queue ids that were marked. -/
def marked (tr : List Event) : List JsString := tr.flatMap Event.marks

/-! ## The invariant -/

/-- A queue id that succeeded is marked or about to be; one that is handed off again has not. -/
structure Dispatched (s : State) (tr : List Event) : Prop where
  records : BoundedSet.Records s.seen (marked tr)
  alone : ∀ q, s.handlers.Alone (·.Holds cfg q)
  succeeded : ∀ d ∈ tr, ∀ q, d.Succeeds cfg q →
    (∃ h p, s.handlers.phase h = some p ∧ p.Succeeded cfg q) ∨ q ∈ marked tr
  pending : BoundedSet.Fits maxSeen (marked tr) →
    s.handlers.Each fun _ p => ∀ q, p.Pending cfg q → ∀ d ∈ tr, ¬ d.Succeeds cfg q
  once : BoundedSet.Fits maxSeen (marked tr) → Lts.Guarded (AtMostOnce cfg) tr

/-- Nothing is dispatched at first. -/
lemma dispatched_init : Dispatched cfg {} [] where
  records := BoundedSet.records_empty
  alone _ := Lts.Threads.alone_empty _
  succeeded := by simp
  pending _ := Lts.Threads.each_empty _
  once _ := Lts.guarded_nil

variable {cfg q} {s : State}

section Moves
variable {seen : BoundedSet JsString maxSeen} {mb mb' : Mailbox.State} {h : Nat} {input : Input}
  {p r : Phase} {p' : Option Phase} {e : Event}

/-- A hand-off follows a check that did not find the id. -/
lemma Moves.handsOff (hm : Moves cfg seen mb h input p p' mb' e) (he : e.HandsOff cfg q) :
    input = .hashed h ∧ p.Checks cfg q ∧ q ∉ seen.items := by
  cases hm with
  | handedQueued hseen => exact ⟨rfl, he, he ▸ hseen⟩
  | tspHanded hseen => exact ⟨rfl, he, he ▸ hseen⟩
  | _ => exact he.elim

/-- Only a hand-off leaves a consumer to wait for. -/
lemma Moves.handsOff_of_pending (hm : Moves cfg seen mb h input p (some r) mb' e)
    (hr : r.Pending cfg q) : e.HandsOff cfg q := by
  cases hm with
  | handedQueued => exact hr
  | tspHanded => exact hr
  | completed => exact hr.elim
  | _ => exact hr.elim

/-- A success follows a hand-off, and leaves the id to be marked. -/
lemma Moves.succeeds (hm : Moves cfg seen mb h input p p' mb' e) (he : e.Succeeds cfg q) :
    p.Pending cfg q ∧ ∃ r, p' = some r ∧ r.Succeeded cfg q := by
  cases hm with
  | @completed text r queued outcome =>
    cases queued with
    | true => exact ⟨he, _, rfl, he⟩
    | false => exact he.elim
  | tspFulfilled => exact ⟨he, _, rfl, he⟩
  | _ => exact he.elim

/-- Only a success leaves an id to be marked. -/
lemma Moves.succeeds_of_succeeded (hm : Moves cfg seen mb h input p (some r) mb' e)
    (hr : r.Succeeded cfg q) : e.Succeeds cfg q := by
  cases hm with
  | @completed text r queued outcome =>
    cases queued with
    | true => exact hr
    | false => exact hr.elim
  | tspFulfilled => exact hr
  | _ => exact hr.elim

/-- A handler goes on from a success by marking the id. -/
lemma Moves.marks_of_succeeded (hm : Moves cfg seen mb h input p p' mb' e)
    (hp : p.Succeeded cfg q) : q ∈ e.marks := by
  cases hm with
  | acked => exact List.mem_singleton.mpr hp.symm
  | tspAcked => exact List.mem_singleton.mpr hp.symm
  | _ => exact hp.elim

end Moves

/-- A handler that starts holds nothing. -/
lemma Starts.not_holds {data : FrameData} {h : Nat} {p : Phase} {e : Event}
    (hs : Starts cfg data h (some p) e) : ¬ p.Holds cfg q := by
  rintro (hp | hp) <;> cases hs <;> exact hp

/-- The other steps hand nothing off, and nothing succeeds in them. -/
def Event.Idle (e : Event) : Prop :=
  e.marks = [] ∧ ∀ cfg q, ¬ e.HandsOff cfg q ∧ ¬ e.Succeeds cfg q

/-- A handler that starts dispatches nothing. -/
lemma Starts.idle {data : FrameData} {h : Nat} {p : Option Phase} {e : Event}
    (hs : Starts cfg data h p e) : e.Idle := by
  cases hs <;> exact ⟨rfl, fun _ _ => ⟨id, id⟩⟩

/-- The last event marks last. -/
lemma marked_snoc (tr : List Event) (e : Event) : marked (tr ++ [e]) = marked tr ++ e.marks := by
  simp [marked, List.flatMap_append]

namespace Dispatched
variable {tr : List Event} (inv : Dispatched cfg s tr)
include inv

/-- An id that was not seen and no handler holds has not succeeded. -/
lemma not_succeeded (hfits : BoundedSet.Fits maxSeen (marked tr)) (hseen : q ∉ s.seen.items)
    (hfree : ∀ j r, s.handlers.phase j = some r → ¬ r.Holds cfg q) :
    ∀ d ∈ tr, ¬ d.Succeeds cfg q := by
  intro d hd hs
  obtain ⟨j, r, hj, hr⟩ | hmem := inv.succeeded d hd q hs
  · exact hfree j r hj (.inr hr)
  · exact hseen (inv.records.all hfits q hmem)

/-- A step without a dispatch keeps the invariant. -/
lemma idle {s' : State} {e : Event} (he : e.Idle) (hseen : s'.seen = s.seen)
    (alone : ∀ q, s'.handlers.Alone (·.Holds cfg q))
    (stays : ∀ h p, s.handlers.phase h = some p → s'.handlers.phase h = some p)
    (pending : ∀ h p q, s'.handlers.phase h = some p → p.Pending cfg q →
      s.handlers.phase h = some p) : Dispatched cfg s' (tr ++ [e]) where
  records := by
    rw [marked_snoc, he.1, List.append_nil, hseen]
    exact inv.records
  alone := alone
  succeeded d hd q hq := by
    rw [marked_snoc, he.1, List.append_nil]
    obtain hd | hd := List.mem_append.mp hd
    · exact (inv.succeeded d hd q hq).imp_left fun ⟨h, p, hp, hs⟩ => ⟨h, p, stays h p hp, hs⟩
    · cases List.mem_singleton.mp hd
      exact absurd hq (he.2 cfg q).2
  pending hfits h p hp q hq d hd := by
    rw [marked_snoc, he.1, List.append_nil] at hfits
    obtain hd | hd := List.mem_append.mp hd
    · exact inv.pending hfits h p (pending h p q hp hq) q hq d hd
    · cases List.mem_singleton.mp hd
      exact (he.2 cfg q).2
  once hfits := by
    rw [marked_snoc, he.1, List.append_nil] at hfits
    refine Lts.guarded_snoc.mpr ⟨inv.once hfits, fun q hq => ?_⟩
    exact absurd hq (not_or.mpr (he.2 cfg q))

/-- A handler's move keeps the invariant. -/
lemma moves {input : Input} {h : Nat} {p : Phase} {p' : Option Phase} {mb : Mailbox.State}
    {e : Event} (hp : s.handlers.phase h = some p)
    (hm : Moves cfg s.seen s.mailbox h input p p' mb e) (hcond : Unraced cfg s input) :
    Dispatched cfg
      { handlers := s.handlers.move h p', seen := e.marks.foldl .add s.seen, mailbox := mb }
      (tr ++ [e]) := by
  -- a hand-off finds no handler holding its id
  have free : ∀ q, e.HandsOff cfg q → q ∉ s.seen.items ∧
      ∀ j r, s.handlers.phase j = some r → ¬ r.Holds cfg q := by
    intro q he
    obtain ⟨rfl, hchecks, hseen⟩ := hm.handsOff he
    exact ⟨hseen, hcond p q hp hchecks⟩
  have fits : BoundedSet.Fits maxSeen (marked (tr ++ [e])) → BoundedSet.Fits maxSeen (marked tr) :=
    fun hfits => (marked_snoc tr e ▸ hfits).left
  refine ⟨?_, ?_, ?_, ?_, ?_⟩
  · rw [marked_snoc]
    exact inv.records.addAll e.marks
  · -- the handler that moves holds what it handed off, or held before
    intro q
    apply (inv.alone q).move
    intro r hr hholds j r' hj hr' hholds'
    subst hr
    obtain hpending | hsucceeded := hholds
    · exact (free q (hm.handsOff_of_pending hpending)).2 j r' hr' hholds'
    · obtain ⟨hpending, -⟩ := hm.succeeds (hm.succeeds_of_succeeded hsucceeded)
      exact hj (inv.alone q j h r' p hr' hp hholds' (.inl hpending))
  · -- an id that succeeded is marked when its handler moves on
    intro d hd q hq
    rw [marked_snoc]
    obtain hd | hd := List.mem_append.mp hd
    · obtain ⟨j, r, hj, hr⟩ | hmem := inv.succeeded d hd q hq
      · by_cases hjh : j = h
        · subst hjh
          cases hj.symm.trans hp
          exact .inr (List.mem_append_right _ (hm.marks_of_succeeded hr))
        · refine .inl ⟨j, r, ?_, hr⟩
          exact (Lts.Threads.phase_move_of_ne hjh p').trans hj
      · exact .inr (List.mem_append_left _ hmem)
    · cases List.mem_singleton.mp hd
      obtain ⟨-, r, hr, hs⟩ := hm.succeeds hq
      exact .inl ⟨h, r, (Lts.Threads.phase_move_self hp p').trans hr, hs⟩
  · -- no id is pending that has succeeded
    intro hfits j r hj q hq d hd hs
    obtain ⟨rfl, hr⟩ | ⟨hne, hj⟩ := Lts.Threads.of_phase_move hj
    · subst hr
      have he := hm.handsOff_of_pending hq
      obtain ⟨hseen, hfree⟩ := free q he
      obtain hd | hd := List.mem_append.mp hd
      · exact inv.not_succeeded (fits hfits) hseen hfree d hd hs
      · cases List.mem_singleton.mp hd
        exact hfree _ p hp (.inl (hm.succeeds hs).1)
    · obtain hd | hd := List.mem_append.mp hd
      · exact inv.pending (fits hfits) j r hj q hq d hd hs
      · cases List.mem_singleton.mp hd
        exact hne (inv.alone q j h r p hj hp (.inl hq) (.inl (hm.succeeds hs).1))
  · intro hfits
    refine Lts.guarded_snoc.mpr ⟨inv.once (fits hfits), fun q hq => ?_⟩
    obtain he | he := hq
    · obtain ⟨hseen, hfree⟩ := free q he
      exact inv.not_succeeded (fits hfits) hseen hfree
    · exact inv.pending (fits hfits) h p hp q (hm.succeeds he).1

/-- Every step that meets the condition keeps the invariant. -/
lemma steps {input : Input} {s' : State} {e : Event} (hs : Steps cfg s input s' e)
    (hcond : Unraced cfg s input) : Dispatched cfg s' (tr ++ [e]) := by
  cases hs with
  | starts hst =>
    refine inv.idle hst.idle rfl (fun q => ?_)
      (fun h p hp => Lts.Threads.phase_start_of_some hp _) fun h p q hp hq => ?_
    · apply (inv.alone q).start
      intro r hr
      subst hr
      exact hst.not_holds
    · obtain ⟨-, hr⟩ | ⟨-, hp⟩ := Lts.Threads.of_phase_start hp
      · subst hr
        exact absurd (.inl hq) hst.not_holds
      · exact hp
  | moves hp hm => exact inv.moves hp hm hcond
  | mailbox hne hmb =>
    exact inv.idle ⟨rfl, fun _ _ => ⟨id, id⟩⟩ rfl inv.alone (fun _ _ hp => hp) fun _ _ _ hp _ => hp

end Dispatched

/-- The ids that were marked are recorded. -/
lemma records_of_run {tr : List Event} (r : Lts.Run (Step cfg) {} tr s) :
    BoundedSet.Records s.seen (marked tr) := by
  refine r.invariant (I := fun s tr => BoundedSet.Records s.seen (marked tr))
    BoundedSet.records_empty fun {s tr evs s'} ih hs => ?_
  obtain ⟨input, e, rfl, h⟩ := hs.steps
  rw [marked_snoc]
  cases h with
  | starts hst =>
    rw [hst.idle.1, List.append_nil]
    exact ih
  | moves hp hm => exact ih.addAll _
  | mailbox =>
    rw [show Event.marks (.mailbox _) = [] from rfl, List.append_nil]
    exact ih

/-- A session keeps at most `maxSeen` ids, all of them marked. Where no queue id is checked while
another handler is between its own check and its mark, and no more than `maxSeen` different ids are
marked, no id is handed off after a success, and none succeeds twice. -/
theorem dispatched_at_most_once (cfg : Config) :
    (∀ tr s, Lts.Run (Step cfg) {} tr s →
      s.seen.items.length ≤ maxSeen ∧ ∀ q ∈ s.seen.items, q ∈ marked tr) ∧
    (∀ tr s, Lts.Run (Lts.DoesIf (step cfg) (Unraced cfg)) {} tr s →
      BoundedSet.Fits maxSeen (marked tr) → Lts.Guarded (AtMostOnce cfg) tr) := by
  refine ⟨fun tr s r => ⟨s.seen.length_le, (records_of_run r).only⟩, fun tr s r => ?_⟩
  have inv : Dispatched cfg s tr := by
    refine r.invariant (dispatched_init cfg) fun inv hs => ?_
    obtain ⟨input, e, hcond, hstep, rfl⟩ := hs
    exact inv.steps (steps_of_step hstep) hcond
  exact inv.once

/-! ## Runs -/

/-- Where no handler holds an id, any check is free. -/
lemma unraced_of_free (h : s.handlers.Each fun _ p => ∀ q, ¬ p.Holds cfg q) (input : Input) :
    Unraced cfg s input := by
  cases input with
  | hashed i => exact fun p q _ _ j r hj => h j r hj q
  | _ => trivial

/-- A frame that is redelivered after its ack is acked again, and not handed off. -/
theorem dispatched_at_most_once_example :
    ∃ tr s, Lts.Run (Lts.DoesIf (step .tsp) (Unraced .tsp)) {} tr s ∧
      Lts.Guarded (AtMostOnce .tsp) tr ∧
      .acked 1 (Config.tsp.sha256Hex tspFrame) false ∈ tr := by
  let hashing : Phase := .tspHashing tspFrame [0xf8, 0x40, 0x00]
  let t₁ := Lts.Threads.empty.start (some hashing)
  let t₃ := (t₁.move 0 (some (.tspConsuming tspFrame))).move 0 (some (.tspConsumed tspFrame))
  let s₄ : State := { handlers := t₃.move 0 none, seen := BoundedSet.empty.add tspFrame }
  have hashing_free : ∀ q, ¬ hashing.Holds .tsp q := fun q h => h.elim id id
  have free₁ : t₁.Each fun _ p => ∀ q, ¬ p.Holds .tsp q := by
    refine (Lts.Threads.each_empty _).start ?_
    rintro p ⟨⟩
    exact hashing_free
  have ended : ∀ j, s₄.handlers.phase j = none := by
    simp [s₄, t₃, t₁, Lts.Threads.move, Lts.Threads.start, Lts.Threads.empty]
  have free₅ : (s₄.handlers.start (some hashing)).Each fun _ p => ∀ q, ¬ p.Holds .tsp q := by
    refine Lts.Threads.Each.start (fun j p hp => ?_) ?_
    · rw [ended j] at hp
      cases hp
    · rintro p ⟨⟩
      exact hashing_free
  have r₀ : Lts.Run (Lts.DoesIf (step .tsp) (Unraced .tsp)) {} [] {} := .nil _
  have r₁ : Lts.Run (Lts.DoesIf (step .tsp) (Unraced .tsp)) {} _ { handlers := t₁ } :=
    r₀.snoc ⟨.receive (.text tspFrame), .received 0 tspFrame, trivial, rfl, rfl⟩
  have r₂ := r₁.snoc
    ⟨.hashed 0, .tspHanded 0 tspFrame [0xf8, 0x40, 0x00], unraced_of_free free₁ _, rfl, rfl⟩
  have r₃ := r₂.snoc ⟨.settled 0 (.ok ()), .tspFulfilled 0 tspFrame, trivial, rfl, rfl⟩
  have r₄ : Lts.Run (Lts.DoesIf (step .tsp) (Unraced .tsp)) {} _ s₄ :=
    r₃.snoc ⟨.resumed 0, .acked 0 tspFrame true, trivial, rfl, rfl⟩
  have r₅ : Lts.Run (Lts.DoesIf (step .tsp) (Unraced .tsp)) {} _
      { s₄ with handlers := s₄.handlers.start (some hashing) } :=
    r₄.snoc ⟨.receive (.text tspFrame), .received 1 tspFrame, trivial, rfl, rfl⟩
  have r₆ := r₅.snoc ⟨.hashed 1, .acked 1 tspFrame false, unraced_of_free free₅ _, rfl, rfl⟩
  have once := (dispatched_at_most_once .tsp).2 _ _ r₆
    ⟨[tspFrame], by decide, by simp [marked, Event.marks]⟩
  exact ⟨_, _, r₆, once, List.mem_append_right _ (List.mem_singleton_self _)⟩

/-- A frame that is redelivered while its consumer has not settled is handed off a second time, and
succeeds twice. -/
theorem overlapping_redelivery :
    ¬ ∀ tr s, Lts.Run (Step .tsp) {} tr s → BoundedSet.Fits maxSeen (marked tr) →
      Lts.Guarded (AtMostOnce .tsp) tr := by
  intro h
  let pre : List Event := [.received 0 tspFrame, .tspHanded 0 tspFrame [0xf8, 0x40, 0x00],
    .received 1 tspFrame, .tspHanded 1 tspFrame [0xf8, 0x40, 0x00], .tspFulfilled 0 tspFrame]
  have hrun := Lts.run_of_exec
    (show Lts.exec (step .tsp) {} [.receive (.text tspFrame), .hashed 0, .receive (.text tspFrame),
      .hashed 1, .settled 0 (.ok ()), .settled 1 (.ok ())] =
        some (_, pre ++ [.tspFulfilled 1 tspFrame]) from rfl)
  have honce := h _ _ hrun ⟨[], by simp, by simp [marked, Event.marks, pre]⟩ pre
    (.tspFulfilled 1 tspFrame) [] rfl
  exact honce _ (.inr rfl) (.tspFulfilled 0 tspFrame) (by simp [pre]) rfl

end VtiDidcomm.Session
