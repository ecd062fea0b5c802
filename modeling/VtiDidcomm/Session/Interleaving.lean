import VtiDidcomm.Session.Dedup
import VtiDidcomm.Session.Isolation

/-!
# Runs without bad frames

A run of a session and the same run without some frames that it drops. The handlers that stay are
numbered as if the others had not started; `Erased` relates the two states, and `perform_mirrors` is
the step of the simulation. `exec_without` is what it gives: the rest of the run goes as it went, as
long as `_seen` says the same to both.
-/

namespace VtiDidcomm.Session
open Js

/-! ## Numbers of handlers -/

/-- An input for the handler of another number. -/
def Input.renumber (ρ : Nat → Nat) : Input → Input
  | .receive data => .receive data
  | .unpacked h resolve => .unpacked (ρ h) resolve
  | .hashed h => .hashed (ρ h)
  | .settled h outcome => .settled (ρ h) outcome
  | .resumed h => .resumed (ρ h)
  | .waitFor thid from' => .waitFor thid from'
  | .expire timer => .expire timer
  | .socketDown => .socketDown
  | .close => .close

/-- An event of the handler of another number. -/
def Event.renumber (ρ : Nat → Nat) : Event → Event
  | .received h text => .received (ρ h) text
  | .ignored h text => .ignored (ρ h) text
  | .failed h text report => .failed (ρ h) text report
  | .accepted h text r => .accepted (ρ h) text r
  | .refused h text report => .refused (ρ h) text report
  | .handed h text r queued sender listener e => .handed (ρ h) text r queued sender listener e
  | .tspHanded h text qb2 => .tspHanded (ρ h) text qb2
  | .completed h text r queued => .completed (ρ h) text r queued
  | .tspFulfilled h text => .tspFulfilled (ρ h) text
  | .tspThrew h text report => .tspThrew (ρ h) text report
  | .ended h text => .ended (ρ h) text
  | .acked h queueId marked => .acked (ρ h) queueId marked
  | .mailbox e => .mailbox e

def Outcome.renumber (ρ : Nat → Nat) : Outcome → Outcome
  | .event e => .event (e.renumber ρ)
  | .rejected h err => .rejected (ρ h) err

def Action.renumber (ρ : Nat → Nat) (a : Action) : Action :=
  { a with input := a.input.renumber ρ }

/-- The handler an input is for; a frame starts the handler `next`. -/
def Input.handler (next : Nat) : Input → Option Nat
  | .receive _ => some next
  | .unpacked h _ => some h
  | .hashed h => some h
  | .settled h _ => some h
  | .resumed h => some h
  | .waitFor .. => none
  | .expire _ => none
  | .socketDown => none
  | .close => none

/-- The number of the next handler after an input. -/
def Input.next (next : Nat) : Input → Nat
  | .receive _ => next + 1
  | _ => next

variable (cfg : Config) (out : Nat → Prop) [DecidablePred out]

/-- The actions without the frames of the handlers `out`. -/
def actionsWithout : Nat → List Action → List Action
  | _, [] => []
  | next, a :: as =>
    if ∃ h ∈ a.input.handler next, out h then actionsWithout (a.input.next next) as
    else a.renumber (Lts.renumber out) :: actionsWithout (a.input.next next) as

/-- What comes of a run without what came of the frames of the handlers `out`. -/
def outcomesWithout (tr : List Outcome) : List Outcome :=
  (tr.filter fun o => ¬ ∃ h ∈ o.handler, out h).map (Outcome.renumber (Lts.renumber out))

/-- The state `s'` is the state `s` without the handlers `out`. -/
structure Erased (s s' : State) : Prop where
  handlers : Lts.Threads.Without out s.handlers s'.handlers
  mailbox : s'.mailbox = s.mailbox

/-- A step of the one, and the same step of the other. -/
def Mirrors (r r' : State × Event) : Prop :=
  Erased out r.1 r'.1 ∧ r'.2 = r.2.renumber (Lts.renumber out)

variable {cfg out} {s s' : State}

/-- A handler that stays moves on both sides. -/
lemma Erased.goto (hE : Erased out s s') {h : Nat} (hin : ¬ out h) (p : Option Phase) :
    Erased out (s.goto h p) (s'.goto (Lts.renumber out h) p) :=
  ⟨hE.handlers.move hin p, hE.mailbox⟩

/-- A handler that stays starts on both sides. -/
lemma Erased.start (hE : Erased out s s') (hin : ¬ out s.handlers.next) (p : Option Phase) :
    Erased out { s with handlers := s.handlers.start p }
      { s' with handlers := s'.handlers.start p } :=
  ⟨hE.handlers.start hin p, hE.mailbox⟩

/-! ## One step, mirrored -/

/-- Receiving is mirrored. -/
lemma onFrame_mirrors (hE : Erased out s s') (hin : ¬ out s.handlers.next) (data : FrameData) :
    Mirrors out (onFrame cfg s data) (onFrame cfg s' data) := by
  have hnext := hE.handlers.next
  unfold onFrame
  cases frameText data with
  | error err => exact ⟨hE.start hin none, by simp [Event.renumber, hnext]⟩
  | ok text =>
    simp only
    cases isTspFrameText text with
    | false => exact ⟨hE.start hin _, by simp [Event.renumber, hnext]⟩
    | true =>
      simp only [if_true]
      cases Base64url.decodeText text with
      | error err => exact ⟨hE.start hin none, by simp [Event.renumber, hnext]⟩
      | ok qb2 =>
        cases cfg.hasOnTspFrame with
        | true => exact ⟨hE.start hin _, by simp [Event.renumber, hnext]⟩
        | false => exact ⟨hE.start hin none, by simp [Event.renumber, hnext]⟩

variable {h : Nat}

/-- Delivering is mirrored. -/
lemma deliver_mirrors (hE : Erased out s s') (hin : ¬ out h) (text : JsString) (r : Unpacked)
    (queued : Bool) :
    Mirrors out (deliver cfg s h text r queued)
      (deliver cfg s' (Lts.renumber out h) text r queued) := by
  unfold deliver
  cases r.senderDid with
  | none => exact ⟨hE.goto hin none, rfl⟩
  | some did =>
    cases r.senderKid with
    | none => exact ⟨hE.goto hin none, rfl⟩
    | some kid =>
      simp only [hE.mailbox]
      exact ⟨⟨(hE.goto hin _).handlers, rfl⟩, rfl⟩

/-- What follows the unpacking is mirrored. -/
lemma afterUnpack_mirrors (hE : Erased out s s') (hin : ¬ out h) (text : JsString)
    (resolve : Option ResolveSender) :
    Mirrors out (afterUnpack cfg s h text resolve)
      (afterUnpack cfg s' (Lts.renumber out h) text resolve) := by
  unfold afterUnpack
  cases cfg.unpackInbound text resolve with
  | ok r =>
    simp only
    split
    · exact ⟨hE.goto hin _, rfl⟩
    · exact deliver_mirrors hE hin text r false
  | error err =>
    simp only
    split
    · exact ⟨hE.goto hin _, rfl⟩
    · exact ⟨hE.goto hin none, rfl⟩

/-- What follows the hashing is mirrored. -/
lemma afterHash_mirrors (hE : Erased out s s') (hin : ¬ out h) {p : Phase} {r : State × Event}
    (hagree : ∀ q, p.Checks cfg q → s'.seen.has q = s.seen.has q)
    (hs : afterHash cfg s h p = some r) :
    ∃ r', afterHash cfg s' (Lts.renumber out h) p = some r' ∧ Mirrors out r r' := by
  cases p with
  | hashing text unpacked =>
    simp only [afterHash, hagree _ rfl] at hs ⊢
    cases hseen : s.seen.has (cfg.sha256Hex text) with
    | true =>
      simp only [hseen, if_true] at hs ⊢
      cases hs
      exact ⟨_, rfl, hE.goto hin none, rfl⟩
    | false =>
      simp only [hseen] at hs ⊢
      cases hs
      exact ⟨_, rfl, deliver_mirrors hE hin text unpacked true⟩
  | tspHashing text qb2 =>
    simp only [afterHash, hagree _ rfl] at hs ⊢
    cases hseen : s.seen.has (cfg.sha256Hex text) with
    | true =>
      simp only [hseen, if_true] at hs ⊢
      cases hs
      exact ⟨_, rfl, hE.goto hin none, rfl⟩
    | false =>
      simp only [hseen] at hs ⊢
      cases hs
      exact ⟨_, rfl, hE.goto hin _, rfl⟩
  | refusing text =>
    cases hs
    exact ⟨_, rfl, ⟨(hE.goto hin none).handlers, hE.mailbox⟩, rfl⟩
  | unpacking | delivering | delivered | tspConsuming | tspConsumed => cases hs

/-- What follows the consumer is mirrored. -/
lemma afterConsumer_mirrors (hE : Erased out s s') (hin : ¬ out h) {p : Phase} {r : State × Event}
    {outcome : Except JsError Unit} (hs : afterConsumer s h outcome p = some r) :
    ∃ r', afterConsumer s' (Lts.renumber out h) outcome p = some r' ∧ Mirrors out r r' := by
  cases p with
  | delivering text unpacked queued =>
    cases hs
    exact ⟨_, rfl, hE.goto hin _, rfl⟩
  | tspConsuming text =>
    cases outcome with
    | ok u =>
      cases hs
      exact ⟨_, rfl, hE.goto hin _, rfl⟩
    | error err =>
      cases hs
      exact ⟨_, rfl, hE.goto hin none, rfl⟩
  | unpacking | hashing | refusing | delivered | tspHashing | tspConsumed => cases hs

/-- What follows the hand-off is mirrored. -/
lemma afterHandoff_mirrors (hE : Erased out s s') (hin : ¬ out h) {p : Phase} {r : State × Event}
    (hs : afterHandoff cfg s h p = some r) :
    ∃ r', afterHandoff cfg s' (Lts.renumber out h) p = some r' ∧ Mirrors out r r' := by
  cases p with
  | delivered text unpacked queued =>
    cases queued with
    | true =>
      cases hs
      exact ⟨_, rfl, ⟨(hE.goto hin none).handlers, hE.mailbox⟩, rfl⟩
    | false =>
      cases hs
      exact ⟨_, rfl, hE.goto hin none, rfl⟩
  | tspConsumed text =>
    cases hs
    exact ⟨_, rfl, ⟨(hE.goto hin none).handlers, hE.mailbox⟩, rfl⟩
  | unpacking | hashing | refusing | delivering | tspHashing | tspConsuming => cases hs

/-- What the mailbox does is mirrored. -/
lemma mailboxStep_mirrors (hE : Erased out s s') {m : Mailbox.Input} {r : State × Event}
    (hs : mailboxStep cfg s m = some r) :
    ∃ r', mailboxStep cfg s' m = some r' ∧ Mirrors out r r' := by
  obtain ⟨⟨mb, e⟩, hmb, heq⟩ := Option.map_eq_some_iff.mp hs
  cases heq
  refine ⟨({ s' with mailbox := mb }, .mailbox e), ?_, ⟨hE.handlers, rfl⟩, rfl⟩
  simp [mailboxStep, hE.mailbox, hmb]

/-- A step of a handler that stays is mirrored, where both states have seen the id it checks. -/
lemma step_mirrors (hE : Erased out s s') {input : Input} {r : State × Event}
    (hin : ∀ h ∈ input.handler s.handlers.next, ¬ out h)
    (hagree : ∀ h p q, input = .hashed h → s.handlers.phase h = some p → p.Checks cfg q →
      s'.seen.has q = s.seen.has q)
    (hs : step cfg s input = some r) :
    ∃ r', step cfg s' (input.renumber (Lts.renumber out)) = some r' ∧ Mirrors out r r' := by
  cases input with
  | receive data =>
    cases hs
    exact ⟨_, rfl, onFrame_mirrors hE (hin _ rfl) data⟩
  | unpacked h resolve =>
    simp only [step, Input.renumber, hE.handlers.phase h (hin h rfl)] at hs ⊢
    split at hs
    · cases hs
      exact ⟨_, rfl, afterUnpack_mirrors hE (hin h rfl) _ resolve⟩
    · cases hs
  | hashed h =>
    simp only [step, Input.renumber, hE.handlers.phase h (hin h rfl)] at hs ⊢
    obtain ⟨p, hp, hs⟩ := Option.bind_eq_some_iff.mp hs
    rw [hp]
    exact afterHash_mirrors hE (hin h rfl) (fun q => hagree h p q rfl hp) hs
  | settled h outcome =>
    simp only [step, Input.renumber, hE.handlers.phase h (hin h rfl)] at hs ⊢
    obtain ⟨p, hp, hs⟩ := Option.bind_eq_some_iff.mp hs
    rw [hp]
    exact afterConsumer_mirrors hE (hin h rfl) hs
  | resumed h =>
    simp only [step, Input.renumber, hE.handlers.phase h (hin h rfl)] at hs ⊢
    obtain ⟨p, hp, hs⟩ := Option.bind_eq_some_iff.mp hs
    rw [hp]
    exact afterHandoff_mirrors hE (hin h rfl) hs
  | waitFor | expire | socketDown | close => exact mailboxStep_mirrors hE hs

/-- What cannot be read cannot be read on the other side. -/
lemma unreadable_mirrors (hE : Erased out s s') {a : Action}
    (hin : ∀ h ∈ a.input.handler s.handlers.next, ¬ out h) :
    (a.renumber (Lts.renumber out)).Unreadable cfg s' ↔ a.Unreadable cfg s := by
  obtain ⟨input, onError, codeThrows⟩ := a
  cases input with
  | unpacked h resolve =>
    simp only [Action.Unreadable, Action.renumber, Input.renumber, hE.handlers.phase h (hin h rfl)]
  | _ => exact Iff.rfl

/-- What comes of a step of a handler that stays comes of its mirror image. -/
lemma perform_mirrors (hE : Erased out s s') {a : Action} {s₁ : State} {o : Outcome}
    (hin : ∀ h ∈ a.input.handler s.handlers.next, ¬ out h)
    (hagree : ∀ h p q, a.input = .hashed h → s.handlers.phase h = some p → p.Checks cfg q →
      s'.seen.has q = s.seen.has q)
    (hs : perform cfg s a = some (s₁, o)) :
    ∃ s₁', perform cfg s' (a.renumber (Lts.renumber out)) =
      some (s₁', o.renumber (Lts.renumber out)) ∧ Erased out s₁ s₁' := by
  by_cases hread : a.Unreadable cfg s
  · obtain ⟨h, resolve, text, err, hinput, hthrown, -, heq⟩ := perform_unreadable hread
    cases hs.symm.trans heq
    obtain ⟨h', resolve', text', err', hinput', hthrown', -, heq'⟩ :=
      perform_unreadable ((unreadable_mirrors hE hin).mpr hread)
    simp only [Action.renumber, hinput, Input.renumber, Input.unpacked.injEq] at hinput'
    cases hthrown.symm.trans hthrown'
    obtain ⟨rfl, -⟩ := hinput'
    exact ⟨_, heq', hE.goto (hin h (by simp [hinput, Input.handler])) none⟩
  · rw [perform_eq hread] at hs
    obtain ⟨r, hstep, heq⟩ := Option.map_eq_some_iff.mp hs
    cases heq
    obtain ⟨⟨s₁', e'⟩, hstep', hE', rfl⟩ := step_mirrors hE hin hagree hstep
    refine ⟨s₁', ?_, hE'⟩
    rw [perform_eq (mt (unreadable_mirrors hE hin).mp hread)]
    show (step cfg s' (a.input.renumber (Lts.renumber out))).map _ = _
    rw [hstep']
    rfl

/-! ## Steps and their handlers -/

/-- Receiving starts the next handler. -/
lemma onFrame_handler (data : FrameData) :
    (onFrame cfg s data).2.handler = some s.handlers.next ∧
      (onFrame cfg s data).1.handlers.next = s.handlers.next + 1 := by
  unfold onFrame
  split
  · exact ⟨rfl, rfl⟩
  split
  · split
    · exact ⟨rfl, rfl⟩
    split <;> exact ⟨rfl, rfl⟩
  · exact ⟨rfl, rfl⟩

/-- Delivering is of its handler, and starts none. -/
lemma deliver_handler (text : JsString) (r : Unpacked) (queued : Bool) :
    (deliver cfg s h text r queued).2.handler = some h ∧
      (deliver cfg s h text r queued).1.handlers.next = s.handlers.next := by
  unfold deliver
  split <;> exact ⟨rfl, rfl⟩

/-- What follows the unpacking is of its handler, and starts none. -/
lemma afterUnpack_handler (text : JsString) (resolve : Option ResolveSender) :
    (afterUnpack cfg s h text resolve).2.handler = some h ∧
      (afterUnpack cfg s h text resolve).1.handlers.next = s.handlers.next := by
  unfold afterUnpack
  split
  · split
    · exact ⟨rfl, rfl⟩
    · exact deliver_handler ..
  · split <;> exact ⟨rfl, rfl⟩

/-- The mailbox acts for no handler. -/
lemma mailboxStep_handler {m : Mailbox.Input} {r : State × Event}
    (hs : mailboxStep cfg s m = some r) :
    r.2.handler = none ∧ r.1.handlers.next = s.handlers.next := by
  obtain ⟨⟨mb, e⟩, -, heq⟩ := Option.map_eq_some_iff.mp hs
  cases heq
  exact ⟨rfl, rfl⟩

/-- A step is of the handler its input is for. -/
lemma step_handler {input : Input} {r : State × Event} (hs : step cfg s input = some r) :
    r.2.handler = input.handler s.handlers.next ∧
      r.1.handlers.next = input.next s.handlers.next := by
  cases input with
  | receive data =>
    cases hs
    exact onFrame_handler data
  | unpacked h resolve =>
    simp only [step] at hs
    split at hs
    · cases hs
      exact afterUnpack_handler ..
    · cases hs
  | hashed h =>
    obtain ⟨p, -, hs⟩ := Option.bind_eq_some_iff.mp hs
    cases p with
    | hashing text r =>
      simp only [afterHash] at hs
      split at hs
      · cases hs
        exact ⟨rfl, rfl⟩
      · cases hs
        exact deliver_handler ..
    | tspHashing text qb2 =>
      simp only [afterHash] at hs
      split at hs <;>
        cases hs <;>
        exact ⟨rfl, rfl⟩
    | refusing text =>
      cases hs
      exact ⟨rfl, rfl⟩
    | unpacking | delivering | delivered | tspConsuming | tspConsumed => cases hs
  | settled h outcome =>
    obtain ⟨p, -, hs⟩ := Option.bind_eq_some_iff.mp hs
    cases p with
    | delivering =>
      cases hs
      exact ⟨rfl, rfl⟩
    | tspConsuming =>
      cases outcome <;>
        cases hs <;>
        exact ⟨rfl, rfl⟩
    | unpacking | hashing | refusing | delivered | tspHashing | tspConsumed => cases hs
  | resumed h =>
    obtain ⟨p, -, hs⟩ := Option.bind_eq_some_iff.mp hs
    cases p with
    | delivered text r queued =>
      cases queued <;>
        cases hs <;>
        exact ⟨rfl, rfl⟩
    | tspConsumed =>
      cases hs
      exact ⟨rfl, rfl⟩
    | unpacking | hashing | refusing | delivering | tspHashing | tspConsuming => cases hs
  | waitFor | expire | socketDown | close => exact mailboxStep_handler hs

/-- What is performed is of the handler its input is for. -/
lemma perform_handler {a : Action} {o : Outcome} (hs : perform cfg s a = some (s', o)) :
    o.handler = a.input.handler s.handlers.next ∧
      s'.handlers.next = a.input.next s.handlers.next := by
  by_cases hread : a.Unreadable cfg s
  · obtain ⟨h, resolve, text, err, hinput, -, -, heq⟩ := perform_unreadable hread
    cases hs.symm.trans heq
    rw [hinput]
    exact ⟨rfl, rfl⟩
  · rw [perform_eq hread] at hs
    obtain ⟨r, hstep, heq⟩ := Option.map_eq_some_iff.mp hs
    cases heq
    exact step_handler hstep

/-- A handler that finds its frame seen acks it again. -/
lemma reacked_of_checks {a : Action} {p : Phase} {q : JsString} {o : Outcome}
    (hs : perform cfg s a = some (s', o)) (hinput : a.input = .hashed h)
    (hp : s.handlers.phase h = some p) (hchecks : p.Checks cfg q) (hseen : s.seen.has q = true) :
    o = .event (.acked h q false) := by
  have hread : ¬ a.Unreadable cfg s := by simp [Action.Unreadable, hinput]
  rw [perform_eq hread, hinput] at hs
  obtain ⟨r, hstep, heq⟩ := Option.map_eq_some_iff.mp hs
  cases heq
  simp only [step, hp, Option.bind_some] at hstep
  cases p with
  | hashing text r =>
    obtain rfl := hchecks
    simp only [afterHash, hseen, if_true] at hstep
    cases hstep
    rfl
  | tspHashing text qb2 =>
    obtain rfl := hchecks
    simp only [afterHash, hseen, if_true] at hstep
    cases hstep
    rfl
  | unpacking | refusing | delivering | delivered | tspConsuming | tspConsumed => exact hchecks.elim

/-- What is acked again was seen. -/
lemma seen_of_reacked {q : JsString} (hs : Performs cfg s s' (.event (.acked h q false))) :
    q ∈ s.seen.items := by
  cases hs with
  | starts hst => cases hst
  | moves hp hm =>
    cases hm with
    | reacked hseen => exact hseen
    | tspReacked hseen => exact hseen

/-- A step of a handler that is left out, and does not hand off, is a step of the one state only. -/
lemma Performs.erased_out {o : Outcome} {s₁ : State} (hs : Performs cfg s s₁ o)
    (hE : Erased out s s') (hh : o.handler = some h) (hout : out h) (hno : o.handsOff = false) :
    Erased out s₁ s' := by
  refine ⟨?_, ?_⟩
  · cases hs with
    | @starts data p e hst =>
      obtain rfl := Option.some.inj (hst.quiet.1.symm.trans hh)
      exact hE.handlers.start_out hout p
    | @moves input h' p q mb e hp hm =>
      obtain rfl := Option.some.inj (hm.handler_eq.symm.trans hh)
      exact hE.handlers.move_out hout q
    | mailbox => cases hh
    | rejects =>
      cases hh
      exact hE.handlers.move_out hout none
  · rw [hE.mailbox]
    exact (hs.frame.2 (by simp [hh]) hno).symm

/-! ## Runs, mirrored -/

/-- The queue ids a run marks. -/
def marks (tr : List Outcome) : List JsString := tr.flatMap Outcome.marks

variable (out) in
/-- An id that is found in `_seen` for a frame that stays was there, or marked for such a frame. -/
def ToldApart (base : List JsString) (pre : List Outcome) (o : Outcome) : Prop :=
  ∀ h q, o = .event (.acked h q false) → ¬ out h →
    q ∈ base ∨ ∃ j, ¬ out j ∧ .event (.acked j q true) ∈ pre

/-- Renumbering keeps what is marked. -/
lemma outcome_marks_renumber (ρ : Nat → Nat) (o : Outcome) : (o.renumber ρ).marks = o.marks := by
  cases o with
  | event e =>
    cases e with
    | acked h queueId marked => cases marked <;> rfl
    | _ => rfl
  | rejected => rfl

/-- An outcome that is left out is dropped. -/
lemma outcomesWithout_cons_out {o : Outcome} {tr : List Outcome} (hout : ∃ h ∈ o.handler, out h) :
    outcomesWithout out (o :: tr) = outcomesWithout out tr := by
  rw [outcomesWithout, List.filter_cons_of_neg (by simpa using hout)]
  rfl

/-- An outcome that stays is renumbered. -/
lemma outcomesWithout_cons {o : Outcome} {tr : List Outcome} (hin : ¬ ∃ h ∈ o.handler, out h) :
    outcomesWithout out (o :: tr) = o.renumber (Lts.renumber out) :: outcomesWithout out tr := by
  rw [outcomesWithout, List.filter_cons_of_pos (by simpa using hin)]
  rfl

/-- Outcomes are left out one by one. -/
lemma outcomesWithout_append (tr tr' : List Outcome) :
    outcomesWithout out (tr ++ tr') = outcomesWithout out tr ++ outcomesWithout out tr' := by
  simp [outcomesWithout]

/-- What is still marked is what the others mark. -/
lemma mem_marks_without {tr : List Outcome} {q : JsString} :
    q ∈ marks (outcomesWithout out tr) ↔
      ∃ o ∈ tr, (¬ ∃ h ∈ o.handler, out h) ∧ q ∈ o.marks := by
  simp only [marks, outcomesWithout, List.mem_flatMap, List.mem_map, List.mem_filter,
    decide_eq_true_eq]
  constructor
  · rintro ⟨_, ⟨o, ⟨hmem, hin⟩, rfl⟩, hq⟩
    exact ⟨o, hmem, hin, by rwa [outcome_marks_renumber] at hq⟩
  · rintro ⟨o, hmem, hin, hq⟩
    exact ⟨_, ⟨o, ⟨hmem, hin⟩, rfl⟩, by rwa [outcome_marks_renumber]⟩

/-- Leaving out marks nothing more. -/
lemma marks_without_subset {tr : List Outcome} {q : JsString}
    (h : q ∈ marks (outcomesWithout out tr)) : q ∈ marks tr := by
  obtain ⟨o, hmem, -, hq⟩ := mem_marks_without.mp h
  exact List.mem_flatMap.mpr ⟨o, hmem, hq⟩

/-- What is performed is recorded. -/
lemma Performs.records {o : Outcome} {added : List JsString} (hs : Performs cfg s s' o)
    (h : BoundedSet.Records s.seen added) : BoundedSet.Records s'.seen (added ++ o.marks) := by
  rw [hs.frame.1]
  exact h.addAll _

/-- Two states, of which the one is the other without some handlers, and what they have seen. -/
structure Tracked (out : Nat → Prop) [DecidablePred out] (base : List JsString) (pre : List Outcome)
    (s s' : State) : Prop where
  erased : Erased out s s'
  seen : BoundedSet.Records s.seen (base ++ marks pre)
  seen' : BoundedSet.Records s'.seen (base ++ marks (outcomesWithout out pre))

/-- The states agree on an id that a handler which stays checks. -/
lemma Tracked.agree {base : List JsString} {pre post : List Outcome} {a : Action} {s₁ : State}
    {o : Outcome} (ht : Tracked out base pre s s') (hs : perform cfg s a = some (s₁, o))
    (hfits : BoundedSet.Fits maxSeen (base ++ marks (pre ++ o :: post)))
    (happart : ToldApart out base pre o) {p : Phase} {q : JsString}
    (hin : ¬ out h) (hinput : a.input = .hashed h) (hp : s.handlers.phase h = some p)
    (hchecks : p.Checks cfg q) : s'.seen.has q = s.seen.has q := by
  have hsub : ∀ x ∈ base ++ marks pre, x ∈ base ++ marks (pre ++ o :: post) := by
    intro x hx
    rcases List.mem_append.mp hx with hx | hx
    · exact List.mem_append_left _ hx
    · simp only [marks, List.flatMap_append]
      exact List.mem_append_right _ (List.mem_append_left _ hx)
  have hsub' : ∀ x ∈ base ++ marks (outcomesWithout out pre), x ∈ base ++ marks pre := by
    intro x hx
    rcases List.mem_append.mp hx with hx | hx
    · exact List.mem_append_left _ hx
    · exact List.mem_append_right _ (marks_without_subset hx)
  rw [Bool.eq_iff_iff, BoundedSet.has_iff, BoundedSet.has_iff]
  constructor
  · intro hq
    exact ht.seen.all (hfits.subset hsub) q (hsub' q (ht.seen'.only q hq))
  · intro hq
    have ho := reacked_of_checks hs hinput hp hchecks (BoundedSet.has_iff.mpr hq)
    apply ht.seen'.all (hfits.subset fun x hx => hsub x (hsub' x hx)) q
    rcases happart h q ho hin with hbase | ⟨j, hj, hmem⟩
    · exact List.mem_append_left _ hbase
    · refine List.mem_append_right _ (mem_marks_without.mpr ⟨_, hmem, ?_, List.mem_singleton_self q⟩)
      rintro ⟨i, hi, hout⟩
      cases hi
      exact hj hout

/-- A run, and the same run without frames that are not handed off. -/
lemma exec_without {base : List JsString} {acts : List Action} {pre tr : List Outcome} {s₁ : State}
    (ht : Tracked out base pre s s') (hexec : Lts.exec (perform cfg) s acts = some (s₁, tr))
    (hfits : BoundedSet.Fits maxSeen (base ++ marks (pre ++ tr)))
    (happart : Lts.Guarded (ToldApart out base) (pre ++ tr))
    (hno : ∀ o ∈ tr, ∀ h, o.handler = some h → out h → o.handsOff = false) :
    ∃ s₁', Lts.exec (perform cfg) s' (actionsWithout out s.handlers.next acts) =
      some (s₁', outcomesWithout out tr) ∧ Tracked out base (pre ++ tr) s₁ s₁' := by
  induction acts generalizing s s' pre tr with
  | nil =>
    cases hexec
    exact ⟨s', rfl, by simpa using ht⟩
  | cons a acts ih =>
    obtain ⟨s₂, o, tr, hs, hrest, rfl⟩ := Lts.exec_cons_eq_some.mp hexec
    obtain ⟨hhandler, hnext⟩ := perform_handler hs
    have hperforms := performs_of_perform hs
    have hrecords := hperforms.records ht.seen
    rw [List.append_assoc, show marks pre ++ o.marks = marks (pre ++ [o]) by simp [marks]]
      at hrecords
    rw [show pre ++ o :: tr = (pre ++ [o]) ++ tr by simp] at hfits happart ⊢
    have hno' := fun d hd => hno d (List.mem_cons_of_mem _ hd)
    by_cases hout : ∃ h ∈ o.handler, out h
    · -- the step is left out
      obtain ⟨h, hh, houth⟩ := hout
      have hkeep : outcomesWithout out (pre ++ [o]) = outcomesWithout out pre := by
        rw [outcomesWithout_append, outcomesWithout_cons_out ⟨h, hh, houth⟩]
        exact List.append_nil _
      have hE := hperforms.erased_out ht.erased hh houth (hno o (List.mem_cons_self ..) h hh houth)
      obtain ⟨s₁', hexec', ht'⟩ := ih ⟨hE, hrecords, hkeep ▸ ht.seen'⟩ hrest hfits happart hno'
      refine ⟨s₁', ?_, ht'⟩
      rw [outcomesWithout_cons_out ⟨h, hh, houth⟩, actionsWithout, ← hhandler,
        if_pos ⟨h, hh, houth⟩, ← hnext]
      exact hexec'
    · -- the step is mirrored
      have hin : ∀ h ∈ a.input.handler s.handlers.next, ¬ out h := by
        intro h hh houth
        exact hout ⟨h, hhandler ▸ hh, houth⟩
      have hfits' : BoundedSet.Fits maxSeen (base ++ marks (pre ++ o :: tr)) := by simpa using hfits
      have happart' : ToldApart out base pre o := happart pre o tr (by simp)
      obtain ⟨s₂', hs', hE⟩ := perform_mirrors ht.erased hin
        (fun h p q hinput hp hchecks => ht.agree hs hfits' happart'
          (hin h (by simp [hinput, Input.handler])) hinput hp hchecks) hs
      have hrecords' := (performs_of_perform hs').records ht.seen'
      have hkeep : outcomesWithout out (pre ++ [o]) =
          outcomesWithout out pre ++ [o.renumber (Lts.renumber out)] := by
        rw [outcomesWithout_append, outcomesWithout_cons hout]
        rfl
      rw [List.append_assoc, show marks (outcomesWithout out pre) ++
          (o.renumber (Lts.renumber out)).marks = marks (outcomesWithout out (pre ++ [o])) by
        simp [marks, hkeep]] at hrecords'
      obtain ⟨s₁', hexec', ht'⟩ := ih ⟨hE, hrecords, hrecords'⟩ hrest hfits happart hno'
      refine ⟨s₁', ?_, ht'⟩
      rw [outcomesWithout_cons hout, actionsWithout, ← hhandler, if_neg hout, ← hnext]
      exact Lts.exec_cons hs' hexec'

end VtiDidcomm.Session
