import VtiDidcomm.Client.Packed
import VtiDidcomm.Session.Progress

/-!
# Replies settle their requests

A waiter that is the oldest to take a message, and a handler that is at work on a frame of that
message. Until the waiter is settled, by a message it takes or by a failure, whatever the other
handlers do, both stay (`Awaits`); so when the handler ends, the waiter is settled (`reply_settles`).
`vta_reply_settles` puts this together with what a VTA packs: its reply is such a message, and the
waiter of a request takes no other sender's.
-/

namespace VtiDidcomm

namespace Mailbox
open Js

/-- The event settles the waiter: a message it takes was handed to it, or it was rejected. -/
def Event.Settles (w : Waiter) : Event → Prop
  | .handed _ message sender id => id = w.id ∧ w.takes (threadOf message) sender = true
  | .rejected ids => w.id ∈ ids
  | _ => False

/-- The first of a list that satisfies `p` is still the first when another element is erased. -/
lemma find?_eraseP {α : Type} {p q : α → Bool} {l : List α} {w v : α} (hw : l.find? p = some w)
    (hv : l.find? q = some v) (hne : v ≠ w) : (l.eraseP q).find? p = some w := by
  induction l with
  | nil => cases hw
  | cons a l ih =>
    rw [List.find?_cons] at hw hv
    cases hq : q a with
    | true =>
      rw [hq] at hv
      obtain rfl : a = v := Option.some.inj hv
      rw [List.eraseP_cons_of_pos hq]
      cases hp : p a with
      | true =>
        rw [hp] at hw
        exact absurd (Option.some.inj hw) hne
      | false => rwa [hp] at hw
    | false =>
      rw [hq] at hv
      rw [List.eraseP_cons_of_neg (by simp [hq]), List.find?_cons]
      cases hp : p a with
      | true => rwa [hp] at hw
      | false =>
        rw [hp] at hw
        exact ih hw hv

/-- The oldest waiter of a kind is settled by a step, or stays the oldest. -/
lemma Steps.first {mb mb' : State} {e : Event} {p : Waiter → Bool} {w : Waiter}
    (hs : Steps mb mb' e) (hw : mb.waiters.find? p = some w) :
    e.Settles w ∨ mb'.waiters.find? p = some w := by
  cases hs with
  | @handed message sender v hv =>
    by_cases hvw : v = w
    · subst hvw
      have htakes := List.find?_some hv
      exact .inl ⟨rfl, by simpa using htakes⟩
    · exact .inr (find?_eraseP hw hv hvw)
  | waiting => exact .inr (by rw [List.find?_append, hw]; rfl)
  | @expired timer =>
    cases hv : mb.waiters.find? (·.id = timer) with
    | none =>
      rw [List.eraseP_of_forall_not (by simpa using hv)]
      exact .inr hw
    | some v =>
      by_cases hvw : v = w
      · subst hvw
        have hid : v.id = timer := by simpa using List.find?_some hv
        exact .inl (by simp [Event.Settles, hid])
      · exact .inr (find?_eraseP hw hv hvw)
  | rejectedAll => exact .inl (List.mem_map_of_mem (List.mem_of_find?_eq_some hw))
  | passed | buffered | shifted | invalid | claimed => exact .inr hw

/-- The oldest waiter of a kind is settled in a run, or stays the oldest. -/
lemma first_of_run {mediatorDid : JsString} {mb mb' : State} {tr : List Event} {p : Waiter → Bool}
    {w : Waiter} (r : Lts.Run (Step mediatorDid) mb tr mb') (hw : mb.waiters.find? p = some w) :
    (∃ e ∈ tr, e.Settles w) ∨ mb'.waiters.find? p = some w := by
  induction r with
  | nil => exact .inr hw
  | snoc _ hs ih =>
    obtain ⟨e, he, hsettles⟩ | hw := ih
    · exact .inl ⟨e, List.mem_append_left _ he, hsettles⟩
    · obtain ⟨e, rfl, hsteps⟩ := hs.steps
      refine (hsteps.first hw).imp (fun h => ?_) id
      exact ⟨e, List.mem_append_right _ (List.mem_singleton_self e), h⟩

/-- A waiter that is registered when none waits on its thread is the oldest there. -/
lemma first_of_waitFor {mb mb' : State} {n : Nat} {id did : JsString} {from' : FromOption}
    {p : Waiter → Bool} (hfresh : ∀ w ∈ mb.waiters, w.thid ≠ id)
    (h : waitFor mb id (.one did) = (mb', .waiting n id from'))
    (htakes : p ⟨n, id, some [identityOfKid did]⟩ = true) (hthread : ∀ w, p w = true → w.thid = id) :
    mb'.waiters.find? p = some ⟨n, id, some [identityOfKid did]⟩ := by
  have hnone : mb.waiters.find? p = none := by
    rw [List.find?_eq_none]
    exact fun w hw hp => hfresh w hw (hthread w hp)
  simp only [waitFor, normalizeFrom, normalizeFrom.normalizeList] at h
  split at h
  · cases h
  rename_i froms hfroms
  split at hfroms
  · cases hfroms
  cases hfroms
  split at h
  · cases h
  cases h
  rw [List.find?_append, hnone]
  simpa using htakes

end Mailbox

namespace Session
open Js

/-- A message that a frame opens as whatever `resolveSender` answers, and its sender. -/
structure Opens (cfg : Config) (text : JsString) (r : Unpacked) (sender : Mailbox.Sender) : Prop where
  didcomm : isTspFrameText text = false
  unpacked : ∀ resolve, cfg.unpackInbound text resolve = .ok r
  queued : isQueued cfg r = true
  did : r.senderDid = some sender.did
  kid : r.senderKid = some sender.kid

/-- Whether a waiter takes a message. -/
def takesMessage (r : Unpacked) (sender : Mailbox.Sender) (w : Mailbox.Waiter) : Bool :=
  w.takes (Mailbox.threadOf r.message) sender

/-- The handler has not come to hand off the frame, and will not ack it unopened. -/
def Phase.Untouched (text : JsString) : Phase → Prop
  | .refusing t | .delivering t _ _ | .delivered t _ _ | .tspHashing t _ | .tspConsuming t
  | .tspConsumed t => t ≠ text
  | .unpacking _ | .hashing .. => True

/-- The event settles the waiter. -/
def Event.Settles (w : Mailbox.Waiter) (e : Event) : Prop := ∃ m ∈ e.mailboxEvents, m.Settles w

/-- A waiter and the handler of a frame it is to take, which no handler has handed off. -/
structure Awaits (cfg : Config) (text : JsString) (r : Unpacked) (sender : Mailbox.Sender)
    (w : Mailbox.Waiter) (h : Nat) (s : State) : Prop where
  waiter : s.mailbox.waiters.find? (takesMessage r sender) = some w
  handler : s.handlers.phase h = some (.unpacking text) ∨ s.handlers.phase h = some (.hashing text r)
  untouched : s.handlers.Each fun _ p => p.Untouched text
  unseen : cfg.sha256Hex text ∉ s.seen.items
  sound : s.handlers.Each fun _ p => p.Sound cfg fun _ => True

/-! ## What has been received -/

/-- The frame a handler is at work on. -/
def Phase.text : Phase → JsString
  | .unpacking t | .hashing t _ | .refusing t | .delivering t _ _ | .delivered t _ _
  | .tspHashing t _ | .tspConsuming t | .tspConsumed t => t

/-- Handlers are at work on frames that were received, and only their ids are seen. -/
structure Known (cfg : Config) (s : State) (tr : List Event) : Prop where
  handlers : s.handlers.Each fun h p => .received h p.text ∈ tr
  seen : ∀ q ∈ s.seen.items, ∃ h t, .received h t ∈ tr ∧ cfg.sha256Hex t = q

section Known
variable {cfg : Config} {s s' : State} {tr : List Event}

/-- A handler keeps its text, and marks its own id. -/
lemma Moves.text {seen : BoundedSet JsString maxSeen} {mb mb' : Mailbox.State} {i : Nat}
    {input : Input} {p : Phase} {q : Option Phase} {e : Event}
    (hm : Moves cfg seen mb i input p q mb' e) :
    (∀ q', q = some q' → q'.text = p.text) ∧ ∀ m ∈ e.marks, m = cfg.sha256Hex p.text := by
  cases hm <;> simp [Phase.text, Event.marks]

/-- A step keeps what is known of the handlers. -/
lemma Known.steps (inv : Known cfg s tr) {input : Input} {e : Event}
    (hs : Steps cfg s input s' e) : Known cfg s' (tr ++ [e]) := by
  have handlers : s.handlers.Each fun h p => .received h p.text ∈ tr ++ [e] :=
    inv.handlers.imp fun h p hp => List.mem_append_left _ hp
  have seen : ∀ q ∈ s.seen.items, ∃ h t, .received h t ∈ tr ++ [e] ∧ cfg.sha256Hex t = q := by
    intro q hq
    obtain ⟨h, t, ht, heq⟩ := inv.seen q hq
    exact ⟨h, t, List.mem_append_left _ ht, heq⟩
  cases hs with
  | starts hst =>
    refine ⟨handlers.start ?_, seen⟩
    rintro q rfl
    cases hst <;> exact List.mem_append_right _ (List.mem_singleton_self _)
  | @moves _ i p q mb _ hp hm =>
    obtain ⟨htext, hmarks⟩ := hm.text
    refine ⟨handlers.move fun q' hq' => ?_, fun m hmem => ?_⟩
    · rw [htext q' hq']
      exact handlers i p hp
    · obtain hmem | hmem := BoundedSet.of_mem_addAll hmem
      · exact seen m hmem
      · exact ⟨i, p.text, handlers i p hp, (hmarks m hmem).symm⟩
  | mailbox => exact ⟨handlers, seen⟩

/-- A run keeps what is known of the handlers. -/
lemma Known.run (inv : Known cfg s tr) {tr' : List Event} (run : Lts.Run (Step cfg) s tr' s') :
    Known cfg s' (tr ++ tr') := by
  induction run with
  | nil => rwa [List.append_nil]
  | snoc _ hs ih =>
    obtain ⟨input, e, rfl, h⟩ := Step.steps hs
    rw [← List.append_assoc]
    exact ih.steps h

/-- The handlers of a run are known. -/
lemma known_of_run (run : Lts.Run (Step cfg) {} tr s) : Known cfg s tr := by
  have init : Known cfg {} [] := ⟨Lts.Threads.each_empty _, fun q hq => nomatch hq⟩
  simpa using init.run run

/-- What is known of the frames of a run, whatever was answered. -/
lemma sound_of_run (run : Lts.Run (Step cfg) {} tr s) :
    s.handlers.Each fun _ p => p.Sound cfg fun _ => True := by
  refine run.invariant (I := fun s _ => s.handlers.Each fun _ p => p.Sound cfg fun _ => True)
    (Lts.Threads.each_empty _) fun ih hs => ?_
  obtain ⟨input, e, rfl, h⟩ := hs.steps
  exact h.sound (fun _ _ _ => trivial) ih

/-- Another text leaves a frame untouched. -/
lemma Phase.untouched_of_ne {p : Phase} {text : JsString} (h : p.text ≠ text) : p.Untouched text := by
  cases p with
  | unpacking | hashing => trivial
  | _ => exact h

end Known

/-! ## Until the waiter is settled -/

section Steps
variable {cfg : Config} {text : JsString} {r : Unpacked} {sender : Mailbox.Sender}
  {w : Mailbox.Waiter} {h : Nat} {s s' : State}

/-- Delivering the message settles the waiter. -/
lemma Delivers.settles {mb mb' : Mailbox.State} {sender' : Mailbox.Sender} {e : Mailbox.Event}
    (hopens : Opens cfg text r sender)
    (hw : mb.waiters.find? (takesMessage r sender) = some w) (hd : Delivers cfg mb r sender' mb' e) :
    e.Settles w := by
  obtain ⟨hdid, hkid, hdeliver⟩ := hd
  have hsender : sender = sender' := by
    cases sender
    cases sender'
    simp only [hopens.did, hopens.kid, Option.some.injEq] at hdid hkid
    rw [hdid, hkid]
  subst hsender
  have hw' : mb.waiters.find? (·.takes (Mailbox.threadOf r.message) sender) = some w := hw
  simp only [Mailbox.deliver, hw'] at hdeliver
  cases hdeliver
  have htakes := List.find?_some hw'
  exact ⟨rfl, by simpa using htakes⟩

/-- A frame opens as one message. -/
lemma Opens.eq_of_queuedFrame {given : Option ResolveSender → Prop} {r' : Unpacked}
    (hopens : Opens cfg text r sender) (hf : QueuedFrame cfg given text r') : r' = r := by
  obtain ⟨resolve, -, hr⟩ := hf.unpacked
  exact Except.ok.inj (hr.symm.trans (hopens.unpacked resolve))

/-- Another handler settles the waiter, or leaves it and the frame as they are. -/
lemma Moves.settles_or {seen : BoundedSet JsString maxSeen} {mb mb' : Mailbox.State} {i : Nat}
    {input : Input} {p : Phase} {q : Option Phase} {e : Event} (hopens : Opens cfg text r sender)
    (hinj : cfg.sha256Hex p.text = cfg.sha256Hex text → p.text = text)
    (hm : Moves cfg seen mb i input p q mb' e) (hp : p.Untouched text)
    (hsound : p.Sound cfg fun _ => True)
    (hw : mb.waiters.find? (takesMessage r sender) = some w) :
    e.Settles w ∨ mb'.waiters.find? (takesMessage r sender) = some w ∧
      (∀ q', q = some q' → q'.Untouched text) ∧ cfg.sha256Hex text ∉ e.marks := by
  have hfirst := Mailbox.first_of_run hm.mailbox hw
  suffices hkeeps : e.Settles w ∨
      (∀ q', q = some q' → q'.Untouched text) ∧ cfg.sha256Hex text ∉ e.marks by
    obtain hsettles | hkeeps := hkeeps
    · exact .inl hsettles
    · exact hfirst.imp id (⟨·, hkeeps⟩)
  cases hm with
  | @refused t resolve err report herr href =>
    refine .inr ⟨?_, List.not_mem_nil⟩
    rintro q' ⟨⟩ rfl
    cases (hopens.unpacked resolve).symm.trans herr
  | @handed t resolve r' sender' mb' ev hr hq hd =>
    refine .inr ⟨?_, List.not_mem_nil⟩
    rintro q' ⟨⟩ rfl
    cases (hopens.unpacked resolve).symm.trans hr
    rw [hopens.queued] at hq
    cases hq
  | @handedQueued t r' sender' mb' ev hseen hd =>
    by_cases ht : t = text
    · subst ht
      obtain rfl := hopens.eq_of_queuedFrame hsound
      exact .inl ⟨ev, List.mem_singleton_self _, hd.settles hopens hw⟩
    · refine .inr ⟨?_, List.not_mem_nil⟩
      rintro q' ⟨⟩
      exact ht
  | acked | tspAcked | refusedAcked =>
    refine .inr ⟨by simp, fun hmem => hp ?_⟩
    exact hinj (List.mem_singleton.mp hmem).symm
  | completed | tspHanded | tspFulfilled =>
    refine .inr ⟨?_, List.not_mem_nil⟩
    rintro q' ⟨⟩
    exact hp
  | accepted =>
    refine .inr ⟨?_, List.not_mem_nil⟩
    rintro q' ⟨⟩
    trivial
  | failed | undelivered | reacked | tspReacked | tspThrew | ended =>
    exact .inr ⟨by simp, List.not_mem_nil⟩

/-- A frame that is unpacked moves on its resolver's answer. -/
lemma Moves.input_unpacking {seen : BoundedSet JsString maxSeen} {mb mb' : Mailbox.State}
    {input : Input} {q : Option Phase} {e : Event}
    (hm : Moves cfg seen mb h input (.unpacking text) q mb' e) :
    ∃ resolve, input = .unpacked h resolve := by
  cases hm <;> exact ⟨_, rfl⟩

/-- One that is hashed moves on its hash. -/
lemma Moves.input_hashing {seen : BoundedSet JsString maxSeen} {mb mb' : Mailbox.State}
    {input : Input} {q : Option Phase} {e : Event}
    (hm : Moves cfg seen mb h input (.hashing text r) q mb' e) : input = .hashed h := by
  cases hm <;> rfl

namespace Awaits
variable (inv : Awaits cfg text r sender w h s)
include inv

/-- The handler itself opens the frame. -/
lemma own_unpacked (hopens : Opens cfg text r sender) {resolve : Option ResolveSender} {e : Event}
    (hp : s.handlers.phase h = some (.unpacking text))
    (sound : s'.handlers.Each fun _ p => p.Sound cfg fun _ => True)
    (hstep : step cfg s (.unpacked h resolve) = some (s', e)) :
    Awaits cfg text r sender w h s' := by
  rw [step_unpacked cfg hp (hopens.unpacked resolve) hopens.queued] at hstep
  cases hstep
  refine ⟨inv.waiter, .inr (Lts.Threads.phase_move_self hp _), ?_, inv.unseen, sound⟩
  apply inv.untouched.move
  rintro q ⟨⟩
  trivial

/-- The handler itself hands off the message. -/
lemma own_hashed (hopens : Opens cfg text r sender) {e : Event}
    (hp : s.handlers.phase h = some (.hashing text r))
    (hstep : step cfg s (.hashed h) = some (s', e)) : e.Settles w := by
  have hseen : s.seen.has (cfg.sha256Hex text) = false := by
    rw [Bool.eq_false_iff, Ne, BoundedSet.has_iff]
    exact inv.unseen
  have hw : s.mailbox.waiters.find? (·.takes (Mailbox.threadOf r.message) sender) = some w :=
    inv.waiter
  simp only [step, hp, Option.bind_some, afterHash, hseen, deliver, hopens.did, hopens.kid,
    Mailbox.deliver, hw] at hstep
  cases hstep
  have htakes := List.find?_some hw
  exact ⟨_, List.mem_singleton_self _, rfl, by simpa using htakes⟩

/-- A step settles the waiter, or both go on. -/
lemma step (hopens : Opens cfg text r sender)
    (hinj : s.handlers.Each fun _ p => cfg.sha256Hex p.text = cfg.sha256Hex text → p.text = text)
    {input : Input} {e : Event}
    (hstep : Session.step cfg s input = some (s', e)) :
    e.Settles w ∨ Awaits cfg text r sender w h s' := by
  have hs := steps_of_step hstep
  have sound := hs.sound (fun _ _ _ => trivial) inv.sound
  have waiter := inv.waiter
  have handler := inv.handler
  have untouched := inv.untouched
  have unseen := inv.unseen
  cases hs with
  | @starts data p _ hst =>
    refine .inr ⟨waiter, handler.imp (fun hp => Lts.Threads.phase_start_of_some hp p)
      fun hp => Lts.Threads.phase_start_of_some hp p, ?_, unseen, sound⟩
    apply untouched.start
    rintro q rfl
    cases hst with
    | tsp htsp =>
      rintro rfl
      rw [hopens.didcomm] at htsp
      cases htsp
    | didcomm => trivial
  | @moves _ i p q mb _ hp hm =>
    by_cases hi : i = h
    · subst hi
      obtain hunpacking | hhashing := handler
      · cases hp.symm.trans hunpacking
        obtain ⟨resolve, rfl⟩ := hm.input_unpacking
        exact .inr (inv.own_unpacked hopens hunpacking sound hstep)
      · cases hp.symm.trans hhashing
        obtain rfl := hm.input_hashing
        exact .inl (inv.own_hashed hopens hhashing hstep)
    · refine (hm.settles_or hopens (hinj i p hp) (untouched i p hp) (inv.sound i p hp) waiter).imp id ?_
      rintro ⟨hw, hq, hmarks⟩
      have hne : h ≠ i := Ne.symm hi
      refine ⟨hw, ?_, untouched.move hq, fun hmem => ?_, sound⟩
      · rw [Lts.Threads.phase_move_of_ne hne]
        exact handler
      · exact (BoundedSet.of_mem_addAll hmem).elim unseen hmarks
  | @mailbox _ mailboxInput mb ev hm hmb =>
    have run : Lts.Run (Mailbox.Step cfg.mediatorDid) s.mailbox [ev] mb :=
      .snoc (.nil _) ⟨mailboxInput, ev, hmb, rfl⟩
    exact (Mailbox.first_of_run run waiter).imp id (⟨·, handler, untouched, unseen, sound⟩)

/-- Until the waiter is settled, it waits and the handler is at work. -/
lemma of_run (hopens : Opens cfg text r sender) {tr₀ tr : List Event} (known : Known cfg s tr₀)
    (hinj : ∀ h t, .received h t ∈ tr₀ ++ tr → cfg.sha256Hex t = cfg.sha256Hex text → t = text)
    (run : Lts.Run (Step cfg) s tr s') :
    (∃ e ∈ tr, e.Settles w) ∨ Awaits cfg text r sender w h s' := by
  induction run with
  | nil => exact .inr inv
  | @snoc s₁ s₂ tr evs run hs ih =>
    have hinj₁ (i : Nat) (t : JsString) (ht : .received i t ∈ tr₀ ++ tr) :
        cfg.sha256Hex t = cfg.sha256Hex text → t = text := by
      apply hinj i t
      rw [← List.append_assoc]
      exact List.mem_append_left _ ht
    obtain ⟨e, he, hsettles⟩ | inv₁ := ih hinj₁
    · exact .inl ⟨e, List.mem_append_left _ he, hsettles⟩
    · have known₁ := known.run run
      obtain ⟨input, e, hstep, rfl⟩ := hs
      refine (inv₁.step hopens (fun i p hp => hinj₁ i _ (known₁.handlers i p hp)) hstep).imp
        (fun h => ?_) id
      exact ⟨e, List.mem_append_right _ (List.mem_singleton_self e), h⟩

end Awaits

end Steps

/-- A reply settles its request. A frame that opens as the message is received for the first time,
when the oldest waiter to take the message is `w`. However the run goes on, either `w` is settled, by
a message it takes or by a failure, or it still waits and the handler of the frame has not ended. No
other frame received is to have the frame's queue id. -/
lemma reply_settles {cfg : Config} {text : JsString} {r : Unpacked} {sender : Mailbox.Sender}
    (hopens : Opens cfg text r sender) {tr₀ : List Event} {s₀ s : State}
    (run₀ : Lts.Run (Step cfg) {} tr₀ s₀) (hnew : ∀ h, .received h text ∉ tr₀) {w : Mailbox.Waiter}
    (hw : s₀.mailbox.waiters.find? (takesMessage r sender) = some w) {e : Event}
    (hreceive : step cfg s₀ (.receive (.text text)) = some (s, e)) {tr : List Event} {s' : State}
    (run : Lts.Run (Step cfg) s tr s')
    (hinj : ∀ h t, .received h t ∈ tr₀ ++ tr → cfg.sha256Hex t = cfg.sha256Hex text → t = text) :
    (∃ e ∈ tr, e.Settles w) ∨
      w ∈ s'.mailbox.waiters ∧ s'.handlers.phase s₀.handlers.next ≠ none := by
  rw [step_receive cfg s₀ hopens.didcomm] at hreceive
  cases hreceive
  have known := known_of_run run₀
  have sound := sound_of_run run₀
  have inv : Awaits cfg text r sender w s₀.handlers.next
      { s₀ with handlers := s₀.handlers.start (some (.unpacking text)) } := by
    refine ⟨hw, .inl (Lts.Threads.phase_start_next _ _), ?_, ?_, ?_⟩
    · refine Lts.Threads.Each.start (fun h p hp => Phase.untouched_of_ne ?_) ?_
      · rintro rfl
        exact hnew h (known.handlers h p hp)
      · rintro q ⟨⟩
        trivial
    · intro hseen
      obtain ⟨h, t, ht, heq⟩ := known.seen _ hseen
      exact hnew h (hinj h t (List.mem_append_left _ ht) heq ▸ ht)
    · apply sound.start
      rintro q ⟨⟩
      exact hopens.didcomm
  have known₁ : Known cfg _ (tr₀ ++ [.received s₀.handlers.next text]) :=
    known.steps (steps_of_step (step_receive cfg s₀ hopens.didcomm))
  have hinj₁ (h : Nat) (t : JsString)
      (ht : .received h t ∈ tr₀ ++ [.received s₀.handlers.next text] ++ tr) :
      cfg.sha256Hex t = cfg.sha256Hex text → t = text := by
    simp only [List.append_assoc, List.singleton_append, List.mem_append, List.mem_cons] at ht
    obtain ht | ht | ht := ht
    · exact hinj h t (List.mem_append_left _ ht)
    · cases ht
      exact fun _ => rfl
    · exact hinj h t (List.mem_append_right _ ht)
  refine (inv.of_run hopens known₁ hinj₁ run).imp id fun inv' => ?_
  refine ⟨List.mem_of_find?_eq_some inv'.waiter, fun hnone => ?_⟩
  obtain hp | hp := inv'.handler <;> rw [hnone] at hp <;> cases hp

/-! ## The replies of a VTA -/

/-- A session whose client can open and authenticate what a VTA packs for it. -/
structure Knows (cfg : Config) (number : List UInt8 → List UInt8) (vta : Client)
    (client : AgreementKey) : Prop where
  reads : cfg.P.ReadsJson number
  lawful : cfg.C.Lawful
  keys : ∃ (vtaKey clientKey : KeyPair cfg.C .x25519) (kid : Option JsString), vta.Holds vtaKey ∧
    client.IsOf clientKey ∧ cfg.recipient = ⟨client.kidText, some clientKey.privateJwk⟩ ∧
    seededKey cfg.keys (senderKid vta.kid (some (.str vta.did))) = some ⟨kid, some vtaKey.publicJwk⟩
  notMediator : identityOfKid vta.kid ≠ identityOfKid cfg.mediatorDid

/-- The sender of what a client packs. -/
def senderOf (client : Client) : Mailbox.Sender where
  did := identityOfKid client.kid
  kid := senderKid client.kid (some (.str client.did))

/-- What a VTA packs for the client opens in its session, whoever `resolveSender` knows. -/
lemma Knows.opens {cfg : Config} {number : List UInt8 → List UInt8} {vta : Client}
    {client : AgreementKey} (hknows : Knows cfg number vta client) {draw : Draw}
    (hdraw : draw.entropy.Fresh cfg.C .x25519) {members : List (JsString × Json)}
    (hfrom : Json.lookup (js "from") members = some (.str vta.did))
    (hplain : Json.Plain number (.obj members)) :
    ∃ text, packTo cfg.C draw vta (.obj members) client = .ok text ∧
      Opens cfg text (openedFrom vta (.obj members)) (senderOf vta) := by
  obtain ⟨vtaKey, clientKey, kid, hvta, hclient, hrecipient, hseeded⟩ := hknows.keys
  obtain ⟨jwe, -, ⟨parts, rfl⟩, hpack, hopens⟩ :=
    packTo_opens hknows.reads hknows.lawful hdraw hvta hclient hfrom hplain
  have hdid := hvta.speaks.skid_did
  refine ⟨_, hpack, rfl, fun resolve => ?_, ?_, rfl, rfl⟩
  · have hkey : senderFor cfg.keys (senderKid vta.kid (some (.str vta.did))) resolve =
        .ok ⟨kid, some vtaKey.publicJwk⟩ := by
      simp only [senderFor, hseeded]
    have hne : senderKid vta.kid (some (.str vta.did)) ≠ [] := by
      intro h
      rw [h] at hdid
      exact absurd hdid (by decide)
    rw [← hrecipient] at hopens
    exact unpackInbound_of_unpack hkey hopens rfl rfl hne
  · refine isQueued_iff.mpr ⟨_, rfl, fun h => ?_, .inl hknows.notMediator⟩
    have hisDid := hvta.speaks.isDid
    rw [h] at hisDid
    exact absurd hisDid (by decide)

/-- The VTA answers. A request's waiter, for a reply on the thread `id` from the VTA, is the first of
its thread; later the VTA packs a message on that thread for the client, and its frame is received
for the first time. However the session runs before and after, the waiter has been settled, by a
message on its thread that is authenticated as the VTA's or by a failure, or it still waits and
the handler of the frame has not ended. -/
theorem vta_reply_settles {cfg : Config} {number : List UInt8 → List UInt8} {vta : Client}
    {client : AgreementKey} (hknows : Knows cfg number vta client) {draw : Draw}
    (hdraw : draw.entropy.Fresh cfg.C .x25519) {members : List (JsString × Json)}
    (hfrom : Json.lookup (js "from") members = some (.str vta.did)) {id : JsString}
    (hthread : Mailbox.threadOf (.obj members) = some (.str id))
    (hplain : Json.Plain number (.obj members)) :
    ∃ text, packTo cfg.C draw vta (.obj members) client = .ok text ∧
      ∀ {tr₀ tr₁ tr₂ s₀ s₁ s₂ s₃ s₄ n from' e},
        Lts.Run (Step cfg) {} tr₀ s₀ → (∀ w ∈ s₀.mailbox.waiters, w.thid ≠ id) →
        step cfg s₀ (.waitFor id (.one vta.did)) = some (s₁, .mailbox (.waiting n id from')) →
        Lts.Run (Step cfg) s₁ tr₁ s₂ →
        step cfg s₂ (.receive (.text text)) = some (s₃, e) → Lts.Run (Step cfg) s₃ tr₂ s₄ →
        (∀ h, .received h text ∉ tr₀ ++ tr₁) →
        (∀ h t, .received h t ∈ tr₀ ++ tr₁ ++ tr₂ → cfg.sha256Hex t = cfg.sha256Hex text → t = text) →
        let w : Mailbox.Waiter := ⟨n, id, some [identityOfKid vta.did]⟩
        (∃ e ∈ tr₁ ++ tr₂, e.Settles w) ∨
          w ∈ s₄.mailbox.waiters ∧ s₄.handlers.phase s₂.handlers.next ≠ none := by
  obtain ⟨text, hpack, hopens⟩ := hknows.opens hdraw hfrom hplain
  refine ⟨text, hpack, ?_⟩
  intro tr₀ tr₁ tr₂ s₀ s₁ s₂ s₃ s₄ n from' e run₀ hfresh hwait run₁ hreceive run₂ hnew hinj w
  have htakes : takesMessage (openedFrom vta (.obj members)) (senderOf vta) w = true := by
    obtain ⟨_, _, _, hvta, -⟩ := hknows.keys
    simp [takesMessage, openedFrom, Mailbox.Waiter.takes, Mailbox.answers, hthread, Json.asString,
      Mailbox.acceptsSender, senderOf, w, hvta.speaks.identity]
  have hmine (v : Mailbox.Waiter)
      (h : takesMessage (openedFrom vta (.obj members)) (senderOf vta) v = true) : v.thid = id := by
    simp only [takesMessage, openedFrom, Mailbox.Waiter.takes, Mailbox.answers, hthread,
      Json.asString, Bool.and_eq_true, decide_eq_true_eq, Option.some.injEq] at h
    exact h.1.symm
  have hw : s₁.mailbox.waiters.find?
      (takesMessage (openedFrom vta (.obj members)) (senderOf vta)) = some w := by
    have hstep : Mailbox.waitFor s₀.mailbox id (.one vta.did) =
        (s₁.mailbox, .waiting n id from') := by
      simp only [step, mailboxStep, Mailbox.step, Option.map_some, Option.some.injEq,
        Prod.mk.injEq, Event.mailbox.injEq] at hwait
      rw [← hwait.1, ← hwait.2]
    exact Mailbox.first_of_waitFor hfresh hstep htakes hmine
  obtain ⟨m, hm, hsettles⟩ | hw₂ := Mailbox.first_of_run (run_mailbox_from run₁) hw
  · obtain ⟨e, he, hm⟩ := List.mem_flatMap.mp hm
    exact .inl ⟨e, List.mem_append_left _ he, m, hm, hsettles⟩
  · have run := (run₀.does _ hwait).trans run₁
    obtain hsettles | hwaits := reply_settles hopens run (by simpa using hnew) hw₂ hreceive run₂
      (by simpa using hinj)
    · obtain ⟨e, he, h⟩ := hsettles
      exact .inl ⟨e, List.mem_append_right _ he, h⟩
    · exact .inr hwaits

/-- A sample session knows a sample sender. -/
lemma knows_sample : Knows (Config.sample .json) id (.sample 5) (.sample 6) where
  reads := Platform.json_readsJson
  lawful := Crypto.sample_lawful
  keys := by
    refine ⟨KeyPair.sample 5, KeyPair.sample 6, some alice.kid, Client.sample_holds 5,
      AgreementKey.sample_isOf 6, rfl, ?_⟩
    let key : SenderKey := ⟨some alice.kid, some (KeyPair.sample 5).publicJwk⟩
    have hkeys : (Config.sample .json).keys (identityOfKid alice.kid) = [key] :=
      if_neg (show ¬ identityOfKid alice.kid = js "did:ex:mediator" by decide)
    have hnamed : key.isNamed (didOfKid alice.kid) alice.kid = true := by decide
    show seededKey (Config.sample .json).keys alice.kid = some key
    simp [seededKey, keyForSkid, hkeys, hnamed]
  notMediator := (by decide : identityOfKid (js "did:ex:alice#1") ≠ identityOfKid (js "did:ex:mediator"))

/-- A reply arrives, and its waiter waits for the handler. -/
theorem vta_reply_settles_example : ∃ cfg tr s, ∃ w : Mailbox.Waiter,
    Lts.Run (Step cfg) {} tr s ∧ w ∈ s.mailbox.waiters ∧ s.handlers.phase 0 ≠ none := by
  have hplain : Json.Plain id
      (.obj [(js "from", .str (js "did:ex:alice")), (js "thid", .str (js "1"))]) :=
    .of_names [js "from", js "thid"] rfl (by decide) (by simp [Json.Plain.str])
  let cfg := Config.sample .json
  have hdraw : Draw.sample.entropy.Fresh cfg.C .x25519 := Entropy.sample_fresh .x25519
  have hthread : Mailbox.threadOf
      (.obj [(js "from", .str (js "did:ex:alice")), (js "thid", .str (js "1"))]) =
        some (.str (js "1")) := rfl
  obtain ⟨text, -, hsettles⟩ := vta_reply_settles knows_sample hdraw rfl hthread hplain
  obtain ⟨s₁, hwait, hnext⟩ : ∃ s₁, step cfg {} (.waitFor (js "1") (.one (js "did:ex:alice"))) =
      some (s₁, .mailbox (.waiting 0 (js "1") (.one (js "did:ex:alice")))) ∧
        s₁.handlers.next = 0 := ⟨_, rfl, rfl⟩
  obtain ⟨s₂, e, hreceive⟩ : ∃ s₂ e, step cfg s₁ (.receive (.text text)) = some (s₂, e) := ⟨_, _, rfl⟩
  have start : Lts.Run (Step cfg) {} [] {} := .nil _
  have run := (start.does _ hwait).does _ hreceive
  have hend := hsettles start nofun hwait (.nil s₁) hreceive (.nil s₂) nofun nofun
  obtain ⟨e, he, -⟩ | ⟨hw, hphase⟩ := hend
  · cases he
  · exact ⟨cfg, _, s₂, _, run, hw, hnext ▸ hphase⟩

end Session

end VtiDidcomm
