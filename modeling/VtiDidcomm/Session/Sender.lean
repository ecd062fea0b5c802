import VtiDidcomm.Envelope.RoundTrip
import VtiDidcomm.Session.Frames

/-!
# Senders

Whose messages a session delivers: `Phase.Sound` is what is known of the frame a handler is
suspended with, and keeps in every run; from it, everything that reaches a waiter, a listener or the
inbox was authenticated by the key its sender's `skid` names. `sender_authenticated` collects this
with what `unpackInbound` and `unpack` guarantee of one frame.

What a handler delivers comes from the one frame that it received and from the one answer that
`resolveSender` gave it; both are in the log of the run (`Sourced`).
-/

namespace VtiDidcomm.Session
open Js

/-- `resolveSender` answered the handler `h` with `resolve` when `unpackInbound` settled. -/
def GivenTo (log : List Entry) (h : Nat) (resolve : Option ResolveSender) : Prop :=
  ∃ e, (.unpacked h resolve, e) ∈ log

variable (cfg : Config)

/-- A message the mediator queued for us: its authenticated sender is not the mediator, or it is the
mediator's stored reply. `given` says what `resolveSender` answered. -/
structure QueuedFrame (given : Option ResolveSender → Prop) (text : JsString) (r : Unpacked) :
    Prop where
  didcomm : isTspFrameText text = false
  unpacked : ∃ resolve, given resolve ∧ cfg.unpackInbound text resolve = .ok r
  sender : ∃ did, r.senderDid = some did ∧
    (did ≠ identityOfKid cfg.mediatorDid ∨ isStoredMediatorReply r.message = true)

/-- A TSP frame that has a consumer. -/
structure TspFrame (text : JsString) : Prop where
  tsp : isTspFrameText text = true
  consumer : cfg.hasOnTspFrame = true

/-- What is known of the frame a handler is suspended with. -/
def Phase.Sound (given : Option ResolveSender → Prop) : Phase → Prop
  | .unpacking text => isTspFrameText text = false
  | .refusing text => isTspFrameText text = false
  | .hashing text r => QueuedFrame cfg given text r
  | .delivering text r queued => queued = true → QueuedFrame cfg given text r
  | .delivered text r queued => queued = true → QueuedFrame cfg given text r
  | .tspHashing text _ => TspFrame cfg text
  | .tspConsuming text => TspFrame cfg text
  | .tspConsumed text => TspFrame cfg text

/-- The message a mailbox event delivers, and its sender. -/
def mailboxDelivery : Mailbox.Event → Option (Json × Mailbox.Sender)
  | .handed _ message sender _ => some (message, sender)
  | .buffered _ message sender _ => some (message, sender)
  | .passed _ message sender => some (message, sender)
  | _ => none

/-- The messages an event delivers, to a waiter, the inbox or a listener, and their senders. -/
def Event.delivers : Event → List (Json × Mailbox.Sender)
  | .handed _ _ r _ sender _ e => (r.message, sender) :: (mailboxDelivery e).toList
  | .mailbox e => (mailboxDelivery e).toList
  | _ => []

/-- The handler `h` received the frame `text`, and nothing else. -/
def ReceivedBy (log : List Entry) (h : Nat) (text : JsString) : Prop :=
  ∃ data, frameText data = .ok text ∧
    ∀ input t, (input, .received h t) ∈ log ↔ input = .receive data ∧ t = text

/-- A result is what the handler `h` got from the frame it received: `resolveSender` answered it
once, and with that answer the frame, which is not ECDH-ES, was unpacked to the result. -/
structure FromFrame (log : List Entry) (h : Nat) (text : JsString) (r : Unpacked) : Prop where
  received : ReceivedBy log h text
  unpacked : ∃ resolve, (∀ answer, GivenTo log h answer ↔ answer = resolve) ∧
    cfg.unpackInbound text resolve = .ok r
  authcrypt : ¬ IsAnoncrypt cfg.P text

/-- What an entry of a log delivers is what its handler got from its frame, with the authenticated
sender. -/
def DeliversFrame (log : List Entry) (x : Entry) : Prop :=
  ∀ message sender, (message, sender) ∈ x.2.delivers →
    ∃ h text r queued listener e, x.2 = .handed h text r queued sender listener e ∧
      r.message = message ∧ r.senderDid = some sender.did ∧ r.senderKid = some sender.kid ∧
      FromFrame cfg (log ++ [x]) h text r

variable {cfg} {s : State}

/-- A message is queued unless it is a live one of the mediator. -/
lemma isQueued_iff {r : Unpacked} : isQueued cfg r = true ↔ ∃ did, r.senderDid = some did ∧ did ≠ [] ∧
    (did ≠ identityOfKid cfg.mediatorDid ∨ isStoredMediatorReply r.message = true) := by
  unfold isQueued
  split <;> simp_all

/-- An answer in a log is in every longer one. -/
lemma GivenTo.append {log : List Entry} {h : Nat} {resolve : Option ResolveSender}
    (hg : GivenTo log h resolve) (log' : List Entry) : GivenTo (log ++ log') h resolve :=
  hg.imp fun _ he => List.mem_append_left log' he

/-- A frame is queued under a weaker condition on the resolver. -/
lemma QueuedFrame.imp {given given' : Option ResolveSender → Prop} {text : JsString} {r : Unpacked}
    (hf : QueuedFrame cfg given text r) (hg : ∀ resolve, given resolve → given' resolve) :
    QueuedFrame cfg given' text r :=
  { hf with unpacked := hf.unpacked.imp fun resolve hr => ⟨hg resolve hr.1, hr.2⟩ }

/-- What is known under fewer answers is known under more. -/
lemma Phase.Sound.imp {given given' : Option ResolveSender → Prop} {p : Phase}
    (hp : p.Sound cfg given) (hg : ∀ resolve, given resolve → given' resolve) :
    p.Sound cfg given' := by
  cases p with
  | hashing => exact QueuedFrame.imp hp hg
  | delivering => exact fun hq => (hp hq).imp hg
  | delivered => exact fun hq => (hp hq).imp hg
  | unpacking | refusing | tspHashing | tspConsuming | tspConsumed => exact hp

/-- A move keeps a handler's message what its frame opens as. -/
lemma Moves.sound {given : Option ResolveSender → Prop} {seen : BoundedSet JsString maxSeen}
    {mb mb' : Mailbox.State} {h : Nat} {input : Input} {p q : Phase} {e : Event}
    (hm : Moves cfg seen mb h input p (some q) mb' e)
    (hg : ∀ resolve, input = .unpacked h resolve → given resolve) (hp : p.Sound cfg given) :
    q.Sound cfg given := by
  cases hm with
  | accepted hr hq =>
    obtain ⟨did, hdid, -, hsender⟩ := isQueued_iff.mp hq
    exact ⟨hp, ⟨_, hg _ rfl, hr⟩, did, hdid, hsender⟩
  | handed => exact nofun
  | handedQueued => exact fun _ => hp
  | refused | tspHanded | completed | tspFulfilled => exact hp

/-- A start has no message. -/
lemma Starts.sound {given : Option ResolveSender → Prop} {data : FrameData} {h : Nat} {p : Phase}
    {e : Event} (hs : Starts cfg data h (some p) e) : p.Sound cfg given := by
  cases hs with
  | tsp htsp hconsumer => exact ⟨htsp, hconsumer⟩
  | didcomm htsp => exact htsp

/-- A step keeps what is known of the frames, whatever the answers are that it is known under. -/
lemma Steps.sound {given : Nat → Option ResolveSender → Prop} {input : Input} {s' : State} {e : Event}
    (hs : Steps cfg s input s' e) (hg : ∀ h resolve, input = .unpacked h resolve → given h resolve)
    (h : s.handlers.Each fun h p => p.Sound cfg (given h)) :
    s'.handlers.Each fun h p => p.Sound cfg (given h) := by
  cases hs with
  | starts hst =>
    apply h.start
    intro q hq
    subst hq
    exact hst.sound
  | @moves _ i p _ _ _ hp hm =>
    apply h.move
    intro q hq
    subst hq
    exact hm.sound (hg i) (h _ _ hp)
  | mailbox => exact h

/-! ## What is delivered -/

/-- What the mailbox is given it delivers. -/
lemma mailboxDelivery_deliver {mediatorDid : JsString} {mb mb' : Mailbox.State} {message : Json}
    {sender : Mailbox.Sender} {e : Mailbox.Event}
    (h : Mailbox.deliver mediatorDid mb message sender = (mb', e)) :
    mailboxDelivery e = some (message, sender) := by
  unfold Mailbox.deliver at h
  dsimp only at h
  split at h
  · cases h
    rfl
  split at h
  · cases h
    rfl
  split at h
  · cases h
    rfl
  · cases h
    rfl

/-- What is no delivery delivers nothing. -/
lemma mailboxDelivery_step {mediatorDid : JsString} {mb mb' : Mailbox.State} {input : Mailbox.Input}
    {e : Mailbox.Event} (hne : ∀ message sender, input ≠ .deliver message sender)
    (h : Mailbox.step mediatorDid mb input = some (mb', e)) : mailboxDelivery e = none := by
  cases input with
  | deliver message sender => exact absurd rfl (hne message sender)
  | waitFor thid from' =>
    simp only [Mailbox.step, Mailbox.waitFor, Option.some.injEq] at h
    split at h
    · cases h
      rfl
    split at h
    · cases h
      rfl
    · cases h
      rfl
  | expire timer =>
    simp only [Mailbox.step, Mailbox.expire] at h
    split at h
    · cases h
      rfl
    · cases h
  | socketDown =>
    cases h
    rfl
  | close =>
    cases h
    rfl

/-- What is in the inbox after a step was there, or was delivered. -/
lemma mem_inbox_of_steps {mb mb' : Mailbox.State} {e : Mailbox.Event} (h : Mailbox.Steps mb mb' e)
    {m : Mailbox.Buffered} (hm : m ∈ mb'.inbox) :
    m ∈ mb.inbox ∨ mailboxDelivery e = some (m.message, m.sender) := by
  cases h with
  | buffered =>
    rcases List.mem_append.mp hm with hm | hm
    · exact .inl hm
    · cases List.mem_singleton.mp hm
      exact .inr rfl
  | shifted _ _ hinbox =>
    rw [hinbox]
    rcases List.mem_append.mp hm with hm | hm
    · exact .inl (List.mem_cons_of_mem _ hm)
    · cases List.mem_singleton.mp hm
      exact .inr rfl
  | claimed => exact .inl (List.mem_of_mem_eraseP hm)
  | handed | passed | invalid | waiting | expired | rejectedAll => exact .inl hm

/-- A delivery adds its message to the inbox at most. -/
lemma Delivers.mem_inbox {mb mb' : Mailbox.State} {r : Unpacked} {sender : Mailbox.Sender}
    {e : Mailbox.Event} (hd : Delivers cfg mb r sender mb' e) {m : Mailbox.Buffered}
    (hm : m ∈ mb'.inbox) : m ∈ mb.inbox ∨ mailboxDelivery e = some (m.message, m.sender) := by
  have step : Mailbox.Step cfg.mediatorDid mb [e] mb' :=
    ⟨.deliver r.message sender, e, congrArg some hd.2.2, rfl⟩
  obtain ⟨e', he, hsteps⟩ := step.steps
  cases he
  exact mem_inbox_of_steps hsteps hm

/-- What is in the inbox was there, or is delivered. -/
lemma Steps.mem_inbox {input : Input} {s' : State} {e : Event} (hs : Steps cfg s input s' e)
    {m : Mailbox.Buffered} (hm : m ∈ s'.mailbox.inbox) :
    m ∈ s.mailbox.inbox ∨ (m.message, m.sender) ∈ e.delivers := by
  cases hs with
  | starts => exact .inl hm
  | @mailbox _ mailboxInput mb ev hin hmb =>
    have step : Mailbox.Step cfg.mediatorDid s.mailbox [ev] mb := ⟨mailboxInput, ev, hmb, rfl⟩
    obtain ⟨e', he, hsteps⟩ := step.steps
    cases he
    refine (mem_inbox_of_steps hsteps hm).imp id fun hdelivers => ?_
    rw [mailboxDelivery_step (Input.forMailbox_ne_deliver hin) hmb] at hdelivers
    cases hdelivers
  | moves hp hmoves =>
    cases hmoves with
    | handed _ _ hd =>
      exact (hd.mem_inbox hm).imp id fun hdelivers => by simp [Event.delivers, hdelivers]
    | handedQueued _ hd =>
      exact (hd.mem_inbox hm).imp id fun hdelivers => by simp [Event.delivers, hdelivers]
    | accepted | refused | failed | undelivered | reacked | tspReacked | tspHanded | refusedAcked
    | completed | tspFulfilled | tspThrew | acked | ended | tspAcked => exact .inl hm

/-! ## Where it comes from -/

section Log
variable {log : List Entry} {x : Entry} {h : Nat} {text : JsString} {r : Unpacked}

/-- An answer is given by an unpacking only. -/
lemma givenTo_snoc_of_ne (hx : ∀ resolve, x.1 ≠ .unpacked h resolve)
    (resolve : Option ResolveSender) : GivenTo (log ++ [x]) h resolve ↔ GivenTo log h resolve := by
  refine ⟨fun ⟨e, he⟩ => ?_, fun hg => hg.append _⟩
  rcases List.mem_append.mp he with he | he
  · exact ⟨e, he⟩
  · exact absurd (congrArg Prod.fst (List.mem_singleton.mp he)).symm (hx resolve)

/-- A handler's frame stays the one it received. -/
lemma ReceivedBy.snoc (hr : ReceivedBy log h text) (hx : ∀ t, x.2 ≠ .received h t) :
    ReceivedBy (log ++ [x]) h text := by
  obtain ⟨data, htext, hlog⟩ := hr
  refine ⟨data, htext, fun input t => ?_⟩
  rw [← hlog, List.mem_append, List.mem_singleton]
  exact or_iff_left fun heq => hx t (congrArg Prod.snd heq).symm

/-- Steps of other handlers leave what a handler got from its frame. -/
lemma FromFrame.snoc (hf : FromFrame cfg log h text r) (hreceived : ∀ t, x.2 ≠ .received h t)
    (hunpacked : ∀ resolve, x.1 ≠ .unpacked h resolve) : FromFrame cfg (log ++ [x]) h text r where
  received := hf.received.snoc hreceived
  unpacked := by
    obtain ⟨resolve, hgiven, hr⟩ := hf.unpacked
    exact ⟨resolve, fun answer => (givenTo_snoc_of_ne hunpacked answer).trans (hgiven answer), hr⟩
  authcrypt := hf.authcrypt

/-- A handler gets its result from the frame it received and from its one answer. -/
lemma fromFrame_unpacked {resolve : Option ResolveSender} {e : Event}
    (hreceived : ReceivedBy log h text) (hnone : ∀ resolve, ¬ GivenTo log h resolve)
    (hr : cfg.unpackInbound text resolve = .ok r) (he : ∀ t, e ≠ .received h t) :
    FromFrame cfg (log ++ [(.unpacked h resolve, e)]) h text r where
  received := hreceived.snoc he
  unpacked := by
    refine ⟨resolve, fun answer => ⟨fun ⟨e', he'⟩ => ?_, ?_⟩, hr⟩
    · rcases List.mem_append.mp he' with he' | he'
      · exact absurd ⟨e', he'⟩ (hnone answer)
      · cases List.mem_singleton.mp he'
        rfl
    · rintro rfl
      exact ⟨e, by simp⟩
  authcrypt := fun halg => unpackInbound_anoncrypt halg resolve r hr

variable (cfg log h) in
/-- What the log of a run says of a handler that is to deliver. -/
def Phase.Logged : Phase → Prop
  | .unpacking text => ReceivedBy log h text ∧ ∀ resolve, ¬ GivenTo log h resolve
  | .hashing text r => FromFrame cfg log h text r
  | _ => True

/-- A phase stays what the log tells of it. -/
lemma Phase.Logged.snoc {p : Phase} (hp : p.Logged cfg log h) (hreceived : ∀ t, x.2 ≠ .received h t)
    (hunpacked : ∀ resolve, x.1 ≠ .unpacked h resolve) : p.Logged cfg (log ++ [x]) h := by
  cases p with
  | unpacking =>
    refine ⟨hp.1.snoc hreceived, fun resolve hg => hp.2 resolve ?_⟩
    exact (givenTo_snoc_of_ne hunpacked resolve).mp hg
  | hashing => exact FromFrame.snoc hp hreceived hunpacked
  | _ => trivial

end Log

variable (cfg) in
/-- The log of a run says where the messages that it delivers come from. -/
structure Sourced (s : State) (log : List Entry) : Prop where
  handlers : s.handlers.Each fun h p => p.Logged cfg log h
  received : ∀ input h text, (input, .received h text) ∈ log → h < s.handlers.next
  given : ∀ h resolve, GivenTo log h resolve → h < s.handlers.next
  delivers : Lts.Guarded (DeliversFrame cfg) log
  inbox : ∀ m ∈ s.mailbox.inbox, ∃ x ∈ log, (m.message, m.sender) ∈ x.2.delivers

/-- Nothing is delivered at first. -/
lemma sourced_init : Sourced cfg {} [] where
  handlers := Lts.Threads.each_empty _
  received _ _ _ hmem := nomatch hmem
  given _ _ hg := nomatch hg
  delivers := Lts.guarded_nil
  inbox _ hm := nomatch hm

/-- A move receives no frame. -/
lemma Moves.ne_received {seen : BoundedSet JsString maxSeen} {mb mb' : Mailbox.State} {h : Nat}
    {input : Input} {p : Phase} {q : Option Phase} {e : Event}
    (hm : Moves cfg seen mb h input p q mb' e) (i : Nat) (t : JsString) : e ≠ .received i t := by
  cases hm <;> nofun

/-- Only the handler that goes on has its frame unpacked, and it was to unpack it. -/
lemma Moves.of_unpacked {seen : BoundedSet JsString maxSeen} {mb mb' : Mailbox.State} {h i : Nat}
    {resolve : Option ResolveSender} {p : Phase} {q : Option Phase} {e : Event}
    (hm : Moves cfg seen mb h (.unpacked i resolve) p q mb' e) :
    i = h ∧ ∃ text, p = .unpacking text := by
  cases hm <;> exact ⟨rfl, _, rfl⟩

section Moves
variable {log : List Entry} {seen : BoundedSet JsString maxSeen} {mb mb' : Mailbox.State} {h : Nat}
  {input : Input} {p : Phase} {e : Event}

/-- A handler goes on with what the log says of it. -/
lemma Moves.logged {q : Phase} (hm : Moves cfg seen mb h input p (some q) mb' e)
    (hp : p.Logged cfg log h) : q.Logged cfg (log ++ [(input, e)]) h := by
  cases hm with
  | accepted hr => exact fromFrame_unpacked hp.1 hp.2 hr nofun
  | refused | handed | handedQueued | tspHanded | completed | tspFulfilled => trivial

/-- A delivery is of one message and its sender. -/
lemma Delivers.eq_of_mem {r : Unpacked} {sender from' : Mailbox.Sender} {message : Json}
    {me : Mailbox.Event} (hd : Delivers cfg mb r sender mb' me)
    (hmem : (message, from') ∈ (r.message, sender) :: (mailboxDelivery me).toList) :
    message = r.message ∧ from' = sender := by
  rw [mailboxDelivery_deliver hd.2.2] at hmem
  simpa using hmem

/-- What a handler delivers is what it got from its frame. -/
lemma Moves.deliversFrame {q : Option Phase} (hm : Moves cfg seen mb h input p q mb' e)
    (hp : p.Logged cfg log h) : DeliversFrame cfg log (input, e) := by
  intro message from' hmem
  cases hm with
  | handed hr hq hd =>
    obtain ⟨rfl, rfl⟩ := hd.eq_of_mem hmem
    exact ⟨_, _, _, _, _, _, rfl, rfl, hd.1, hd.2.1, fromFrame_unpacked hp.1 hp.2 hr nofun⟩
  | handedQueued hseen hd =>
    obtain ⟨rfl, rfl⟩ := hd.eq_of_mem hmem
    exact ⟨_, _, _, _, _, _, rfl, rfl, hd.1, hd.2.1, FromFrame.snoc hp nofun nofun⟩
  | accepted | refused | failed | undelivered | reacked | tspReacked | tspHanded | refusedAcked
  | completed | tspFulfilled | tspThrew | acked | ended | tspAcked => cases hmem

end Moves

section Steps
variable {input : Input} {s' : State} {e : Event} {log : List Entry}

/-- Handlers are numbered as their frames are received. -/
lemma Steps.next_le (hs : Steps cfg s input s' e) : s.handlers.next ≤ s'.handlers.next := by
  cases hs with
  | starts => exact Nat.le_succ _
  | moves | mailbox => exact Nat.le_refl _

/-- A frame is received by the next handler. -/
lemma Steps.of_received {h : Nat} {text : JsString} (hs : Steps cfg s input s' (.received h text)) :
    h = s.handlers.next ∧ h < s'.handlers.next := by
  cases hs with
  | starts hst => cases hst <;> exact ⟨rfl, Nat.lt_succ_self _⟩
  | moves hp hm => exact absurd rfl (hm.ne_received h text)

/-- A resolver answers a handler that unpacks. -/
lemma Steps.of_unpacked {h : Nat} {resolve : Option ResolveSender}
    (hs : Steps cfg s (.unpacked h resolve) s' e) :
    ∃ text, s.handlers.phase h = some (.unpacking text) := by
  cases hs with
  | moves hp hm =>
    obtain ⟨rfl, text, rfl⟩ := hm.of_unpacked
    exact ⟨text, hp⟩
  | mailbox hin => cases hin

/-- The frame that a new handler received is the only one with its number. -/
lemma receivedBy_next {data : FrameData} {text : JsString} (inv : Sourced cfg s log)
    (htext : frameText data = .ok text) :
    ReceivedBy (log ++ [(.receive data, .received s.handlers.next text)]) s.handlers.next text := by
  refine ⟨data, htext, fun input t => ?_⟩
  rw [List.mem_append, List.mem_singleton]
  constructor
  · rintro (hold | heq)
    · exact absurd (inv.received _ _ _ hold) (Nat.lt_irrefl _)
    · cases heq
      exact ⟨rfl, rfl⟩
  · rintro ⟨rfl, rfl⟩
    exact .inr rfl

/-- A step keeps what the log says of the handlers. -/
lemma Sourced.handlers_steps (inv : Sourced cfg s log) (hs : Steps cfg s input s' e) :
    s'.handlers.Each fun h p => p.Logged cfg (log ++ [(input, e)]) h := by
  cases hs with
  | @starts data p _ hst =>
    have old : s.handlers.Each fun h p => p.Logged cfg (log ++ [(.receive data, e)]) h := by
      intro i q hq
      have hne : i ≠ s.handlers.next := Nat.ne_of_lt (Lts.Threads.lt_next hq)
      refine (inv.handlers i q hq).snoc (fun t heq => ?_) nofun
      cases hst <;> cases heq
      all_goals exact hne rfl
    refine old.start fun q hq => ?_
    cases hst with
    | failed | ignored => cases hq
    | tsp =>
      cases hq
      trivial
    | didcomm _ htext =>
      cases hq
      refine ⟨receivedBy_next inv htext, fun resolve hg => ?_⟩
      have hold : GivenTo log s.handlers.next resolve := (givenTo_snoc_of_ne (by nofun) _).mp hg
      exact Nat.lt_irrefl _ (inv.given _ _ hold)
  | @moves _ h p q mb _ hp hm =>
    refine Lts.Threads.each_move (fun i r hi hr => ?_) fun r hr => ?_
    · refine (inv.handlers i r hr).snoc (hm.ne_received i) fun resolve heq => hi ?_
      subst heq
      exact hm.of_unpacked.1
    · subst hr
      exact hm.logged (inv.handlers h p hp)
  | mailbox hin =>
    intro i q hq
    refine (inv.handlers i q hq).snoc nofun fun resolve heq => ?_
    subst heq
    cases hin

/-- What a step delivers came in the handler's frame. -/
lemma Sourced.deliversFrame (inv : Sourced cfg s log) (hs : Steps cfg s input s' e) :
    DeliversFrame cfg log (input, e) := by
  cases hs with
  | starts hst =>
    intro message sender hmem
    cases hst <;> cases hmem
  | moves hp hm => exact hm.deliversFrame (inv.handlers _ _ hp)
  | mailbox hin hmb =>
    intro message sender hmem
    simp only [Event.delivers, mailboxDelivery_step (Input.forMailbox_ne_deliver hin) hmb] at hmem
    cases hmem

/-- A step keeps the sources. -/
lemma Sourced.steps (inv : Sourced cfg s log) (hs : Steps cfg s input s' e) :
    Sourced cfg s' (log ++ [(input, e)]) where
  handlers := inv.handlers_steps hs
  received := by
    intro input' h text hmem
    rcases List.mem_append.mp hmem with hmem | hmem
    · exact Nat.lt_of_lt_of_le (inv.received input' h text hmem) hs.next_le
    · cases List.mem_singleton.mp hmem
      exact hs.of_received.2
  given := by
    rintro h resolve ⟨e', hmem⟩
    rcases List.mem_append.mp hmem with hmem | hmem
    · exact Nat.lt_of_lt_of_le (inv.given h resolve ⟨e', hmem⟩) hs.next_le
    · cases List.mem_singleton.mp hmem
      obtain ⟨text, hp⟩ := hs.of_unpacked
      exact Nat.lt_of_lt_of_le (Lts.Threads.lt_next hp) hs.next_le
  delivers := Lts.guarded_snoc.mpr ⟨inv.delivers, inv.deliversFrame hs⟩
  inbox := by
    intro m hm
    obtain hm | hm := hs.mem_inbox hm
    · obtain ⟨x, hx, hdelivers⟩ := inv.inbox m hm
      exact ⟨x, List.mem_append_left _ hx, hdelivers⟩
    · exact ⟨(input, e), by simp, hm⟩

end Steps

/-- A run keeps the sources. -/
lemma sourced_of_run {log : List Entry} (r : Lts.Run (LogStep cfg) {} log s) : Sourced cfg s log := by
  refine r.invariant sourced_init fun inv hs => ?_
  obtain ⟨⟨input, e⟩, rfl, h⟩ := hs.steps
  exact inv.steps h

/-- Sender authentication. (1) What `unpackInbound` returns speaks for the sender the `skid` of the
frame names, and was unwrapped with a key of that sender. (2) A frame that `unpack` accepts as
ECDH-ES has no sender. (3) Whatever a session delivers, in any run, is what the handler's own frame
was unpacked to with the answer `resolveSender` gave that handler, with its authenticated sender,
and no ECDH-ES frame was; what is in the inbox was delivered. -/
theorem sender_authenticated (P : Platform) (C : Crypto) (recipient : Recipient)
    (senderKeys : JsString → List SenderKey) :
    (∀ frame resolveSender r,
      unpackInbound P C recipient senderKeys frame resolveSender = .ok r →
      ∃ skid claimed, Authentic P C recipient senderKeys frame resolveSender r skid claimed) ∧
    (∀ frame sender r, IsAnoncrypt P frame → unpack P C frame recipient sender = .ok r →
      r.senderKid = none ∧ r.senderDid = none) ∧
    (∀ cfg log s, Lts.Run (LogStep cfg) {} log s →
      Lts.Guarded (DeliversFrame cfg) log ∧
      ∀ m ∈ s.mailbox.inbox, ∃ x ∈ log, (m.message, m.sender) ∈ x.2.delivers) := by
  refine ⟨fun frame resolveSender r h => unpackInbound_authentic h,
    fun frame sender r halg h => (unpack_anoncrypt halg h).2, fun cfg log s r => ?_⟩
  have inv := sourced_of_run r
  exact ⟨inv.delivers, inv.inbox⟩

/-! ## Sample frames -/

/-- A sender of sample frames. -/
def alice : PackSender := ⟨js "did:ex:alice#1", some (KeyPair.sample 5).privateJwk⟩

/-- The recipient of sample frames. -/
def bob : Recipient := ⟨js "did:ex:bob#1", some (KeyPair.sample 6).privateJwk⟩

/-- The sample message. -/
def hello : Json := .obj [(js "from", .str (js "did:ex:alice"))]

/-- The sample message is packed, and unpacks. -/
lemma unpack_hello : ∃ (P : Platform) (frame : JsString), isTspFrameText frame = false ∧
    unpack P Crypto.sample frame bob (some (KeyPair.sample 5).publicJwk) =
      .ok ⟨hello, some alice.kid, some (js "did:ex:alice"), true, false⟩ := by
  have hkid : bob.kid ≠ [] := by decide
  have hs : Speaks alice.kid (js "did:ex:alice") :=
    { noHash := by decide
      identity := by decide
      isDid := by decide
      kid_wellFormed := by decide
      src_wellFormed := nofun
      fits := by decide }
  have hfrom : Json.lookup (js "from") [(js "from", .str (js "did:ex:alice"))] =
      some (.str (js "did:ex:alice")) := rfl
  obtain ⟨epk, kek, ciphertext, tag, encryptedKey, hseal, -⟩ :=
    sealAuthcrypt_ok [(js "from", .str (js "did:ex:alice"))] (KeyPair.sample 5) (KeyPair.sample 6)
      Crypto.sample_lawful (Entropy.sample_fresh .x25519) hfrom hs.kid_ne hs.fits hkid
  obtain ⟨frame, hpack, hunpack⟩ := unpack_pack_authcrypt Crypto.sample_lawful
    (Entropy.sample_fresh .x25519) hfrom hs hkid
    fun s (h : sealAuthcrypt Crypto.sample Entropy.sample hello alice
        ⟨bob.kid, some (KeyPair.sample 6).publicJwk⟩ = .ok s) => by
      cases hseal.symm.trans h
      exact reads_reading
  rw [pack, hseal] at hpack
  cases hpack
  exact ⟨_, _, rfl, hunpack⟩

/-- The sample message is packed without a sender, and unpacks. -/
lemma unpack_hello_anoncrypt : ∃ (P : Platform) (frame : JsString), IsAnoncrypt P frame ∧
    unpack P Crypto.sample frame bob none = .ok ⟨hello, none, none, false, false⟩ := by
  have hkid : bob.kid ≠ [] := by decide
  obtain ⟨epk, kek, ciphertext, tag, encryptedKey, hseal, -⟩ :=
    sealAnoncrypt_ok [(js "from", .str (js "did:ex:alice"))] (KeyPair.sample 6)
      Crypto.sample_lawful (Entropy.sample_fresh .x25519) hkid
  obtain ⟨P, hjson⟩ : ∃ P, ∀ s, sealAnoncrypt Crypto.sample Entropy.sample hello
      ⟨bob.kid, some (KeyPair.sample 6).publicJwk⟩ = .ok s →
      Parses P hello ∧ Parses P s.header ∧ Parses P s.jwe := ⟨_, fun s h => by
    cases hseal.symm.trans h
    exact reads_reading⟩
  obtain ⟨frame, hpack, hunpack⟩ := unpack_pack_anoncrypt Crypto.sample_lawful
    (Entropy.sample_fresh .x25519) hkid none hjson
  obtain ⟨-, hheader, hjwe⟩ := hjson _ hseal
  rw [packAnoncrypt, hseal] at hpack
  cases hpack
  exact ⟨P, _, ⟨_, _, _, readJwe_assemble hjwe hheader⟩, hunpack⟩

/-- A session of `bob`'s that knows `alice`'s key. -/
def Config.sample (P : Platform) : Config where
  P := P
  C := Crypto.sample
  recipient := bob
  mediatorDid := js "did:ex:mediator"
  mediatorKey := ⟨some (js "did:ex:mediator#1"), some (KeyPair.sample 7).publicJwk⟩
  senderKeys _ := [⟨some alice.kid, some (KeyPair.sample 5).publicJwk⟩]
  hasOnMessage := true
  hasOnMediatorMessage := false
  hasOnTspFrame := true
  sha256Hex text := text

/-- A session that consumes TSP frames. -/
def Config.tsp : Config := Config.sample .plain

/-- A TSP frame. -/
def tspFrame : JsString := js "-EAA"

/-- A session accepts the sample frame. -/
lemma unpackInbound_hello : ∃ (P : Platform) (frame : JsString), isTspFrameText frame = false ∧
    (Config.sample P).unpackInbound frame none =
      .ok ⟨hello, some alice.kid, some (js "did:ex:alice"), true, false⟩ := by
  obtain ⟨P, frame, htsp, hunpack⟩ := unpack_hello
  let key : SenderKey := ⟨some alice.kid, some (KeyPair.sample 5).publicJwk⟩
  have hkeys : (Config.sample P).keys (identityOfKid alice.kid) = [key] :=
    if_neg (show ¬ identityOfKid alice.kid = js "did:ex:mediator" by decide)
  have hnamed : key.isNamed (didOfKid alice.kid) alice.kid = true := by decide
  have hkey : senderFor (Config.sample P).keys alice.kid none = .ok key := by
    simp [senderFor, seededKey, keyForSkid, hkeys, hnamed]
  exact ⟨P, frame, htsp, unpackInbound_of_unpack hkey hunpack rfl rfl (by decide)⟩

/-- The sample message is queued. -/
lemma isQueued_hello (P : Platform) : isQueued (Config.sample P)
    ⟨hello, some alice.kid, some (js "did:ex:alice"), true, false⟩ = true :=
  isQueued_iff.mpr ⟨_, rfl, by decide, .inl (show js "did:ex:alice" ≠ js "did:ex:mediator" by decide)⟩

/-- A frame from a seeded sender, an ECDH-ES frame, and a session that delivers the former. -/
theorem sender_authenticated_example :
    (∃ (cfg : Config) (frame : JsString) (r : Unpacked) (skid claimed : JsString),
        r.senderDid = some (js "did:ex:alice") ∧
        Authentic cfg.P cfg.C cfg.recipient cfg.keys frame none r skid claimed) ∧
      (∃ P frame r, unpack P Crypto.sample frame bob none = .ok r ∧ r.senderDid = none) ∧
      ∃ cfg log x s, Lts.Run (LogStep cfg) {} (log ++ [x]) s ∧
        (hello, ⟨js "did:ex:alice", alice.kid⟩) ∈ x.2.delivers ∧ DeliversFrame cfg log x := by
  obtain ⟨P, frame, htsp, hr⟩ := unpackInbound_hello
  obtain ⟨P', frame', halg, hunpack⟩ := unpack_hello_anoncrypt
  have start : Lts.Run (LogStep (Config.sample P)) {} [] {} := .nil _
  have received := start.logs _ (step_receive _ _ htsp)
  have accepted := received.logs _
    (step_unpacked _ (Lts.Threads.phase_start_next _ _) hr (isQueued_hello P))
  have handed := accepted.logs (.hashed 0) rfl
  obtain ⟨authentic, -, delivered⟩ := sender_authenticated P Crypto.sample bob (Config.sample P).keys
  obtain ⟨-, anonymous, -⟩ := sender_authenticated P' Crypto.sample bob (Config.sample P).keys
  obtain ⟨skid, claimed, hauthentic⟩ := authentic _ _ _ hr
  refine ⟨⟨Config.sample P, frame, _, skid, claimed, rfl, hauthentic⟩,
    ⟨P', frame', _, hunpack, (anonymous _ _ _ halg hunpack).2⟩,
    Config.sample P, _, _, _, handed, ?_, (delivered _ _ _ handed).1 _ _ [] rfl⟩
  simp [Event.delivers]

end VtiDidcomm.Session
