import VtiDidcomm.Session.Sender

/-!
# Acks

When a session acks. An ack deletes the mediator's copy of a frame, so it must follow the hand-off
of that frame, or its refusal for good. Handlers ack on the strength of `_seen` too, so what
justifies an ack of a queue id must have happened before the id is in `_seen`.

A frame that cannot be opened is not to be acked, since redelivery may help it; but an error that
`resolveSender` throws with one of the two codes is taken for a refusal of the frame, and acked
(`resolver_error_acked`). Where no such error is thrown for a sender other than the mediator, every
ack is justified: `acks_justified`.
-/

namespace VtiDidcomm.Session
open Js

variable (cfg : Config)

/-- A frame that was decrypted and refused for good, with what `resolveSender` answered, and whose
`skid` does not name the mediator. -/
def RefusedFrame (text : JsString) (resolve : Option ResolveSender) : Prop :=
  isTspFrameText text = false ∧ ∃ err skid key,
    cfg.unpackInbound text resolve = .error err ∧ permanentlyRefused err = true ∧
    peekSkid cfg.P text = some skid ∧ identityOfKid skid ≠ identityOfKid cfg.mediatorDid ∧
    IsKeyOf cfg.keys skid resolve key ∧ Decrypts cfg.P cfg.C text cfg.recipient key.publicJwk

/-- The event, of a step with this input, justifies an ack of the queue id `q`: `_deliver` completed
for a queued message, `onTspFrame` fulfilled, or the frame was refused for good. -/
def Event.Justifies (log : List Entry) (q : JsString) (input : Input) : Event → Prop
  | .completed h text r _ => cfg.sha256Hex text = q ∧ QueuedFrame cfg (GivenTo log h) text r
  | .tspFulfilled _ text => cfg.sha256Hex text = q ∧ TspFrame cfg text
  | .refused h text _ => cfg.sha256Hex text = q ∧
      ∃ resolve, input = .unpacked h resolve ∧ RefusedFrame cfg text resolve
  | _ => False

/-- Something justifies an ack of the queue id `q`. -/
def Justified (log : List Entry) (q : JsString) : Prop := ∃ x ∈ log, x.2.Justifies cfg log q x.1

/-- An ack is justified by an earlier event. -/
def AckSafe (pre : List Entry) (x : Entry) : Prop :=
  ∀ h q marked, x.2 = .acked h q marked → Justified cfg pre q

/-- An error of `resolveSender`, where it is asked for a sender other than the mediator, does not
have one of the two codes. -/
def Honest (s : State) : Input → Prop
  | .unpacked h resolve => ∀ text skid err, s.handlers.phase h = some (.unpacking text) →
    peekSkid cfg.P text = some skid → seededKey cfg.keys skid = none →
    identityOfKid skid ≠ identityOfKid cfg.mediatorDid → Answered skid resolve (.error err) →
    permanentlyRefused err = false
  | _ => True

/-- How a frame was handled: it was delivered, consumed, or refused for good. -/
def Handled (log : List Entry) (text : JsString) : Prop :=
  (∃ input h r queued, (input, .completed h text r queued) ∈ log ∧
      QueuedFrame cfg (GivenTo log h) text r) ∨
    (∃ input h, (input, .tspFulfilled h text) ∈ log ∧ TspFrame cfg text) ∨
    ∃ h resolve report, (.unpacked h resolve, .refused h text report) ∈ log ∧
      RefusedFrame cfg text resolve

/-! ## The invariant -/

/-- The handler is about to ack, and justified to. -/
def Phase.Due (log : List Entry) : Phase → Prop
  | .refusing text => Justified cfg log (cfg.sha256Hex text)
  | .delivered text _ true => Justified cfg log (cfg.sha256Hex text)
  | .tspConsumed text => Justified cfg log (cfg.sha256Hex text)
  | _ => True

/-- What is seen, and what is about to be acked, is justified. -/
structure Acking (s : State) (log : List Entry) : Prop where
  sound : s.handlers.Each fun h p => p.Sound cfg (GivenTo log h)
  due : s.handlers.Each fun _ p => p.Due cfg log
  seen : ∀ q ∈ s.seen.items, Justified cfg log q
  safe : Lts.Guarded (AckSafe cfg) log

/-- Nothing is due at first. -/
lemma acking_init : Acking cfg {} [] where
  sound := Lts.Threads.each_empty _
  due := Lts.Threads.each_empty _
  seen _ hq := nomatch hq
  safe := Lts.guarded_nil

variable {cfg} {s : State} {log : List Entry}

/-- What justifies an ack does so for good. -/
lemma Event.Justifies.append {q : JsString} {input : Input} {e : Event}
    (h : e.Justifies cfg log q input) (log' : List Entry) :
    e.Justifies cfg (log ++ log') q input := by
  cases e with
  | completed => exact ⟨h.1, h.2.imp fun resolve hg => hg.append log'⟩
  | _ => exact h

/-- What is justified stays justified. -/
lemma Justified.snoc {q : JsString} (h : Justified cfg log q) (x : Entry) :
    Justified cfg (log ++ [x]) q :=
  h.imp fun _ ⟨hd, hj⟩ => ⟨List.mem_append_left _ hd, hj.append [x]⟩

/-- The last step justifies an ack. -/
lemma Justified.last {q : JsString} {x : Entry} (h : x.2.Justifies cfg (log ++ [x]) q x.1) :
    Justified cfg (log ++ [x]) q :=
  ⟨x, by simp, h⟩

/-- What a phase owes stays what it is. -/
lemma Phase.Due.snoc {p : Phase} (h : p.Due cfg log) (x : Entry) : p.Due cfg (log ++ [x]) := by
  cases p with
  | refusing => exact Justified.snoc h x
  | tspConsumed => exact Justified.snoc h x
  | delivered text r queued =>
    cases queued with
    | true => exact Justified.snoc h x
    | false => trivial
  | _ => trivial

/-- A frame is refused for good only once it was decrypted, unless `resolveSender` threw. -/
lemma refusedFrame {h : Nat} {text : JsString} {resolve : Option ResolveSender} {err : JsError}
    (hp : s.handlers.phase h = some (.unpacking text)) (htsp : isTspFrameText text = false)
    (herr : cfg.unpackInbound text resolve = .error err) (href : isRefused cfg text err = true)
    (hcond : Honest cfg s (.unpacked h resolve)) : RefusedFrame cfg text resolve := by
  simp only [isRefused, Bool.and_eq_true, decide_eq_true_eq] at href
  obtain ⟨hperm, hother⟩ := href
  obtain ⟨skid, key, hpeek, hkey, hdecrypts⟩ | ⟨skid, hpeek, hseeded, hanswer⟩ :=
    unpackInbound_refused herr hperm
  · rw [hpeek] at hother
    exact ⟨htsp, err, skid, key, herr, hperm, hpeek, hother, hkey, hdecrypts⟩
  · rw [hpeek] at hother
    have hcode := hcond text skid err hp hpeek hseeded hother hanswer
    rw [hperm] at hcode
    cases hcode

section Moves
variable {seen : BoundedSet JsString maxSeen} {mb mb' : Mailbox.State} {h : Nat} {input : Input}
  {p r : Phase} {p' : Option Phase} {e : Event}

/-- A handler that goes on to ack is justified to. -/
lemma Moves.due (hm : Moves cfg seen mb h input p (some r) mb' e)
    (hp : s.handlers.phase h = some p) (hsound : p.Sound cfg (GivenTo log h))
    (hcond : Honest cfg s input) : r.Due cfg (log ++ [(input, e)]) := by
  cases hm with
  | refused report herr href =>
    exact .last ⟨rfl, _, rfl, refusedFrame hp hsound herr href hcond⟩
  | @completed text r queued outcome =>
    cases queued with
    | true => exact .last ⟨rfl, (hsound rfl).imp fun resolve hg => hg.append _⟩
    | false => trivial
  | tspFulfilled => exact .last ⟨rfl, hsound⟩
  | accepted | handed | handedQueued | tspHanded => trivial

/-- A handler acks what it is due to ack, or what was seen. -/
lemma Moves.acked_justified {q : JsString} {marked : Bool}
    (hm : Moves cfg seen mb h input p p' mb' (.acked h q marked)) (hdue : p.Due cfg log)
    (hseen : ∀ q ∈ seen.items, Justified cfg log q) : Justified cfg log q := by
  cases hm with
  | reacked hmem => exact hseen _ hmem
  | tspReacked hmem => exact hseen _ hmem
  | refusedAcked => exact hdue
  | acked => exact hdue
  | tspAcked => exact hdue

/-- Only an ack marks a queue id. -/
lemma Moves.eq_acked {q : JsString} (hm : Moves cfg seen mb h input p p' mb' e) (hq : q ∈ e.marks) :
    e = .acked h q true := by
  cases hm with
  | refusedAcked | acked | tspAcked =>
    cases List.mem_singleton.mp hq
    rfl
  | _ => cases hq

/-- A handler acks in its own name. -/
lemma Moves.acked_self {i : Nat} {q : JsString} {marked : Bool}
    (hm : Moves cfg seen mb h input p p' mb' (.acked i q marked)) : i = h := by
  cases hm <;> rfl

end Moves

namespace Acking
variable (inv : Acking cfg s log)
include inv

/-- A step keeps what is known of the frames, under the answers so far. -/
lemma sound_steps {input : Input} {s' : State} {e : Event} (hs : Steps cfg s input s' e) :
    s'.handlers.Each fun h p => p.Sound cfg (GivenTo (log ++ [(input, e)]) h) := by
  refine hs.sound (fun h resolve heq => ⟨e, by simp [heq]⟩) ?_
  exact inv.sound.imp fun h p hp => hp.imp fun resolve hg => hg.append _

/-- A step without an ack keeps the invariant. -/
lemma idle {s' : State} {x : Entry} (hx : ∀ h q marked, x.2 ≠ .acked h q marked)
    (hseen : s'.seen = s.seen) (sound : s'.handlers.Each fun h p => p.Sound cfg (GivenTo (log ++ [x]) h))
    (due : s'.handlers.Each fun _ p => p.Due cfg (log ++ [x])) : Acking cfg s' (log ++ [x]) where
  sound := sound
  due := due
  seen q hq := (inv.seen q (hseen ▸ hq)).snoc x
  safe := Lts.guarded_snoc.mpr ⟨inv.safe, fun h q marked heq => absurd heq (hx h q marked)⟩

/-- An honest step keeps the invariant. -/
lemma steps {input : Input} {s' : State} {e : Event} (hs : Steps cfg s input s' e)
    (hcond : Honest cfg s input) : Acking cfg s' (log ++ [(input, e)]) := by
  have sound := inv.sound_steps hs
  cases hs with
  | starts hst =>
    refine inv.idle (by cases hst <;> nofun) rfl sound ?_
    apply (inv.due.imp fun _ p hp => hp.snoc _).start
    intro r hr
    subst hr
    cases hst <;> trivial
  | @moves _ h p p' mb _ hp hm =>
    have hdue := inv.due h p hp
    refine ⟨sound, ?_, ?_, ?_⟩
    · apply (inv.due.imp fun _ p hp => hp.snoc _).move
      intro r hr
      subst hr
      exact hm.due hp (inv.sound h p hp) hcond
    · intro q hq
      obtain hq | hq := BoundedSet.of_mem_addAll hq
      · exact (inv.seen q hq).snoc _
      · have heq := hm.eq_acked hq
        subst heq
        exact (hm.acked_justified hdue inv.seen).snoc _
    · refine Lts.guarded_snoc.mpr ⟨inv.safe, ?_⟩
      rintro i q marked rfl
      cases hm.acked_self
      exact hm.acked_justified hdue inv.seen
  | mailbox => exact inv.idle nofun rfl sound (inv.due.imp fun _ p hp => hp.snoc _)

end Acking

/-- Where the queue ids of different frames are different, a justified id is one of a handled frame. -/
lemma handled_of_justified (hinj : Function.Injective cfg.sha256Hex) {text : JsString}
    (h : Justified cfg log (cfg.sha256Hex text)) : Handled cfg log text := by
  obtain ⟨⟨input, e⟩, hd, hj⟩ := h
  cases e with
  | completed h text' r queued =>
    obtain ⟨hq, hframe⟩ := hj
    cases hinj hq
    exact .inl ⟨input, h, r, queued, hd, hframe⟩
  | tspFulfilled h text' =>
    obtain ⟨hq, hframe⟩ := hj
    cases hinj hq
    exact .inr (.inl ⟨input, h, hd, hframe⟩)
  | refused h text' report =>
    obtain ⟨hq, resolve, rfl, hframe⟩ := hj
    cases hinj hq
    exact .inr (.inr ⟨h, resolve, report, hd, hframe⟩)
  | _ => exact hj.elim

/-- A frame of the mediator's that was handled is its stored reply. -/
lemma Handled.stored {text skid : JsString} (h : Handled cfg log text)
    (htsp : isTspFrameText text = false) (hpeek : peekSkid cfg.P text = some skid)
    (hmediator : identityOfKid skid = identityOfKid cfg.mediatorDid) :
    ∃ h resolve r, GivenTo log h resolve ∧ cfg.unpackInbound text resolve = .ok r ∧
      isStoredMediatorReply r.message = true := by
  obtain ⟨-, h, r, -, -, hframe⟩ | ⟨-, -, -, hframe⟩ | ⟨-, resolve, -, -, hframe⟩ := h
  · obtain ⟨resolve, hgiven, hr⟩ := hframe.unpacked
    obtain ⟨skid', claimed, hauthentic⟩ := unpackInbound_authentic hr
    obtain rfl : skid = skid' := Option.some.inj (hpeek.symm.trans hauthentic.peek)
    obtain ⟨did, hdid, hother | hstored⟩ := hframe.sender
    · rw [hauthentic.senderDid, Option.some.injEq] at hdid
      exact absurd (hdid.symm.trans hmediator) hother
    · exact ⟨h, resolve, r, hgiven, hr, hstored⟩
  · exact absurd (hframe.tsp.symm.trans htsp) (by decide)
  · obtain ⟨-, -, skid', -, -, -, hpeek', hother, -⟩ := hframe
    obtain rfl : skid = skid' := Option.some.inj (hpeek.symm.trans hpeek')
    exact absurd hmediator hother

/-- Ack safety, where `resolveSender` does not throw the two codes. Every ack comes after what
justifies it. Where the queue ids of different frames are different, an acked frame was delivered,
consumed, or refused for good; and an acked frame of the mediator's is its stored reply. -/
theorem acks_justified (cfg : Config) {log : List Entry} {s : State}
    (r : Lts.Run (Lts.DoesIf (Lts.logged (step cfg)) (Honest cfg)) {} log s) :
    Lts.Guarded (AckSafe cfg) log ∧
    (Function.Injective cfg.sha256Hex →
      ∀ input h text marked, (input, .acked h (cfg.sha256Hex text) marked) ∈ log →
        Handled cfg log text ∧
        ∀ skid, isTspFrameText text = false → peekSkid cfg.P text = some skid →
          identityOfKid skid = identityOfKid cfg.mediatorDid →
          ∃ h resolve r, GivenTo log h resolve ∧ cfg.unpackInbound text resolve = .ok r ∧
            isStoredMediatorReply r.message = true) := by
  have inv : Acking cfg s log := by
    refine r.invariant (acking_init cfg) fun inv hs => ?_
    obtain ⟨input, ⟨_, e⟩, hcond, hstep, rfl⟩ := hs
    obtain ⟨rfl, hstep⟩ := Lts.logged_eq_some.mp hstep
    exact inv.steps (steps_of_step hstep) hcond
  refine ⟨inv.safe, fun hinj input h text marked hmem => ?_⟩
  obtain ⟨pre, post, rfl⟩ := List.append_of_mem hmem
  have hjustified := inv.safe pre _ post rfl h _ marked rfl
  obtain ⟨x, hx, hj⟩ := hjustified
  have handled : Handled cfg (pre ++ (input, .acked h (cfg.sha256Hex text) marked) :: post) text :=
    handled_of_justified hinj ⟨x, List.mem_append_left _ hx, hj.append _⟩
  exact ⟨handled, fun skid htsp hpeek hmediator => handled.stored htsp hpeek hmediator⟩

/-! ## Runs -/

/-- A frame is received, consumed and acked. -/
theorem acks_justified_example :
    ∃ log s, Lts.Run (Lts.DoesIf (Lts.logged (step .tsp)) (Honest .tsp)) {} log s ∧
      (.resumed 0, .acked 0 (Config.tsp.sha256Hex tspFrame) true) ∈ log ∧
      Handled .tsp log tspFrame := by
  have r₀ : Lts.Run (Lts.DoesIf (Lts.logged (step .tsp)) (Honest .tsp)) {} [] {} := .nil _
  have r₁ := r₀.snoc ⟨.receive (.text tspFrame), (_, .received 0 tspFrame), trivial, rfl, rfl⟩
  have r₂ := r₁.snoc ⟨.hashed 0, (_, .tspHanded 0 tspFrame [0xf8, 0x40, 0x00]), trivial, rfl, rfl⟩
  have r₃ := r₂.snoc ⟨.settled 0 (.ok ()), (_, .tspFulfilled 0 tspFrame), trivial, rfl, rfl⟩
  have r₄ := r₃.snoc ⟨.resumed 0, (_, .acked 0 tspFrame true), trivial, rfl, rfl⟩
  obtain ⟨-, handled⟩ := acks_justified .tsp r₄
  refine ⟨_, _, r₄, ?_, (handled (fun _ _ h => h) (.resumed 0) 0 tspFrame true ?_).1⟩
  · exact List.mem_append_right _ (List.mem_singleton_self _)
  · exact List.mem_append_right _ (List.mem_singleton_self _)

/-- The header of a frame from a sender without a seeded key. -/
def carolHeader : Json := .obj [(js "skid", .str (js "did:ex:carol#1"))]

/-- A frame with that header, and nothing to decrypt. -/
def carolJwe : Json := .obj [(js "protected", .str (protectedB64 carolHeader))]

/-- A session that is sent that frame. -/
def Config.carol : Config := Config.sample (VtiDidcomm.Platform.reading [carolJwe, carolHeader])

/-- `resolveSender` throws an error with the code of a refused frame. -/
def mismatch : JsError := { error (js "mismatch") with code := some eSenderMismatch }

/-- The `skid` of the sample frame. -/
lemma peekSkid_carol :
    peekSkid Config.carol.P (Json.stringify carolJwe) = some (js "did:ex:carol#1") := by
  decide

/-- The sample resolver's error is what the frame fails with. -/
lemma unpackInbound_carol :
    Config.carol.unpackInbound (Json.stringify carolJwe) (some fun _ _ => .error mismatch) =
      .error mismatch := by
  have hseeded : seededKey Config.carol.keys (js "did:ex:carol#1") = none :=
    Option.isNone_iff_eq_none.mp (by decide)
  have hkey : senderFor Config.carol.keys (js "did:ex:carol#1") (some fun _ _ => .error mismatch) =
      .error mismatch := by
    simp [senderFor, hseeded]
  rw [Config.unpackInbound, unpackInbound, peekSkid_carol]
  show (senderFor Config.carol.keys (js "did:ex:carol#1") _ >>= _) = _
  rw [hkey]
  rfl

/-- The sample frame decrypts for nobody. -/
lemma not_decrypts_carol (recipient : Recipient) (sender : Option Json) :
    ¬ Decrypts Config.carol.P Config.carol.C (Json.stringify carolJwe) recipient sender := by
  rintro ⟨o, k, cek, legacy, message, hopen, -⟩
  obtain ⟨jwe, recipients, alg, hread, -⟩ := openJwe_eq_ok hopen
  obtain ⟨jwe', hjwe, hread⟩ := bind_eq_ok.mp hread
  obtain ⟨recipients', hshape, -⟩ := bind_eq_ok.mp hread
  have hparse : Parses Config.carol.P carolJwe := by
    simp [Parses, Config.carol, Config.sample, Platform.reading]
  cases (parseOr_eq_ok hjwe).symm.trans hparse
  cases hshape

/-- An error of `resolveSender` with the code of a refused frame has the frame acked, although it
cannot be opened. -/
theorem resolver_error_acked :
    ¬ ∀ log s, Lts.Run (LogStep .carol) {} log s → Lts.Guarded (AckSafe .carol) log := by
  intro h
  let frame := Json.stringify carolJwe
  have href : isRefused .carol frame mismatch = true := by
    rw [isRefused, peekSkid_carol]
    decide
  have start : Lts.Run (LogStep .carol) {} [] {} := .nil _
  have received := start.logs _ (step_receive _ _ (show isTspFrameText frame = false from rfl))
  have refused := received.logs _
    (step_refused _ (Lts.Threads.phase_start_next _ _) unpackInbound_carol href)
  have acked := refused.logs (.hashed 0) rfl
  obtain ⟨x, hx, hj⟩ := h _ _ acked _ _ [] rfl _ _ _ rfl
  simp only [List.nil_append, List.mem_append, List.mem_singleton] at hx
  obtain rfl | rfl := hx
  · exact hj
  · obtain ⟨-, resolve, -, -, err, skid, key, -, -, -, -, -, hdecrypts⟩ := hj
    exact not_decrypts_carol _ _ hdecrypts

end VtiDidcomm.Session
