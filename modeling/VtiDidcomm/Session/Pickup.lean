import VtiDidcomm.Client.Packed
import VtiDidcomm.Session.Ack

/-!
# Message pickup

A client's sessions and the mediator's queue together. An ack of the client is a `messages-received`
that lists a queue id (`buildMessagesReceived`, `_ackReceived`). It may be lost, come late or twice,
and a session may be torn down at any point, with its handlers and its `_seen`.

The mediator is not part of this repository: `Mediator` is a parameter, and `KeepsQueue` is what the
client counts on, that a stored frame stays until an ack lists its queue id and is deleted then.

`Invariant` says that what is on its way to the mediator only lists ids that are justified, in runs
that are `Fair`: an error of `resolveSender` does not pass for a refusal of the frame, and what a
client draws has its form. `stored_or_handled` is what it gives, and `drains` that a stored frame can
always be got rid of by handling it.
-/

namespace VtiDidcomm.Pickup
open Js Session

/-- `MESSAGES_RECEIVED_TYPE` -/
def messagesReceivedType : JsString :=
  js "https://didcomm.org/messagepickup/3.0/messages-received"

/-- `buildMessagesReceived` -/
def buildMessagesReceived (draw : Draw) (from' mediatorDid : JsString) (messageIds : List JsString) :
    Json :=
  .obj [(js "id", draw.id), (js "typ", typPlain), (js "type", .str messagesReceivedType),
    (js "from", .str from'), (js "to", .arr [.str mediatorDid]),
    (js "created_time", jsonNat draw.now), (js "expires_time", jsonNat (draw.now + 300)),
    (js "return_route", .str (js "all")),
    (js "body", .obj [(js "message_id_list", .arr (messageIds.map .str))])]

/-- A client's sessions, and what the mediator opens the client's frames with. -/
structure Setup where
  session : Session.Config
  client : Client
  mediatorKey : AgreementKey
  recipient : Recipient
  clientJwk : Json

/-- A mediator: the frames it has stored for the client, and what a new frame and an ack do to
them. -/
structure Mediator where
  Queue : Type
  empty : Queue
  stored : Queue → List JsString
  store : Queue → JsString → Queue
  collect : Queue → JsString → Queue

/-- The mediator's queue, the sessions, and the acks on their way. -/
structure State (M : Mediator) where
  session : Session.State := {}
  queue : M.Queue := M.empty
  wire : List JsString := []

/-- What happens. -/
inductive Input where
  /-- The mediator stores a frame. -/
  | store (text : JsString)
  /-- A step of the session; an ack of it is sent with what `draw` draws, or not at all. -/
  | session (input : Session.Input) (draw : Option Draw)
  /-- An ack reaches the mediator. -/
  | collect (frame : JsString)
  /-- The host tears the session down, and a new one starts. -/
  | restart

/-- What a step shows. -/
inductive Event where
  | stored (text : JsString)
  | session (x : Session.Entry)
  | collected (frame : JsString)
  | restarted

variable (S : Setup) (M : Mediator)

/-- `_ackReceived`: the frame it sends. -/
def ackReceived (draw : Draw) (ids : List JsString) : Option JsString :=
  if ids = [] then none
  else
    (packTo S.session.C draw S.client
      (buildMessagesReceived draw S.client.did S.session.mediatorDid ids) S.mediatorKey).toOption

/-- The acks an event sends. -/
def sends (draw : Option Draw) : Session.Event → List JsString
  | .acked _ queueId _ => (draw.bind fun draw => ackReceived S draw [queueId]).toList
  | _ => []

/-- One step. -/
def step (s : State M) : Input → Option (State M × Event)
  | .store text => some ({ s with queue := M.store s.queue text }, .stored text)
  | .session input draw =>
    (Lts.logged (Session.step S.session) s.session input).map fun r =>
      ({ s with session := r.1, wire := s.wire ++ sends S draw r.2.2 }, .session r.2)
  | .collect frame =>
    if frame ∈ s.wire then some ({ s with queue := M.collect s.queue frame }, .collected frame)
    else none
  | .restart => some ({ s with session := {} }, .restarted)

/-- What the sessions did. -/
def sessionLog (tr : List Event) : List Session.Entry :=
  tr.filterMap fun
    | .session x => some x
    | _ => none

/-! ## Acks on the wire -/

/-- A frame opens as a `messages-received` of the client that lists these ids. -/
def Reports (frame : JsString) (ids : List JsString) : Prop :=
  ∃ r, unpack S.session.P S.session.C frame S.recipient (some S.clientJwk) = .ok r ∧
    r.senderDid = some (identityOfKid S.client.did) ∧
    r.message.get (js "type") = some (.str messagesReceivedType) ∧
    (r.message.get (js "body")).bind (·.get (js "message_id_list")) = some (.arr (ids.map .str))

/-- What message-pickup asks of a mediator that stores a frame under the SHA-256 of its text: the
frame stays until an ack of the client lists that id, and is deleted then. -/
structure Mediator.KeepsQueue : Prop where
  stores : ∀ q text, text ∈ M.stored (M.store q text)
  keeps : ∀ q text other, other ∈ M.stored q → other ∈ M.stored (M.store q text)
  deletes : ∀ q frame ids text, Reports S frame ids → S.session.sha256Hex text ∈ ids →
    text ∉ M.stored (M.collect q frame)
  spares : ∀ q frame ids text, Reports S frame ids → S.session.sha256Hex text ∉ ids →
    text ∈ M.stored q → text ∈ M.stored (M.collect q frame)

variable (number : List UInt8 → List UInt8)

/-- The mediator has the private key of the key the client packs for, and the client's key. -/
structure Setup.Paired : Prop where
  reads : S.session.P.ReadsJson number
  lawful : S.session.C.Lawful
  keys : ∃ client mediator : KeyPair S.session.C .x25519,
    S.client.Holds client ∧ S.mediatorKey.IsOf mediator ∧
    S.recipient = ⟨S.mediatorKey.kidText, some mediator.privateJwk⟩ ∧ S.clientJwk = client.publicJwk

variable {S M number}

/-- An ack is a message that JSON keeps. -/
lemma plain_messagesReceived {draw : Draw} (h : draw.Ready S.session.C number)
    (from' mediatorDid : JsString) (ids : List JsString) :
    Json.Plain number (buildMessagesReceived draw from' mediatorDid ids) := by
  have hto : Json.Plain number (.arr [.str mediatorDid]) := .arr (by simp [Json.Plain.str])
  have hids : Json.Plain number (.arr (ids.map .str)) := by
    refine .arr fun j hj => ?_
    obtain ⟨id, -, rfl⟩ := List.mem_map.mp hj
    exact .str id
  have hbody : Json.Plain number (.obj [(js "message_id_list", .arr (ids.map .str))]) :=
    .of_names [js "message_id_list"] rfl (by decide) (by simp [hids])
  refine .of_names [js "id", js "typ", js "type", js "from", js "to", js "created_time",
    js "expires_time", js "return_route", js "body"] rfl (by decide) ?_
  simp [Json.Plain.str, Draw.id, typPlain, hto, hbody, h.created, h.expires]

/-- An ack reports to the mediator the ids that it is made for. -/
lemma reports_ackReceived (hS : S.Paired number) {draw : Draw}
    (hdraw : draw.Ready S.session.C number) {ids : List JsString} (hids : ids ≠ []) :
    ∃ frame, ackReceived S draw ids = some frame ∧ Reports S frame ids := by
  obtain ⟨client, mediator, hclient, hmediator, hrecipient, hjwk⟩ := hS.keys
  obtain ⟨jwe, -, -, hpack, hopens⟩ := packTo_opens hS.reads hS.lawful hdraw.fresh hclient hmediator rfl
    (plain_messagesReceived hdraw S.client.did S.session.mediatorDid ids)
  refine ⟨Json.stringify jwe, ?_, ?_⟩
  · rw [ackReceived, if_neg hids]
    rw [show packTo S.session.C draw S.client
      (buildMessagesReceived draw S.client.did S.session.mediatorDid ids) S.mediatorKey = _ from hpack]
    rfl
  · have hidentity : identityOfKid S.client.kid = identityOfKid S.client.did :=
      hclient.speaks.identity.symm
    rw [Reports, hrecipient, hjwk]
    exact ⟨_, hopens, congrArg some hidentity, rfl, rfl⟩

/-- An ack that is sent reports the id that was acked. -/
lemma reports_of_sends (hS : S.Paired number) {draw : Option Draw}
    (hdraw : ∀ d ∈ draw, d.Ready S.session.C number) {e : Session.Event} {frame : JsString}
    (h : frame ∈ sends S draw e) : ∃ i q marked, e = .acked i q marked ∧ Reports S frame [q] := by
  cases e with
  | acked i q marked =>
    cases draw with
    | none => cases h
    | some d =>
      obtain ⟨frame', hack, hreports⟩ := reports_ackReceived hS (hdraw d rfl) (List.cons_ne_nil q [])
      have hframe : frame = frame' := by
        simpa [sends, hack] using h
      exact ⟨i, q, marked, rfl, hframe ▸ hreports⟩
  | _ => cases h

/-! ## The invariant -/

variable (S M number) in
/-- No error of `resolveSender` passes for a refusal, and what is drawn has its form. -/
def Fair (s : State M) : Input → Prop
  | .session input draw => Honest S.session s.session input ∧ ∀ d ∈ draw, d.Ready S.session.C number
  | _ => True

/-- A frame of this queue id was delivered, consumed, or refused for good. -/
def Done (cfg : Session.Config) (log : List Session.Entry) (text : JsString) : Prop :=
  ∃ text', cfg.sha256Hex text' = cfg.sha256Hex text ∧ Handled cfg log text'

/-- What justifies an ack is that a frame was handled. -/
lemma done_of_justified {cfg : Session.Config} {log : List Session.Entry} {text : JsString}
    (h : Justified cfg log (cfg.sha256Hex text)) : Done cfg log text := by
  obtain ⟨⟨input, e⟩, hd, hj⟩ := h
  cases e with
  | completed h text' r queued => exact ⟨text', hj.1, .inl ⟨input, h, r, queued, hd, hj.2⟩⟩
  | tspFulfilled h text' => exact ⟨text', hj.1, .inr (.inl ⟨input, h, hd, hj.2⟩)⟩
  | refused h text' report =>
    obtain ⟨hq, resolve, rfl, hframe⟩ := hj
    exact ⟨text', hq, .inr (.inr ⟨h, resolve, report, hd, hframe⟩)⟩
  | _ => exact hj.elim

variable (S M) in
/-- What is acked is justified: by the session, and by every ack on its way. -/
structure Invariant (s : State M) (tr : List Event) : Prop where
  acking : Acking S.session s.session (sessionLog tr)
  wire : ∀ frame ∈ s.wire, ∃ q, Reports S frame [q] ∧ Justified S.session (sessionLog tr) q
  kept : ∀ text, .stored text ∈ tr →
    text ∈ M.stored s.queue ∨ Justified S.session (sessionLog tr) (S.session.sha256Hex text)

/-- Nothing is stored at first. -/
lemma invariant_init : Invariant S M {} [] where
  acking := acking_init S.session
  wire _ h := nomatch h
  kept _ h := nomatch h

/-- A session's step is logged last. -/
lemma sessionLog_snoc (tr : List Event) (x : Session.Entry) :
    sessionLog (tr ++ [.session x]) = sessionLog tr ++ [x] := by
  simp [sessionLog]

/-- Other steps are not logged. -/
lemma sessionLog_idle (tr : List Event) {e : Event} (h : ∀ x, e ≠ .session x) :
    sessionLog (tr ++ [e]) = sessionLog tr := by
  cases e with
  | session x => exact absurd rfl (h x)
  | _ => simp [sessionLog]

/-- A step that stores nothing adds no stored frame. -/
lemma stored_of_snoc {tr : List Event} {e : Event} {text : JsString} (h : ∀ text, e ≠ .stored text)
    (hmem : .stored text ∈ tr ++ [e]) : .stored text ∈ tr := by
  rcases List.mem_append.mp hmem with hmem | hmem
  · exact hmem
  · exact absurd (List.mem_singleton.mp hmem).symm (h text)

namespace Invariant
variable {s : State M} {tr : List Event} (inv : Invariant S M s tr)
include inv

/-- A step of the session keeps the invariant. -/
lemma session (hS : S.Paired number) {input : Session.Input} {draw : Option Draw}
    {session : Session.State} {e : Session.Event} (hcond : Fair S M number s (.session input draw))
    (hs : Session.step S.session s.session input = some (session, e)) :
    Invariant S M { s with session, wire := s.wire ++ sends S draw e }
      (tr ++ [.session (input, e)]) := by
  have acking := inv.acking.steps (steps_of_step hs) hcond.1
  have safe := Lts.guarded_snoc.mp acking.safe
  refine ⟨?_, ?_, ?_⟩
  · rw [sessionLog_snoc]
    exact acking
  · intro frame hframe
    rw [sessionLog_snoc]
    rcases List.mem_append.mp hframe with hframe | hframe
    · obtain ⟨q, hreports, hq⟩ := inv.wire frame hframe
      exact ⟨q, hreports, hq.snoc _⟩
    · obtain ⟨i, q, marked, rfl, hreports⟩ := reports_of_sends hS hcond.2 hframe
      exact ⟨q, hreports, (safe.2 i q marked rfl).snoc _⟩
  · intro text htext
    rw [sessionLog_snoc]
    exact (inv.kept text (stored_of_snoc (by simp) htext)).imp id fun h => h.snoc _

/-- A frame that is stored is kept, with those before it. -/
lemma store (hM : M.KeepsQueue S) (text : JsString) :
    Invariant S M { s with queue := M.store s.queue text } (tr ++ [.stored text]) := by
  have hlog : sessionLog (tr ++ [.stored text]) = sessionLog tr := sessionLog_idle tr (by simp)
  refine ⟨hlog ▸ inv.acking, hlog ▸ inv.wire, fun text' htext => ?_⟩
  rw [hlog]
  rcases List.mem_append.mp htext with htext | htext
  · exact (inv.kept text' htext).imp (hM.keeps s.queue text text') id
  · cases List.mem_singleton.mp htext
    exact .inl (hM.stores s.queue text)

/-- An ack that arrives deletes only what is justified. -/
lemma collect (hM : M.KeepsQueue S) {frame : JsString} (hframe : frame ∈ s.wire) :
    Invariant S M { s with queue := M.collect s.queue frame } (tr ++ [.collected frame]) := by
  have hlog : sessionLog (tr ++ [.collected frame]) = sessionLog tr := sessionLog_idle tr (by simp)
  obtain ⟨q, hreports, hq⟩ := inv.wire frame hframe
  refine ⟨hlog ▸ inv.acking, hlog ▸ inv.wire, fun text htext => ?_⟩
  rw [hlog]
  by_cases hid : S.session.sha256Hex text ∈ [q]
  · rw [List.mem_singleton.mp hid]
    exact .inr hq
  · exact (inv.kept text (stored_of_snoc (by simp) htext)).imp (hM.spares _ frame _ text hreports hid)
      id

/-- A new session has seen nothing, and is about to ack nothing. -/
lemma restart : Invariant S M { s with session := {} } (tr ++ [.restarted]) := by
  have hlog : sessionLog (tr ++ [.restarted]) = sessionLog tr := sessionLog_idle tr (by simp)
  refine ⟨?_, hlog ▸ inv.wire, fun text htext => ?_⟩
  · rw [hlog]
    exact
      { sound := Lts.Threads.each_empty _
        due := Lts.Threads.each_empty _
        seen := fun q hq => nomatch hq
        safe := inv.acking.safe }
  · rw [hlog]
    exact inv.kept text (stored_of_snoc (by simp) htext)

end Invariant

/-- The invariant holds after every fair run. -/
lemma invariant_of_run (hS : S.Paired number) (hM : M.KeepsQueue S) {tr : List Event} {s : State M}
    (r : Lts.Run (Lts.DoesIf (step S M) (Fair S M number)) {} tr s) : Invariant S M s tr := by
  refine r.invariant invariant_init fun inv hs => ?_
  obtain ⟨input, e, hcond, hstep, rfl⟩ := hs
  cases input with
  | store text =>
    cases hstep
    exact inv.store hM text
  | session input draw =>
    obtain ⟨⟨session, x⟩, hlogged, heq⟩ := Option.map_eq_some_iff.mp hstep
    obtain ⟨rfl, hsession⟩ := Lts.logged_eq_some.mp hlogged
    cases heq
    exact inv.session hS hcond hsession
  | collect frame =>
    simp only [step] at hstep
    split at hstep
    · rename_i hframe
      cases hstep
      exact inv.collect hM hframe
    · cases hstep
  | restart =>
    cases hstep
    exact inv.restart

/-- No message is lost, for any mediator that keeps its queue and in every `Fair` run. Whatever order
the frames, the acks and the restarts come in, a frame the mediator stored is still stored, or a frame
of its queue id was delivered, consumed or refused for good. -/
theorem stored_or_handled (hS : S.Paired number) (hM : M.KeepsQueue S) {tr : List Event} {s : State M}
    (r : Lts.Run (Lts.DoesIf (step S M) (Fair S M number)) {} tr s) {text : JsString}
    (h : .stored text ∈ tr) : text ∈ M.stored s.queue ∨ Done S.session (sessionLog tr) text :=
  ((invariant_of_run hS hM r).kept text h).imp id done_of_justified

/-! ## Handling what is stored -/

/-- What `resolveSender` answers for a frame is no error that passes for a refusal. -/
def HonestFor (cfg : Session.Config) (text : JsString) (resolve : Option ResolveSender) : Prop :=
  ∀ skid err, peekSkid cfg.P text = some skid → seededKey cfg.keys skid = none →
    identityOfKid skid ≠ identityOfKid cfg.mediatorDid → Answered skid resolve (.error err) →
    permanentlyRefused err = false

/-- A frame a session can handle to its end: a queued message that opens, a frame it refuses for
good, or a TSP frame that decodes and has a consumer. -/
inductive Handleable (cfg : Session.Config) (text : JsString) : Prop where
  | message {resolve r} : isTspFrameText text = false → cfg.unpackInbound text resolve = .ok r →
    isQueued cfg r = true → Handleable cfg text
  | refused {resolve err} : isTspFrameText text = false →
    cfg.unpackInbound text resolve = .error err → isRefused cfg text err = true →
    HonestFor cfg text resolve → Handleable cfg text
  | tsp {qb2} : isTspFrameText text = true → Base64url.decodeText text = .ok qb2 →
    cfg.hasOnTspFrame = true → Handleable cfg text

/-- Some steps of the session lead to an ack of the frame. -/
def Acks (cfg : Session.Config) (s : Session.State) (text : JsString) : Prop :=
  ∃ log s₁ input s₂ h marked,
    Lts.Run (Lts.DoesIf (Lts.logged (Session.step cfg)) (Honest cfg)) s log s₁ ∧ Honest cfg s₁ input ∧
    Session.step cfg s₁ input = some (s₂, .acked h (cfg.sha256Hex text) marked)

section Acks
variable {cfg : Session.Config} {s s' : Session.State} {text : JsString} {h : Nat}

/-- The last step acks. -/
lemma Acks.last {s₂ : Session.State} {input : Session.Input} {marked : Bool}
    (hs : Session.step cfg s input = some (s₂, .acked h (cfg.sha256Hex text) marked))
    (hcond : Honest cfg s input) : Acks cfg s text :=
  ⟨[], s, input, s₂, h, marked, .nil s, hcond, hs⟩

/-- A step before those that lead to an ack. -/
lemma Acks.before {input : Session.Input} {e : Session.Event}
    (hs : Session.step cfg s input = some (s', e)) (hcond : Honest cfg s input)
    (hacks : Acks cfg s' text) : Acks cfg s text := by
  obtain ⟨log, s₁, input', s₂, i, marked, r, hlast⟩ := hacks
  have first : Lts.Run (Lts.DoesIf (Lts.logged (Session.step cfg)) (Honest cfg)) s
      ([] ++ [(input, e)]) s' :=
    .snoc (.nil s) ⟨input, _, hcond, Lts.logged_eq_some.mpr ⟨rfl, hs⟩, rfl⟩
  exact ⟨_, s₁, input', s₂, i, marked, first.trans r, hlast⟩

/-- A handler that has delivered a queued message acks it. -/
lemma acks_delivered {r : Unpacked} (hp : s.handlers.phase h = some (.delivered text r true)) :
    Acks cfg s text := by
  have hs : Session.step cfg s (.resumed h) = some (markAndAck s h (cfg.sha256Hex text)) := by
    simp [Session.step, hp, afterHandoff]
  exact .last hs trivial

/-- A handler that is delivering a queued message acks it. -/
lemma acks_delivering {r : Unpacked} (hp : s.handlers.phase h = some (.delivering text r true)) :
    Acks cfg s text := by
  have hs : Session.step cfg s (.settled h (.ok ())) =
      some (s.goto h (some (.delivered text r true)), .completed h text r true) := by
    simp [Session.step, hp, afterConsumer]
  exact .before hs trivial (acks_delivered (Lts.Threads.phase_move_self hp _))

/-- A queued message is acked at once when it was seen, and else after it was delivered. -/
lemma acks_hashing {r : Unpacked} {did kid : JsString}
    (hp : s.handlers.phase h = some (.hashing text r)) (hdid : r.senderDid = some did)
    (hkid : r.senderKid = some kid) : Acks cfg s text := by
  by_cases hseen : s.seen.has (cfg.sha256Hex text) = true
  · have hs : Session.step cfg s (.hashed h) =
        some (s.goto h none, .acked h (cfg.sha256Hex text) false) := by
      simp [Session.step, hp, afterHash, hseen]
    exact .last hs trivial
  · have hs : Session.step cfg s (.hashed h) = some (deliver cfg s h text r true) := by
      simp [Session.step, hp, afterHash, hseen]
    refine .before hs trivial (acks_delivering (r := r) (h := h) ?_)
    simp only [hdid, hkid]
    exact Lts.Threads.phase_move_self hp _

/-- A handler that has refused a frame acks it. -/
lemma acks_refusing (hp : s.handlers.phase h = some (.refusing text)) : Acks cfg s text := by
  have hs : Session.step cfg s (.hashed h) = some (markAndAck s h (cfg.sha256Hex text)) := by
    simp [Session.step, hp, afterHash]
  exact .last hs trivial

/-- A handler whose TSP frame was consumed acks it. -/
lemma acks_tspConsumed (hp : s.handlers.phase h = some (.tspConsumed text)) : Acks cfg s text := by
  have hs : Session.step cfg s (.resumed h) = some (markAndAck s h (cfg.sha256Hex text)) := by
    simp [Session.step, hp, afterHandoff]
  exact .last hs trivial

/-- A handler that has hashed a TSP frame acks it. -/
lemma acks_tspHashing {qb2 : Bytes} (hp : s.handlers.phase h = some (.tspHashing text qb2)) :
    Acks cfg s text := by
  by_cases hseen : s.seen.has (cfg.sha256Hex text) = true
  · have hs : Session.step cfg s (.hashed h) =
        some (s.goto h none, .acked h (cfg.sha256Hex text) false) := by
      simp [Session.step, hp, afterHash, hseen]
    exact .last hs trivial
  · have hs : Session.step cfg s (.hashed h) =
        some (s.goto h (some (.tspConsuming text)), .tspHanded h text qb2) := by
      simp [Session.step, hp, afterHash, hseen]
    have hconsuming := Lts.Threads.phase_move_self hp (some (.tspConsuming text))
    have hs' : Session.step cfg (s.goto h (some (.tspConsuming text))) (.settled h (.ok ())) =
        some ((s.goto h (some (.tspConsuming text))).goto h (some (.tspConsumed text)),
          .tspFulfilled h text) := by
      simp [Session.step, State.goto, hconsuming, afterConsumer]
    exact .before hs trivial
      (.before hs' trivial (acks_tspConsumed (Lts.Threads.phase_move_self hconsuming _)))

/-- The answer of `resolveSender` that a frame opened with is no error. -/
lemma honestFor_of_ok {resolve : Option ResolveSender} {r : Unpacked}
    (hr : cfg.unpackInbound text resolve = .ok r) : HonestFor cfg text resolve := by
  rintro skid err hpeek hseeded - ⟨f, rfl, hf⟩
  obtain ⟨skid', claimed, hauthentic⟩ := unpackInbound_authentic hr
  obtain rfl : skid = skid' := Option.some.inj (hpeek.symm.trans hauthentic.peek)
  rw [Config.unpackInbound, unpackInbound, hpeek] at hr
  cases skid with
  | nil => cases hr
  | cons c skid =>
    obtain ⟨key, hkey, -⟩ := bind_eq_ok.mp hr
    simp only [senderFor, hseeded, hf] at hkey
    cases hkey

/-- A fair unpacking is an honest step. -/
lemma honest_unpacked {resolve : Option ResolveSender}
    (hp : s.handlers.phase h = some (.unpacking text)) (hf : HonestFor cfg text resolve) :
    Honest cfg s (.unpacked h resolve) := by
  intro text' skid err hp'
  rw [hp] at hp'
  cases hp'
  exact hf skid err

/-- Whatever state a session is in, a frame it can handle to its end can be acked. -/
lemma acks_of_handleable (hd : Handleable cfg text) (s : Session.State) : Acks cfg s text := by
  cases hd with
  | @message resolve r htsp hr hq =>
    have hreceived := step_receive cfg s htsp
    have hp := Lts.Threads.phase_start_next s.handlers (some (.unpacking text))
    have hunpacked := step_unpacked cfg (s := { s with handlers := s.handlers.start _ }) hp hr hq
    obtain ⟨skid, claimed, hauthentic⟩ := unpackInbound_authentic hr
    exact .before hreceived trivial (.before hunpacked
      (honest_unpacked hp (honestFor_of_ok hr))
      (acks_hashing (Lts.Threads.phase_move_self hp _) hauthentic.senderDid hauthentic.senderKid))
  | @refused resolve err htsp herr href hf =>
    have hreceived := step_receive cfg s htsp
    have hp := Lts.Threads.phase_start_next s.handlers (some (.unpacking text))
    have hrefused := step_refused cfg (s := { s with handlers := s.handlers.start _ }) hp herr href
    exact .before hreceived trivial (.before hrefused (honest_unpacked hp hf)
      (acks_refusing (Lts.Threads.phase_move_self hp _)))
  | @tsp qb2 htsp hdecode hconsumer =>
    have hreceived : Session.step cfg s (.receive (.text text)) =
        some ({ s with handlers := s.handlers.start (some (.tspHashing text qb2)) },
          .received s.handlers.next text) := by
      simp [Session.step, onFrame, frameText, htsp, hdecode, hconsumer]
    exact .before hreceived trivial
      (acks_tspHashing (Lts.Threads.phase_start_next s.handlers (some (.tspHashing text qb2))))

end Acks

/-- A client that does not ack sends nothing. -/
lemma sends_none (e : Session.Event) : sends S none e = [] := by
  cases e <;> rfl

/-- The steps of the session, none of whose acks is sent, are steps of the whole. -/
lemma run_of_session {session session' : Session.State} {log : List Session.Entry}
    (r : Lts.Run (Lts.DoesIf (Lts.logged (Session.step S.session)) (Honest S.session)) session log
      session') (queue : M.Queue) (wire : List JsString) :
    Lts.Run (Lts.DoesIf (step S M) (Fair S M number)) ⟨session, queue, wire⟩ (log.map .session)
      ⟨session', queue, wire⟩ := by
  induction r with
  | nil => exact .nil _
  | snoc _ hs ih =>
    obtain ⟨input, x, hcond, hstep, rfl⟩ := hs
    rw [List.map_append]
    refine .snoc ih ⟨.session input none, .session x, ⟨hcond, by simp⟩, ?_, rfl⟩
    simp only [step, hstep, Option.map_some, sends_none, List.append_nil]

/-- A stored frame that can be handled can be got rid of, with any mediator that keeps its queue:
from every state that a `Fair` run reaches some steps, again `Fair`, lead to one where the frame is no
longer stored, and a frame of its queue id was handled. Frames of other queue ids stay. -/
theorem drains (hS : S.Paired number) (hM : M.KeepsQueue S) {tr : List Event} {s : State M}
    (r : Lts.Run (Lts.DoesIf (step S M) (Fair S M number)) {} tr s) {text : JsString}
    (hstored : .stored text ∈ tr) (hd : Handleable S.session text) {draw : Draw}
    (hdraw : draw.Ready S.session.C number) :
    ∃ tr' s', Lts.Run (Lts.DoesIf (step S M) (Fair S M number)) {} (tr ++ tr') s' ∧
      text ∉ M.stored s'.queue ∧ Done S.session (sessionLog (tr ++ tr')) text ∧
      ∀ other ∈ M.stored s.queue, S.session.sha256Hex other ≠ S.session.sha256Hex text →
        other ∈ M.stored s'.queue := by
  obtain ⟨log, session₁, input, session₂, h, marked, hrun, hcond, hack⟩ :=
    acks_of_handleable hd s.session
  obtain ⟨frame, hframe, hreports⟩ :=
    reports_ackReceived hS hdraw (List.cons_ne_nil (S.session.sha256Hex text) [])
  have hlogged : Lts.logged (Session.step S.session) session₁ input =
      some (session₂, input, .acked h (S.session.sha256Hex text) marked) :=
    Lts.logged_eq_some.mpr ⟨rfl, hack⟩
  have hsend : step S M ⟨session₁, s.queue, s.wire⟩ (.session input (some draw)) =
      some (⟨session₂, s.queue, s.wire ++ [frame]⟩,
        .session (input, .acked h (S.session.sha256Hex text) marked)) := by
    simp [step, hlogged, sends, hframe]
  have hcollect : step S M ⟨session₂, s.queue, s.wire ++ [frame]⟩ (.collect frame) =
      some (⟨session₂, M.collect s.queue frame, s.wire ++ [frame]⟩, .collected frame) := by
    simp [step]
  have r₁ := r.trans (run_of_session hrun s.queue s.wire)
  have r₂ := r₁.snoc ⟨.session input (some draw), _, ⟨hcond, by simpa using hdraw⟩, hsend, rfl⟩
  have r₃ := r₂.snoc ⟨.collect frame, _, trivial, hcollect, rfl⟩
  have hgone := hM.deletes s.queue frame _ text hreports (List.mem_singleton_self _)
  rw [List.append_assoc, List.append_assoc] at r₃
  refine ⟨_, _, r₃, hgone, ?_, fun other hother hne => ?_⟩
  · have kept := (invariant_of_run hS hM r₃).kept text (List.mem_append_left _ hstored)
    exact done_of_justified (kept.resolve_left hgone)
  · exact hM.spares s.queue frame _ other hreports (by simpa using hne) hother

/-! ## A sample run -/

/-- A client whose sessions consume TSP frames. -/
def Setup.sample : Setup where
  session := .sample .json
  client := .sample 6
  mediatorKey := .sample 7
  recipient := ⟨js "did:ex:bob#1", some (KeyPair.sample 7).privateJwk⟩
  clientJwk := (KeyPair.sample 6).publicJwk

/-- The sample keys are paired. -/
lemma Setup.sample_paired : Setup.sample.Paired id where
  reads := Platform.json_readsJson
  lawful := Crypto.sample_lawful
  keys := ⟨KeyPair.sample 6, KeyPair.sample 7, Client.sample_holds 6, AgreementKey.sample_isOf 7, rfl,
    rfl⟩

/-- The ids a frame of the client's lists. -/
def listed (S : Setup) (frame : JsString) : List JsString :=
  match unpack S.session.P S.session.C frame S.recipient (some S.clientJwk) with
  | .error _ => []
  | .ok r =>
    ((Json.asArray ((r.message.get (js "body")).bind (·.get (js "message_id_list")))).getD
      []).filterMap fun id => Json.asString (some id)

/-- The sample mediator reads the ids that are reported. -/
lemma listed_of_reports {frame : JsString} {ids : List JsString} (h : Reports S frame ids) :
    listed S frame = ids := by
  obtain ⟨r, hr, -, -, hlist⟩ := h
  have hids : (ids.map Json.str).filterMap (fun id => Json.asString (some id)) = ids := by
    rw [List.filterMap_map]
    exact List.filterMap_some
  simp only [listed, hr, hlist, Json.asArray, Option.getD_some]
  exact hids

/-- A mediator that stores frames in a list, and deletes those that an ack lists. -/
def Mediator.sample (S : Setup) : Mediator where
  Queue := List JsString
  empty := []
  stored q := q
  store q text := q ++ [text]
  collect q frame := q.filter fun text => S.session.sha256Hex text ∉ listed S frame

/-- The sample mediator keeps its queue. -/
lemma Mediator.sample_keepsQueue (S : Setup) : (Mediator.sample S).KeepsQueue S where
  stores q text := List.mem_append_right q (List.mem_singleton_self text)
  keeps q text other h := List.mem_append_left [text] h
  deletes q frame ids text h hid hmem := by
    have hkept := (List.mem_filter.mp hmem).2
    rw [listed_of_reports h] at hkept
    exact of_decide_eq_true hkept hid
  spares q frame ids text h hid hmem := by
    rw [← listed_of_reports h] at hid
    exact List.mem_filter.mpr ⟨hmem, decide_eq_true hid⟩

/-- A frame is stored with the sample mediator. -/
lemma run_stored :
    Lts.Run (Lts.DoesIf (step .sample (.sample .sample)) (Fair .sample (.sample .sample) id)) {}
      [.stored tspFrame] { queue := [tspFrame] } :=
  .snoc (.nil _) ⟨.store tspFrame, .stored tspFrame, trivial, rfl, rfl⟩

/-- A TSP frame is stored. -/
theorem stored_or_handled_example : ∃ tr s,
    Lts.Run (Lts.DoesIf (step .sample (.sample .sample)) (Fair .sample (.sample .sample) id)) {} tr s ∧
      (tspFrame ∈ (Mediator.sample .sample).stored s.queue ∨
        Done Setup.sample.session (sessionLog tr) tspFrame) :=
  ⟨_, _, run_stored, stored_or_handled Setup.sample_paired (Mediator.sample_keepsQueue .sample)
    run_stored (List.mem_singleton_self _)⟩

/-- The TSP frame is consumed, acked and deleted. -/
theorem drains_example : ∃ tr s,
    Lts.Run (Lts.DoesIf (step .sample (.sample .sample)) (Fair .sample (.sample .sample) id)) {}
      (.stored tspFrame :: tr) s ∧ tspFrame ∉ (Mediator.sample .sample).stored s.queue := by
  have hd : Handleable Setup.sample.session tspFrame := .tsp rfl rfl rfl
  obtain ⟨tr, s, r, hgone, -⟩ := drains Setup.sample_paired (Mediator.sample_keepsQueue .sample)
    run_stored (List.mem_singleton_self _) hd ready_sample
  exact ⟨tr, s, r, hgone⟩

end VtiDidcomm.Pickup
