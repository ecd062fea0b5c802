import VtiDidcomm.Envelope.Inbound
import VtiDidcomm.Js.BoundedSet
import VtiDidcomm.Lts.Threads
import VtiDidcomm.Session.Mailbox

/-!
# Inbound frames of a session

The receive path of a `MediatorSession`: `_onFrame`, `_dispatchFrame`, `_dispatchTspFrame`,
`_deliver` and `_markSeen`. Frames are handled concurrently; a `Phase` is an `await` a handler is
suspended at, and an input says which one goes on, and with what. An `acked` event is a call of
`_ackReceived`.

`Steps` lists what can happen: a handler starts, a handler goes on (`Moves`), or the mailbox takes a
step of its own. `run_mailbox` shows the mailbox of a session to be the mailbox of `Mailbox`.
-/

namespace VtiDidcomm.Session
open Js

/-- `MAX_SEEN` -/
def maxSeen : Nat := 1024

/-- `TRUST_TASK_ENVELOPE_TYPE` -/
def trustTaskEnvelopeType : JsString :=
  js "https://trusttasks.org/binding/didcomm/0.1/envelope"

/-- `ev.data` of a socket message: text, bytes, or a value that `TextDecoder` refuses. -/
inductive FrameData where
  | text (s : JsString)
  | bytes (b : Bytes)
  | other (err : Exception)

/-- The listeners of a session. -/
inductive Listener where
  | onMessage
  | onMediatorMessage
  deriving DecidableEq

/-- What a session is constructed with, and the runtime it runs on. -/
structure Config where
  P : Platform
  C : Crypto
  recipient : Recipient
  mediatorDid : JsString
  mediatorKey : SenderKey
  senderKeys : JsString → List SenderKey
  hasOnMessage : Bool
  hasOnMediatorMessage : Bool
  hasOnTspFrame : Bool
  sha256Hex : JsString → JsString

/-- `this.senderKeys`, seeded with the mediator's own key. -/
def Config.keys (cfg : Config) (did : JsString) : List SenderKey :=
  if did = cfg.mediatorDid then [cfg.mediatorKey] else cfg.senderKeys did

/-- Where the handler of a frame is suspended. -/
inductive Phase where
  /-- `await unpackInbound(text, …)` -/
  | unpacking (text : JsString)
  /-- `await sha256Hex(text)` of a queued message. -/
  | hashing (text : JsString) (r : Unpacked)
  /-- `await sha256Hex(text)` of a frame that was refused for good. -/
  | refusing (text : JsString)
  /-- `await listener(message, thid, sender)` -/
  | delivering (text : JsString) (r : Unpacked) (queued : Bool)
  /-- `await this._deliver(result)`, which has completed. -/
  | delivered (text : JsString) (r : Unpacked) (queued : Bool)
  /-- `await sha256Hex(text)` of a TSP frame. -/
  | tspHashing (text : JsString) (qb2 : Bytes)
  /-- `await this.onTspFrame(qb2)` -/
  | tspConsuming (text : JsString)
  /-- `await this.onTspFrame(qb2)`, which has fulfilled. -/
  | tspConsumed (text : JsString)

/-- The state of a session. -/
structure State where
  handlers : Lts.Threads Phase := .empty
  seen : BoundedSet JsString maxSeen := .empty
  mailbox : Mailbox.State := {}

/-- What a step of a session shows; `h` is the number of the frame's handler. -/
inductive Event where
  /-- A handler awaits. -/
  | received (h : Nat) (text : JsString)
  /-- A TSP frame has no consumer. -/
  | ignored (h : Nat) (text : JsString)
  /-- The frame is reported and dropped. -/
  | failed (h : Nat) (text : Option JsString) (report : JsError)
  /-- A queued message was unpacked. -/
  | accepted (h : Nat) (text : JsString) (r : Unpacked)
  /-- The frame is reported, and refused for good. -/
  | refused (h : Nat) (text : JsString) (report : JsError)
  /-- A message is handed off: to a waiter or the inbox, as the mailbox event says, and a listener. -/
  | handed (h : Nat) (text : JsString) (r : Unpacked) (queued : Bool) (sender : Mailbox.Sender)
      (listener : Option Listener) (e : Mailbox.Event)
  /-- A TSP frame is handed to `onTspFrame`. -/
  | tspHanded (h : Nat) (text : JsString) (qb2 : Bytes)
  /-- `_deliver` completed. -/
  | completed (h : Nat) (text : JsString) (r : Unpacked) (queued : Bool)
  /-- `onTspFrame` fulfilled. -/
  | tspFulfilled (h : Nat) (text : JsString)
  /-- `onTspFrame` threw. -/
  | tspThrew (h : Nat) (text : JsString) (report : JsError)
  /-- The handler of a message that is not queued is done. -/
  | ended (h : Nat) (text : JsString)
  /-- `_ackReceived(queueId)`, after `_markSeen(queueId)` or on the strength of `_seen`. -/
  | acked (h : Nat) (queueId : JsString) (marked : Bool)
  /-- A step of the mailbox that is not a delivery. -/
  | mailbox (e : Mailbox.Event)

/-- What happens to a session. -/
inductive Input where
  /-- `ws.onmessage` -/
  | receive (data : FrameData)
  /-- `unpackInbound` settled; `resolve` is how `resolveSender`, if it is a function, answered. -/
  | unpacked (h : Nat) (resolve : Option ResolveSender)
  /-- `sha256Hex` settled. -/
  | hashed (h : Nat)
  /-- The consumer of a message settled. -/
  | settled (h : Nat) (outcome : Except JsError Unit)
  /-- The handler goes on after its consumer. -/
  | resumed (h : Nat)
  | waitFor (thid : JsString) (from' : Mailbox.FromOption)
  | expire (timer : Nat)
  | socketDown
  | close

/-- `isTspFrameText` -/
def isTspFrameText (text : JsString) : Bool :=
  [js "--E", js "-E"].any (startsWith text)

/-- `isStoredMediatorReply` -/
def isStoredMediatorReply (message : Json) : Bool :=
  Json.asString (message.get (js "type")) = some trustTaskEnvelopeType &&
    !Json.isNullish (message.get (js "thid"))

/-- The fingerprint of a frame in a report. -/
def frameFingerprint : Option JsString → JsString
  | some text => sliceTo text 12 ++ js "…(" ++ natText text.length ++ js "b)"
  | none => js "n/a"

/-- `_reportFrameError`: what `onError` is told. -/
def reportFrameError (stage : JsString) (err : JsError) (text : Option JsString) : JsError where
  name := js "Error"
  message := js "mediator-transport: failed to " ++ stage ++ js " [frame " ++ frameFingerprint text ++
    js "]: " ++ err.message
  details := [(js "stage", stage), (js "frameFingerprint", frameFingerprint text)]

/-- `typeof data === "string" ? data : new TextDecoder().decode(data)` -/
def frameText : FrameData → Except JsError JsString
  | .text s => .ok s
  | .bytes b => .ok (textDecode b)
  | .other err => raised (.error err)

/-- `unpackInbound(text, …)` with the session's keys. -/
abbrev Config.unpackInbound (cfg : Config) (text : JsString) (resolve : Option ResolveSender) :
    Except JsError Unpacked :=
  VtiDidcomm.unpackInbound cfg.P cfg.C cfg.recipient cfg.keys text resolve

variable (cfg : Config)

/-- Whether an error refuses a frame for good: permanently, and not one of the mediator's. -/
def isRefused (text : JsString) (err : JsError) : Bool :=
  permanentlyRefused err &&
    identityOfKid ((peekSkid cfg.P text).getD []) ≠ identityOfKid cfg.mediatorDid

/-- Whether a message is one the mediator queues for us. -/
def isQueued (r : Unpacked) : Bool :=
  match r.senderDid with
  | none | some [] => false
  | some (c :: senderDid) =>
    c :: senderDid ≠ identityOfKid cfg.mediatorDid || isStoredMediatorReply r.message

/-- The listener a delivery goes to; none when a waiter took the message. -/
def listenerFor (sender : Mailbox.Sender) : Mailbox.Event → Option Listener
  | .handed .. => none
  | _ =>
    if sender.did = identityOfKid cfg.mediatorDid && cfg.hasOnMediatorMessage then
      some .onMediatorMessage
    else if cfg.hasOnMessage then some .onMessage
    else none

variable (s : State)

/-- `_onFrame`, up to its first `await`. -/
def onFrame (data : FrameData) : State × Event :=
  let h := s.handlers.next
  let ends : State := { s with handlers := s.handlers.start none }
  match frameText data with
  | .error err => (ends, .failed h none (reportFrameError (js "decode inbound frame bytes") err none))
  | .ok text =>
    if isTspFrameText text then
      match Base64url.decodeText text with
      | .error err =>
        (ends, .failed h (some text) (reportFrameError (js "decode inbound TSP frame") err (some text)))
      | .ok qb2 =>
        if cfg.hasOnTspFrame then
          ({ s with handlers := s.handlers.start (some (.tspHashing text qb2)) }, .received h text)
        else (ends, .ignored h text)
    else ({ s with handlers := s.handlers.start (some (.unpacking text)) }, .received h text)

/-- A handler goes to its next `await`, or ends. -/
def State.goto (h : Nat) (p : Option Phase) : State := { s with handlers := s.handlers.move h p }

/-- `_markSeen(queueId)`, then `_ackReceived(queueId)`. -/
def markAndAck (h : Nat) (queueId : JsString) : State × Event :=
  ({ s.goto h none with seen := s.seen.add queueId }, .acked h queueId true)

/-- `_deliver`, up to its `await`, in the handler of `text`. -/
def deliver (h : Nat) (text : JsString) (r : Unpacked) (queued : Bool) : State × Event :=
  match r.senderDid, r.senderKid with
  | some did, some kid =>
    let sender : Mailbox.Sender := ⟨did, kid⟩
    let (mailbox, e) := Mailbox.deliver cfg.mediatorDid s.mailbox r.message sender
    ({ s.goto h (some (.delivering text r queued)) with mailbox },
      .handed h text r queued sender (listenerFor cfg sender e) e)
  | _, _ =>
    (s.goto h none,
      .failed h (some text) (reportFrameError (js "dispatch inbound message")
        (error (js "mediator-transport: inbound message has no authenticated sender")) (some text)))

/-- `_onFrame` after `unpackInbound`, and `_dispatchFrame` up to its first `await`. -/
def afterUnpack (h : Nat) (text : JsString) (resolve : Option ResolveSender) :
    State × Event :=
  match cfg.unpackInbound text resolve with
  | .ok r =>
    if isQueued cfg r then (s.goto h (some (.hashing text r)), .accepted h text r)
    else deliver cfg s h text r false
  | .error err =>
    if isRefused cfg text err then
      (s.goto h (some (.refusing text)),
        .refused h text
          (reportFrameError (js "accept inbound frame (refused and dropped)") err (some text)))
    else
      (s.goto h none,
        .failed h (some text) (reportFrameError (js "unpack inbound frame") err (some text)))

/-- `_dispatchFrame`, `_dispatchTspFrame` and the refusal in `_onFrame`, after `sha256Hex`. -/
def afterHash (h : Nat) : Phase → Option (State × Event)
  | .hashing text r =>
    let queueId := cfg.sha256Hex text
    if s.seen.has queueId then some (s.goto h none, .acked h queueId false)
    else some (deliver cfg s h text r true)
  | .tspHashing text qb2 =>
    let queueId := cfg.sha256Hex text
    if s.seen.has queueId then some (s.goto h none, .acked h queueId false)
    else some (s.goto h (some (.tspConsuming text)), .tspHanded h text qb2)
  | .refusing text => some (markAndAck s h (cfg.sha256Hex text))
  | _ => none

/-- The consumer settles: `_deliver` swallows what a listener throws, `_dispatchTspFrame` reports
it. -/
def afterConsumer (h : Nat) (outcome : Except JsError Unit) : Phase → Option (State × Event)
  | .delivering text r queued =>
    some (s.goto h (some (.delivered text r queued)), .completed h text r queued)
  | .tspConsuming text =>
    match outcome with
    | .ok () => some (s.goto h (some (.tspConsumed text)), .tspFulfilled h text)
    | .error err =>
      some (s.goto h none,
        .tspThrew h text (reportFrameError (js "dispatch inbound TSP frame") err (some text)))
  | _ => none

/-- The rest of `_dispatchFrame` and `_dispatchTspFrame`. -/
def afterHandoff (h : Nat) : Phase → Option (State × Event)
  | .delivered text _ queued =>
    if queued then some (markAndAck s h (cfg.sha256Hex text)) else some (s.goto h none, .ended h text)
  | .tspConsumed text => some (markAndAck s h (cfg.sha256Hex text))
  | _ => none

/-- A step of the mailbox. -/
def mailboxStep (input : Mailbox.Input) : Option (State × Event) :=
  (Mailbox.step cfg.mediatorDid s.mailbox input).map fun (mailbox, e) =>
    ({ s with mailbox }, .mailbox e)

/-- One step of a session; `none` for a handler that is not suspended there. -/
def step : Input → Option (State × Event)
  | .receive data => some (onFrame cfg s data)
  | .unpacked h resolve =>
    match s.handlers.phase h with
    | some (.unpacking text) => some (afterUnpack cfg s h text resolve)
    | _ => none
  | .hashed h => (s.handlers.phase h).bind (afterHash cfg s h)
  | .settled h outcome => (s.handlers.phase h).bind (afterConsumer s h outcome)
  | .resumed h => (s.handlers.phase h).bind (afterHandoff cfg s h)
  | .waitFor thid from' => mailboxStep cfg s (.waitFor thid from')
  | .expire timer => mailboxStep cfg s (.expire timer)
  | .socketDown => mailboxStep cfg s .socketDown
  | .close => mailboxStep cfg s .close

/-- One step of a session and the event it emits. -/
abbrev Step : State → List Event → State → Prop := Lts.Does (step cfg)

/-- What a step took, and the event it emitted. -/
abbrev Entry := Input × Event

/-- One step of a session, with its input and the event it emits. -/
abbrev LogStep : State → List Entry → State → Prop := Lts.Does (Lts.logged (step cfg))

/-! ## What the steps do -/

/-- The queue ids an event marks as seen. -/
def Event.marks : Event → List JsString
  | .acked _ queueId true => [queueId]
  | _ => []

/-- The mailbox events of an event. -/
def Event.mailboxEvents : Event → List Mailbox.Event
  | .handed _ _ _ _ _ _ e => [e]
  | .mailbox e => [e]
  | _ => []

/-- The input of the mailbox, where it takes a step of its own. -/
def Input.forMailbox : Input → Option Mailbox.Input
  | .waitFor thid from' => some (.waitFor thid from')
  | .expire timer => some (.expire timer)
  | .socketDown => some .socketDown
  | .close => some .close
  | .receive _ | .unpacked .. | .hashed _ | .settled .. | .resumed _ => none

/-- How the handler `h` of a frame starts. -/
inductive Starts (data : FrameData) (h : Nat) : Option Phase → Event → Prop where
  | failed (text report) : Starts data h none (.failed h text report)
  | ignored {text} :
    isTspFrameText text = true → cfg.hasOnTspFrame = false → Starts data h none (.ignored h text)
  | tsp {text qb2} :
    isTspFrameText text = true → cfg.hasOnTspFrame = true → frameText data = .ok text →
    Starts data h (some (.tspHashing text qb2)) (.received h text)
  | didcomm {text} :
    isTspFrameText text = false → frameText data = .ok text →
    Starts data h (some (.unpacking text)) (.received h text)

/-- A result is delivered to the mailbox as a message from its sender. -/
def Delivers (mb : Mailbox.State) (r : Unpacked) (sender : Mailbox.Sender) (mb' : Mailbox.State)
    (e : Mailbox.Event) : Prop :=
  r.senderDid = some sender.did ∧ r.senderKid = some sender.kid ∧
    Mailbox.deliver cfg.mediatorDid mb r.message sender = (mb', e)

/-- How the handler `h` goes on from a phase on an input, with the ids seen and the mailbox. -/
inductive Moves (seen : BoundedSet JsString maxSeen) (mb : Mailbox.State) (h : Nat) :
    Input → Phase → Option Phase → Mailbox.State → Event → Prop where
  | accepted {text resolve r} :
    cfg.unpackInbound text resolve = .ok r → isQueued cfg r = true →
    Moves seen mb h (.unpacked h resolve) (.unpacking text) (some (.hashing text r)) mb
      (.accepted h text r)
  | refused {text resolve err} (report) :
    cfg.unpackInbound text resolve = .error err →
    isRefused cfg text err = true →
    Moves seen mb h (.unpacked h resolve) (.unpacking text) (some (.refusing text)) mb
      (.refused h text report)
  | failed {text} (resolve report) :
    Moves seen mb h (.unpacked h resolve) (.unpacking text) none mb (.failed h (some text) report)
  | handed {text resolve r sender mb' e} :
    cfg.unpackInbound text resolve = .ok r → isQueued cfg r = false →
    Delivers cfg mb r sender mb' e →
    Moves seen mb h (.unpacked h resolve) (.unpacking text) (some (.delivering text r false)) mb'
      (.handed h text r false sender (listenerFor cfg sender e) e)
  | handedQueued {text r sender mb' e} :
    cfg.sha256Hex text ∉ seen.items → Delivers cfg mb r sender mb' e →
    Moves seen mb h (.hashed h) (.hashing text r) (some (.delivering text r true)) mb'
      (.handed h text r true sender (listenerFor cfg sender e) e)
  | undelivered {text r} (report) :
    Moves seen mb h (.hashed h) (.hashing text r) none mb (.failed h (some text) report)
  | reacked {text r} : cfg.sha256Hex text ∈ seen.items →
    Moves seen mb h (.hashed h) (.hashing text r) none mb (.acked h (cfg.sha256Hex text) false)
  | tspReacked {text qb2} : cfg.sha256Hex text ∈ seen.items →
    Moves seen mb h (.hashed h) (.tspHashing text qb2) none mb (.acked h (cfg.sha256Hex text) false)
  | tspHanded {text qb2} : cfg.sha256Hex text ∉ seen.items →
    Moves seen mb h (.hashed h) (.tspHashing text qb2) (some (.tspConsuming text)) mb
      (.tspHanded h text qb2)
  | refusedAcked {text} :
    Moves seen mb h (.hashed h) (.refusing text) none mb (.acked h (cfg.sha256Hex text) true)
  | completed {text r queued outcome} :
    Moves seen mb h (.settled h outcome) (.delivering text r queued)
      (some (.delivered text r queued)) mb (.completed h text r queued)
  | tspFulfilled {text} :
    Moves seen mb h (.settled h (.ok ())) (.tspConsuming text) (some (.tspConsumed text)) mb
      (.tspFulfilled h text)
  | tspThrew {text err} (report) :
    Moves seen mb h (.settled h (.error err)) (.tspConsuming text) none mb (.tspThrew h text report)
  | acked {text r} :
    Moves seen mb h (.resumed h) (.delivered text r true) none mb
      (.acked h (cfg.sha256Hex text) true)
  | ended {text r} :
    Moves seen mb h (.resumed h) (.delivered text r false) none mb (.ended h text)
  | tspAcked {text} :
    Moves seen mb h (.resumed h) (.tspConsumed text) none mb (.acked h (cfg.sha256Hex text) true)

/-- What a step of a session can do. -/
inductive Steps : Input → State → Event → Prop where
  | starts {data p e} : Starts cfg data s.handlers.next p e →
    Steps (.receive data) { s with handlers := s.handlers.start p } e
  | moves {input h p q mb e} : s.handlers.phase h = some p →
    Moves cfg s.seen s.mailbox h input p q mb e →
    Steps input
      { handlers := s.handlers.move h q, seen := e.marks.foldl .add s.seen, mailbox := mb } e
  | mailbox {input mailboxInput mb e} : input.forMailbox = some mailboxInput →
    Mailbox.step cfg.mediatorDid s.mailbox mailboxInput = some (mb, e) →
    Steps input { s with mailbox := mb } (.mailbox e)

/-- What receiving a frame does is one of the cases. -/
lemma onFrame_steps (data : FrameData) :
    Steps cfg s (.receive data) (onFrame cfg s data).1 (onFrame cfg s data).2 := by
  unfold onFrame
  split
  · exact .starts (.failed _ _)
  rename_i text htext
  split
  · rename_i htsp
    split
    · exact .starts (.failed _ _)
    split
    · rename_i hconsumer
      exact .starts (.tsp htsp hconsumer htext)
    · rename_i hconsumer
      exact .starts (.ignored htsp (by simpa using hconsumer))
  · rename_i htsp
    exact .starts (.didcomm (by simpa using htsp) htext)

/-- A message is delivered, or its frame is dropped. -/
lemma deliver_cases (h : Nat) (text : JsString) (r : Unpacked) (queued : Bool) :
    (∃ sender mb e, Delivers cfg s.mailbox r sender mb e ∧
        deliver cfg s h text r queued =
          ({ s.goto h (some (.delivering text r queued)) with mailbox := mb },
            .handed h text r queued sender (listenerFor cfg sender e) e)) ∨
      ∃ report, deliver cfg s h text r queued = (s.goto h none, .failed h (some text) report) := by
  unfold deliver
  split
  · rename_i did kid hdid hkid
    exact .inl ⟨⟨did, kid⟩, _, _, ⟨hdid, hkid, rfl⟩, rfl⟩
  · exact .inr ⟨_, rfl⟩

variable {cfg s}

/-- What follows the unpacking is one of the cases. -/
lemma afterUnpack_steps {h : Nat} {text : JsString}
    (hp : s.handlers.phase h = some (.unpacking text))
    (resolve : Option ResolveSender) :
    Steps cfg s (.unpacked h resolve) (afterUnpack cfg s h text resolve).1
      (afterUnpack cfg s h text resolve).2 := by
  unfold afterUnpack
  split
  · rename_i r hr
    split
    · rename_i hq
      exact .moves hp (.accepted hr hq)
    · rename_i hq
      obtain ⟨sender, mb, e, hd, heq⟩ | ⟨report, heq⟩ :=
        deliver_cases cfg s h text r false
      · rw [heq]
        exact .moves hp (.handed hr (by simpa using hq) hd)
      · rw [heq]
        exact .moves hp (.failed resolve report)
  · rename_i err herr
    split
    · rename_i href
      exact .moves hp (.refused _ herr href)
    · exact .moves hp (.failed resolve _)

/-- What follows the hashing is one of the cases. -/
lemma afterHash_steps {h : Nat} {p : Phase} {s' : State} {e : Event}
    (hp : s.handlers.phase h = some p) (hs : afterHash cfg s h p = some (s', e)) :
    Steps cfg s (.hashed h) s' e := by
  cases p with
  | hashing text r =>
    simp only [afterHash] at hs
    split at hs
    · rename_i hseen
      cases hs
      exact .moves hp (.reacked (BoundedSet.has_iff.mp hseen))
    · rename_i hseen
      rw [BoundedSet.has_iff] at hseen
      obtain ⟨sender, mb, ev, hd, heq⟩ | ⟨report, heq⟩ :=
        deliver_cases cfg s h text r true
      · rw [heq] at hs
        cases hs
        exact .moves hp (.handedQueued hseen hd)
      · rw [heq] at hs
        cases hs
        exact .moves hp (.undelivered report)
  | tspHashing text qb2 =>
    simp only [afterHash] at hs
    split at hs
    · rename_i hseen
      cases hs
      exact .moves hp (.tspReacked (BoundedSet.has_iff.mp hseen))
    · rename_i hseen
      rw [BoundedSet.has_iff] at hseen
      cases hs
      exact .moves hp (.tspHanded hseen)
  | refusing text =>
    cases hs
    exact .moves hp .refusedAcked
  | unpacking | delivering | delivered | tspConsuming | tspConsumed => cases hs

/-- What follows the consumer is one of the cases. -/
lemma afterConsumer_steps {h : Nat} {outcome : Except JsError Unit} {p : Phase} {s' : State}
    {e : Event} (hp : s.handlers.phase h = some p)
    (hs : afterConsumer s h outcome p = some (s', e)) :
    Steps cfg s (.settled h outcome) s' e := by
  cases p with
  | delivering text r queued =>
    cases hs
    exact .moves hp .completed
  | tspConsuming text =>
    cases outcome with
    | ok u =>
      cases hs
      exact .moves hp .tspFulfilled
    | error err =>
      cases hs
      exact .moves hp (.tspThrew _)
  | unpacking | hashing | refusing | delivered | tspHashing | tspConsumed => cases hs

/-- What follows the hand-off is one of the cases. -/
lemma afterHandoff_steps {h : Nat} {p : Phase} {s' : State} {e : Event}
    (hp : s.handlers.phase h = some p) (hs : afterHandoff cfg s h p = some (s', e)) :
    Steps cfg s (.resumed h) s' e := by
  cases p with
  | delivered text r queued =>
    cases queued with
    | true =>
      cases hs
      exact .moves hp .acked
    | false =>
      cases hs
      exact .moves hp .ended
  | tspConsumed text =>
    cases hs
    exact .moves hp .tspAcked
  | unpacking | hashing | refusing | delivering | tspHashing | tspConsuming => cases hs

/-- What the mailbox does is one of the cases. -/
lemma mailboxStep_steps {m : Mailbox.Input} {s' : State} {e : Event} {input : Input}
    (hs : mailboxStep cfg s m = some (s', e)) (hm : input.forMailbox = some m) :
    Steps cfg s input s' e := by
  obtain ⟨⟨mb, ev⟩, hmb, heq⟩ := Option.map_eq_some_iff.mp hs
  cases heq
  exact .mailbox hm hmb

/-- Every step is one of the cases. -/
lemma steps_of_step {input : Input} {s' : State} {e : Event}
    (hs : step cfg s input = some (s', e)) : Steps cfg s input s' e := by
  cases input with
  | receive data =>
    have heq : onFrame cfg s data = (s', e) := Option.some.inj hs
    have hsteps := onFrame_steps cfg s data
    rwa [heq] at hsteps
  | unpacked h resolve =>
    simp only [step] at hs
    split at hs
    · rename_i text hp
      have heq : afterUnpack cfg s h text resolve = (s', e) := Option.some.inj hs
      have hsteps : Steps cfg s _ _ _ := afterUnpack_steps hp resolve
      rwa [heq] at hsteps
    · cases hs
  | hashed h =>
    obtain ⟨p, hp, hs⟩ := Option.bind_eq_some_iff.mp hs
    exact afterHash_steps hp hs
  | settled h outcome =>
    obtain ⟨p, hp, hs⟩ := Option.bind_eq_some_iff.mp hs
    exact afterConsumer_steps hp hs
  | resumed h =>
    obtain ⟨p, hp, hs⟩ := Option.bind_eq_some_iff.mp hs
    exact afterHandoff_steps hp hs
  | waitFor | expire | socketDown | close => exact mailboxStep_steps hs rfl

/-- Only `_deliver` delivers to the mailbox. -/
lemma Input.forMailbox_ne_deliver {input : Input} {m : Mailbox.Input}
    (h : input.forMailbox = some m) (message : Json) (sender : Mailbox.Sender) :
    m ≠ .deliver message sender := by
  cases input <;> cases h <;> nofun

/-- Every step of a run is one of the cases. -/
lemma Step.steps {s' : State} {evs : List Event} (hs : Step cfg s evs s') :
    ∃ input e, evs = [e] ∧ Steps cfg s input s' e := by
  obtain ⟨input, e, hstep, rfl⟩ := hs
  exact ⟨input, e, rfl, steps_of_step hstep⟩

/-- A frame that is received is unpacked. -/
lemma step_receive (cfg : Config) (s : State) {text : JsString} (h : isTspFrameText text = false) :
    step cfg s (.receive (.text text)) =
      some ({ s with handlers := s.handlers.start (some (.unpacking text)) },
        .received s.handlers.next text) := by
  simp [step, onFrame, frameText, h]

/-- A queued message is hashed. -/
lemma step_unpacked (cfg : Config) {s : State} {h : Nat} {text : JsString}
    {resolve : Option ResolveSender} {r : Unpacked}
    (hp : s.handlers.phase h = some (.unpacking text)) (hr : cfg.unpackInbound text resolve = .ok r)
    (hq : isQueued cfg r = true) :
    step cfg s (.unpacked h resolve) =
      some (s.goto h (some (.hashing text r)), .accepted h text r) := by
  simp [step, hp, afterUnpack, hr, hq]

/-- A frame that is refused for good is hashed. -/
lemma step_refused (cfg : Config) {s : State} {h : Nat} {text : JsString}
    {resolve : Option ResolveSender} {err : JsError}
    (hp : s.handlers.phase h = some (.unpacking text))
    (herr : cfg.unpackInbound text resolve = .error err) (href : isRefused cfg text err = true) :
    step cfg s (.unpacked h resolve) =
      some (s.goto h (some (.refusing text)),
        .refused h text
          (reportFrameError (js "accept inbound frame (refused and dropped)") err (some text))) := by
  simp [step, hp, afterUnpack, herr, href]

/-- A logged step is one of the cases. -/
lemma LogStep.steps {s' : State} {log : List Entry} (hs : LogStep cfg s log s') :
    ∃ x, log = [x] ∧ Steps cfg s x.1 s' x.2 := by
  obtain ⟨input, x, hstep, rfl⟩ := hs
  obtain ⟨rfl, hstep⟩ := Lts.logged_eq_some.mp hstep
  exact ⟨x, rfl, steps_of_step hstep⟩

/-! ## The mailbox of a session -/

/-- What a move does to the mailbox is a run of the mailbox. -/
lemma Moves.mailbox {seen : BoundedSet JsString maxSeen} {mb mb' : Mailbox.State} {h : Nat}
    {input : Input} {p : Phase} {q : Option Phase} {e : Event}
    (hm : Moves cfg seen mb h input p q mb' e) :
    Lts.Run (Mailbox.Step cfg.mediatorDid) mb e.mailboxEvents mb' := by
  cases hm with
  | @handed text resolve r sender mb' ev hr hq hd =>
    exact .snoc (.nil mb) ⟨.deliver r.message sender, ev, congrArg some hd.2.2, rfl⟩
  | @handedQueued text r sender mb' ev hseen hd =>
    exact .snoc (.nil mb) ⟨.deliver r.message sender, ev, congrArg some hd.2.2, rfl⟩
  | accepted | refused | failed | undelivered | reacked | tspReacked | tspHanded | refusedAcked
  | completed | tspFulfilled | tspThrew | acked | ended | tspAcked => exact .nil mb

/-- A step of a session is a run of its mailbox. -/
lemma Steps.mailbox_run {input : Input} {s' : State} {e : Event} (hs : Steps cfg s input s' e) :
    Lts.Run (Mailbox.Step cfg.mediatorDid) s.mailbox e.mailboxEvents s'.mailbox := by
  cases hs with
  | starts hst => cases hst <;> exact .nil _
  | moves hp hm => exact hm.mailbox
  | mailbox hm hmb => exact .snoc (.nil _) ⟨_, _, hmb, rfl⟩

/-- The mailbox of a session runs as a mailbox does. -/
lemma run_mailbox_from {tr : List Event} {s s' : State} (r : Lts.Run (Step cfg) s tr s') :
    Lts.Run (Mailbox.Step cfg.mediatorDid) s.mailbox (tr.flatMap Event.mailboxEvents)
      s'.mailbox := by
  induction r with
  | nil => exact .nil _
  | snoc _ hs ih =>
    obtain ⟨input, e, rfl, h⟩ := Step.steps hs
    simpa using ih.trans h.mailbox_run

/-- The mailbox of a session is run. -/
lemma run_mailbox {tr : List Event} {s : State} (r : Lts.Run (Step cfg) {} tr s) :
    Lts.Run (Mailbox.Step cfg.mediatorDid) {} (tr.flatMap Event.mailboxEvents) s.mailbox :=
  run_mailbox_from r

end VtiDidcomm.Session
