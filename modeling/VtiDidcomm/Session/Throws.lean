import VtiDidcomm.Session.Frames

/-!
# What the frame handler throws

`_onFrame` again, with every `try` of it and every callback that may throw: the error sink, the
listeners, and `resolveSender`, whose value of any kind is read for a `code` in the `catch`.
`perform` is a step of the session in these terms; its outcome is the event of the step, or the
rejection of the promise of `_onFrame`.

`perform_eq` connects the two: nothing a callback throws escapes, and the step is a step of the
session, except where the `code` of what `resolveSender` threw cannot be read
(`perform_unreadable`).
-/

namespace VtiDidcomm.Session
open Js

/-- `onError`, which may throw. -/
abbrev OnError := JsError → Except JsError Unit

/-- A step of the session, and what its callbacks do there. -/
structure Action where
  input : Input
  onError : OnError
  /-- What reading the `code` of the value that `resolveSender` threw throws. -/
  codeThrows : Option JsError := none

/-- What comes of a step. -/
inductive Outcome where
  | event (e : Event)
  /-- The promise of `_onFrame` rejects. -/
  | rejected (h : Nat) (err : JsError)

/-- `_reportFrameError`: the report, whatever the error sink does. -/
def report (onError : OnError) (stage : JsString) (err : JsError) (text : Option JsString) :
    Except JsError JsError :=
  let r := reportFrameError stage err text
  tryCatch (do onError r; return r) fun _ => return r

variable (cfg : Config)

/-- `resolveSender` is asked for the key of a frame, and throws. -/
def resolverThrew (text : JsString) (resolve : Option ResolveSender) : Bool :=
  match peekSkid cfg.P text, resolve with
  | some (c :: skid), some resolve =>
    (seededKey cfg.keys (c :: skid)).isNone &&
      match resolve (didOfKid (c :: skid)) (c :: skid) with
      | .error _ => true
      | .ok _ => false
  | _, _ => false

/-- `err?.code`, of what `unpackInbound` threw. -/
def readCode (text : JsString) (resolve : Option ResolveSender) (codeThrows : Option JsError)
    (err : JsError) : Except JsError (Option JsString) :=
  match codeThrows with
  | some thrown => if resolverThrew cfg text resolve then .error thrown else .ok err.code
  | none => .ok err.code

variable (s : State) (onError : OnError)

/-- `_onFrame`, up to its first `await`. -/
def onFrameThrows (data : FrameData) : Except JsError (State × Event) :=
  let h := s.handlers.next
  let ends : State := { s with handlers := s.handlers.start none }
  match frameText data with
  | .error err => do
    let r ← report onError (js "decode inbound frame bytes") err none
    return (ends, .failed h none r)
  | .ok text =>
    if isTspFrameText text then
      match Base64url.decodeText text with
      | .error err => do
        let r ← report onError (js "decode inbound TSP frame") err (some text)
        return (ends, .failed h (some text) r)
      | .ok qb2 =>
        if cfg.hasOnTspFrame then
          return ({ s with handlers := s.handlers.start (some (.tspHashing text qb2)) },
            .received h text)
        else return (ends, .ignored h text)
    else return ({ s with handlers := s.handlers.start (some (.unpacking text)) }, .received h text)

/-- `_deliver`, up to its `await`. -/
def deliverThrows (h : Nat) (text : JsString) (r : Unpacked) (queued : Bool) :
    Except JsError (State × Event) :=
  match r.senderDid, r.senderKid with
  | some did, some kid =>
    let sender : Mailbox.Sender := ⟨did, kid⟩
    let (mailbox, e) := Mailbox.deliver cfg.mediatorDid s.mailbox r.message sender
    return ({ s.goto h (some (.delivering text r queued)) with mailbox },
      .handed h text r queued sender (listenerFor cfg sender e) e)
  | _, _ =>
    throw (error (js "mediator-transport: inbound message has no authenticated sender"))

/-- The `try` around `_dispatchFrame`. -/
def tryDispatch (h : Nat) (text : JsString) (dispatch : Except JsError (State × Event)) :
    Except JsError (State × Event) :=
  tryCatch dispatch fun err => do
    let r ← report onError (js "dispatch inbound message") err (some text)
    return (s.goto h none, .failed h (some text) r)

/-- `_onFrame` after `unpackInbound`, and `_dispatchFrame` up to its first `await`. -/
def afterUnpackThrows (h : Nat) (text : JsString) (resolve : Option ResolveSender)
    (codeThrows : Option JsError) : Except JsError (State × Event) :=
  match cfg.unpackInbound text resolve with
  | .ok r =>
    tryDispatch s onError h text
      (if isQueued cfg r then return (s.goto h (some (.hashing text r)), .accepted h text r)
      else deliverThrows cfg s h text r false)
  | .error err => do
    -- this is the `catch` block, and no `try` is around it
    let code ← readCode cfg text resolve codeThrows err
    if (code = some eSenderMismatch || code = some eUnauthenticatedFrame) &&
        identityOfKid ((peekSkid cfg.P text).getD []) ≠ identityOfKid cfg.mediatorDid then
      let r ← report onError (js "accept inbound frame (refused and dropped)") err (some text)
      return (s.goto h (some (.refusing text)), .refused h text r)
    else
      let r ← report onError (js "unpack inbound frame") err (some text)
      return (s.goto h none, .failed h (some text) r)

/-- `_dispatchFrame`, `_dispatchTspFrame` and the refusal in `_onFrame`, after `sha256Hex`. -/
def afterHashThrows (h : Nat) : Phase → Option (Except JsError (State × Event))
  | .hashing text r =>
    let queueId := cfg.sha256Hex text
    some (tryDispatch s onError h text
      (if s.seen.has queueId then return (s.goto h none, .acked h queueId false)
      else deliverThrows cfg s h text r true))
  | .tspHashing text qb2 =>
    let queueId := cfg.sha256Hex text
    if s.seen.has queueId then some (return (s.goto h none, .acked h queueId false))
    else some (return (s.goto h (some (.tspConsuming text)), .tspHanded h text qb2))
  | .refusing text => some (return markAndAck s h (cfg.sha256Hex text))
  | _ => none

/-- The consumer settles: the `try` around the listener, and the one around `onTspFrame`. -/
def afterConsumerThrows (h : Nat) (outcome : Except JsError Unit) :
    Phase → Option (Except JsError (State × Event))
  | .delivering text r queued => some do
    tryCatch outcome fun _ => return ()
    return (s.goto h (some (.delivered text r queued)), .completed h text r queued)
  | .tspConsuming text =>
    some (tryCatch
      (do
        outcome
        return (s.goto h (some (.tspConsumed text)), .tspFulfilled h text))
      fun err => do
        let r ← report onError (js "dispatch inbound TSP frame") err (some text)
        return (s.goto h none, .tspThrew h text r))
  | _ => none

/-- What comes of a part of the handler `h`; where it throws, the handler has ended. -/
def outcomeOf (h : Nat) (ended : State) : Except JsError (State × Event) → State × Outcome
  | .ok (s', e) => (s', .event e)
  | .error err => (ended, .rejected h err)

/-- One step of a session, and what comes of it. -/
def perform (a : Action) : Option (State × Outcome) :=
  match a.input with
  | .receive data =>
    some (outcomeOf s.handlers.next { s with handlers := s.handlers.start none }
      (onFrameThrows cfg s a.onError data))
  | .unpacked h resolve =>
    match s.handlers.phase h with
    | some (.unpacking text) =>
      some (outcomeOf h (s.goto h none)
        (afterUnpackThrows cfg s a.onError h text resolve a.codeThrows))
    | _ => none
  | .hashed h =>
    (s.handlers.phase h).bind fun p =>
      (afterHashThrows cfg s a.onError h p).map (outcomeOf h (s.goto h none))
  | .settled h outcome =>
    (s.handlers.phase h).bind fun p =>
      (afterConsumerThrows s a.onError h outcome p).map (outcomeOf h (s.goto h none))
  | input => (step cfg s input).map fun (s', e) => (s', .event e)

/-- The `code` of what `resolveSender` threw is read, and cannot be. -/
def Action.Unreadable (a : Action) : Prop :=
  match a.input with
  | .unpacked h resolve => ∃ text, s.handlers.phase h = some (.unpacking text) ∧
      resolverThrew cfg text resolve = true ∧ a.codeThrows ≠ none
  | _ => False

variable {cfg s onError}

/-! ## What escapes -/

@[simp] lemma report_eq (stage : JsString) (err : JsError) (text : Option JsString) :
    report onError stage err text = .ok (reportFrameError stage err text) := by
  simp only [report]
  cases onError (reportFrameError stage err text) <;> rfl

/-- Receiving throws nothing. -/
lemma onFrameThrows_eq (data : FrameData) :
    onFrameThrows cfg s onError data = .ok (onFrame cfg s data) := by
  unfold onFrameThrows onFrame
  cases frameText data with
  | error err => simp
  | ok text =>
    simp only
    split
    · cases Base64url.decodeText text with
      | error err => simp
      | ok qb2 =>
        simp only
        split <;> rfl
    · rfl

/-- Delivering throws nothing. -/
lemma tryDispatch_deliver (h : Nat) (text : JsString) (r : Unpacked) (queued : Bool) :
    tryDispatch s onError h text (deliverThrows cfg s h text r queued) =
      .ok (deliver cfg s h text r queued) := by
  have hthrown : tryDispatch s onError h text
      (throw (error (js "mediator-transport: inbound message has no authenticated sender"))) =
      .ok (s.goto h none, .failed h (some text) (reportFrameError (js "dispatch inbound message")
        (error (js "mediator-transport: inbound message has no authenticated sender"))
        (some text))) := by
    show (report onError _ _ _ >>= _) = _
    rw [report_eq]
    rfl
  unfold deliverThrows deliver
  cases r.senderDid with
  | none => exact hthrown
  | some did =>
    cases r.senderKid with
    | none => exact hthrown
    | some kid => rfl

/-- What the resolver throws is thrown. -/
lemma unpackInbound_of_resolverThrew {text : JsString} {resolve : Option ResolveSender}
    (h : resolverThrew cfg text resolve = true) :
    ∃ err, cfg.unpackInbound text resolve = .error err := by
  unfold resolverThrew at h
  split at h
  · rename_i c skid resolve hpeek
    simp only [Bool.and_eq_true, Option.isNone_iff_eq_none] at h
    obtain ⟨hseeded, hthrew⟩ := h
    split at hthrew
    · rename_i err herr
      refine ⟨err, ?_⟩
      have hkey : senderFor cfg.keys (c :: skid) (some resolve) = .error err := by
        simp [senderFor, hseeded, herr]
      simp only [Config.unpackInbound, unpackInbound, hpeek, hkey]
      rfl
    · cases hthrew
  · cases h

/-- What follows the unpacking throws nothing where the code can be read. -/
lemma afterUnpackThrows_eq {h : Nat} {text : JsString} {resolve : Option ResolveSender}
    {codeThrows : Option JsError}
    (hread : codeThrows = none ∨ resolverThrew cfg text resolve = false) :
    afterUnpackThrows cfg s onError h text resolve codeThrows =
      .ok (afterUnpack cfg s h text resolve) := by
  unfold afterUnpackThrows afterUnpack
  cases hr : cfg.unpackInbound text resolve with
  | ok r =>
    simp only
    split
    · rfl
    · exact tryDispatch_deliver h text r false
  | error err =>
    have hcode : readCode cfg text resolve codeThrows err = .ok err.code := by
      unfold readCode
      rcases hread with rfl | hread
      · rfl
      · split <;> simp [hread]
    simp only [hcode, ok_bind, report_eq]
    show (if isRefused cfg text err = true then pure _ else pure _) = _
    cases isRefused cfg text err <;> rfl

/-- What follows the hashing throws nothing. -/
lemma afterHashThrows_eq (h : Nat) (p : Phase) :
    afterHashThrows cfg s onError h p = (afterHash cfg s h p).map .ok := by
  cases p with
  | hashing text r =>
    simp only [afterHashThrows, afterHash]
    split
    · rfl
    · rw [tryDispatch_deliver]
      rfl
  | tspHashing text qb2 =>
    simp only [afterHashThrows, afterHash]
    split <;> rfl
  | refusing text => rfl
  | unpacking | delivering | delivered | tspConsuming | tspConsumed => rfl

/-- What follows the consumer throws nothing. -/
lemma afterConsumerThrows_eq (h : Nat) (outcome : Except JsError Unit) (p : Phase) :
    afterConsumerThrows s onError h outcome p = (afterConsumer s h outcome p).map .ok := by
  cases p with
  | delivering text r queued => cases outcome <;> rfl
  | tspConsuming text =>
    cases outcome with
    | ok u => rfl
    | error err =>
      show some (report onError _ _ _ >>= _) = _
      rw [report_eq]
      rfl
  | unpacking | hashing | refusing | delivered | tspHashing | tspConsumed => rfl

/-- Where the code can be read, a step is a step of the session. -/
lemma perform_eq {a : Action} (hread : ¬ a.Unreadable cfg s) :
    perform cfg s a = (step cfg s a.input).map fun (s', e) => (s', .event e) := by
  obtain ⟨input, onError, codeThrows⟩ := a
  cases input with
  | receive data =>
    simp only [perform, onFrameThrows_eq]
    rfl
  | unpacked h resolve =>
    simp only [perform, step]
    cases hp : s.handlers.phase h with
    | none => rfl
    | some p =>
      cases p with
      | unpacking text =>
        have hread : codeThrows = none ∨ resolverThrew cfg text resolve = false := by
          by_contra hnot
          simp only [not_or, Bool.not_eq_false] at hnot
          exact hread ⟨text, hp, hnot.2, hnot.1⟩
        simp only [afterUnpackThrows_eq hread]
        rfl
      | hashing | refusing | delivering | delivered | tspHashing | tspConsuming | tspConsumed => rfl
  | hashed h =>
    simp only [perform, step]
    cases s.handlers.phase h with
    | none => rfl
    | some p =>
      simp only [Option.bind_some, afterHashThrows_eq, Option.map_map]
      rfl
  | settled h outcome =>
    simp only [perform, step]
    cases s.handlers.phase h with
    | none => rfl
    | some p =>
      simp only [Option.bind_some, afterConsumerThrows_eq, Option.map_map]
      rfl
  | resumed | waitFor | expire | socketDown | close => rfl

/-- Where it cannot, the promise rejects, and nothing else changes. -/
lemma perform_unreadable {a : Action} (h : a.Unreadable cfg s) :
    ∃ j resolve text err, a.input = .unpacked j resolve ∧ a.codeThrows = some err ∧
      s.handlers.phase j = some (.unpacking text) ∧
      perform cfg s a = some (s.goto j none, .rejected j err) := by
  obtain ⟨input, onError, codeThrows⟩ := a
  cases input with
  | unpacked j resolve =>
    obtain ⟨text, hp, hthrew, hcode⟩ := h
    obtain ⟨err, herr⟩ := unpackInbound_of_resolverThrew hthrew
    obtain ⟨thrown, rfl⟩ := Option.ne_none_iff_exists'.mp hcode
    refine ⟨j, resolve, text, thrown, rfl, rfl, hp, ?_⟩
    simp only [perform, hp, afterUnpackThrows, herr, readCode, hthrew, if_true]
    rfl
  | receive | hashed | settled | resumed | waitFor | expire | socketDown | close => exact h.elim

/-! ## What the steps do -/

/-- What a step can do. -/
inductive Performs (cfg : Config) (s : State) : State → Outcome → Prop where
  | starts {data p e} : Starts cfg data s.handlers.next p e →
    Performs cfg s { s with handlers := s.handlers.start p } (.event e)
  | moves {input h p q mb e} : s.handlers.phase h = some p →
    Moves cfg s.seen s.mailbox h input p q mb e →
    Performs cfg s
      { handlers := s.handlers.move h q, seen := e.marks.foldl .add s.seen, mailbox := mb }
      (.event e)
  | mailbox {m mb e} : Mailbox.step cfg.mediatorDid s.mailbox m = some (mb, e) →
    Performs cfg s { s with mailbox := mb } (.event (.mailbox e))
  | rejects {h text} (err) : s.handlers.phase h = some (.unpacking text) →
    Performs cfg s (s.goto h none) (.rejected h err)

/-- What is performed is one of the cases. -/
lemma performs_of_perform {a : Action} {s' : State} {o : Outcome}
    (h : perform cfg s a = some (s', o)) : Performs cfg s s' o := by
  by_cases hread : a.Unreadable cfg s
  · obtain ⟨j, resolve, text, err, -, -, hp, heq⟩ := perform_unreadable hread
    cases h.symm.trans heq
    exact .rejects err hp
  · rw [perform_eq hread] at h
    obtain ⟨⟨s₁, e⟩, hstep, heq⟩ := Option.map_eq_some_iff.mp h
    cases heq
    have hsteps := steps_of_step hstep
    generalize a.input = input at hsteps
    cases hsteps with
    | starts hst => exact .starts hst
    | moves hp hm => exact .moves hp hm
    | mailbox hm hmb => exact .mailbox hmb

end VtiDidcomm.Session
