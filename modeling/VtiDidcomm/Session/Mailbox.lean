import VtiDidcomm.Did.Scid
import VtiDidcomm.Js.Error
import VtiDidcomm.Lts.NumberedQueue
import VtiDidcomm.Lts.Run

/-!
# The mailbox

What a `MediatorSession` correlates replies with: the inbox of messages no waiter has claimed and
the waiters no message has answered (`_deliver`, `waitFor`, the waiters' timers, `close` and the
socket events that fail every waiter). Delivered messages and waiters are numbered as they come; the
numbers are bookkeeping, and name them in the events.

`Correlated` is the invariant. `mailbox_correlates` is what it gives: nothing is lost, nothing is
answered twice, and the oldest goes first.
-/

namespace VtiDidcomm.Mailbox
open Js

/-- `VerifiedSender`: who sent an inbound message, as proven by its envelope. -/
structure Sender where
  did : JsString
  kid : JsString

/-- The `from` option of `waitFor`. -/
inductive FromOption where
  | any
  | one (did : JsString)
  | many (dids : List JsString)

/-- An inbox entry. -/
structure Buffered where
  seq : Nat
  thid : Option Json
  message : Json
  sender : Sender

/-- A pending waiter; its number is also its timer's. -/
structure Waiter where
  id : Nat
  thid : JsString
  froms : Option (List JsString)

/-- The correlation state of a session. -/
structure State where
  inbox : List Buffered := []
  waiters : List Waiter := []
  timers : List Nat := []
  nextMessage : Nat := 0
  nextWaiter : Nat := 0

/-- What a step of the mailbox shows. -/
inductive Event where
  /-- A delivered message resolved a pending waiter. -/
  | handed (n : Nat) (message : Json) (sender : Sender) (id : Nat)
  /-- A delivered message was buffered, and the oldest dropped when over the cap. -/
  | buffered (n : Nat) (message : Json) (sender : Sender) (dropped : Option Nat)
  /-- A delivered message answers nothing, and was not buffered. -/
  | passed (n : Nat) (message : Json) (sender : Sender)
  /-- `waitFor` resolved at once with a buffered message. -/
  | claimed (id : Nat) (thid : JsString) (from' : FromOption) (n : Nat)
  /-- `waitFor` registered a waiter. -/
  | waiting (id : Nat) (thid : JsString) (from' : FromOption)
  /-- `waitFor` threw. -/
  | invalid (err : JsError)
  /-- Waiters were rejected. -/
  | rejected (ids : List Nat)

/-- What happens to a mailbox. -/
inductive Input where
  | deliver (message : Json) (sender : Sender)
  | waitFor (thid : JsString) (from' : FromOption)
  | expire (timer : Nat)
  /-- The socket closed or failed. -/
  | socketDown
  | close

/-- `MAX_INBOX` -/
def maxInbox : Nat := 256

/-- `PROBLEM_REPORT_TYPE` -/
def problemReportType : JsString := js "https://didcomm.org/report-problem/2.0/problem-report"

/-- `threadOf`: the thread a message answers. -/
def threadOf (message : Json) : Option Json :=
  if !Json.isNullish (message.get (js "thid")) then message.get (js "thid")
  else if Json.asString (message.get (js "type")) = some problemReportType &&
      !Json.isNullish (message.get (js "pthid")) then message.get (js "pthid")
  else message.get (js "id")

/-- `normalizeFrom`: the identities a waiter accepts, or `none` for any. -/
def normalizeFrom : FromOption → Except JsError (Option (List JsString))
  | .any => .ok none
  | .one did => normalizeList [did]
  | .many dids => normalizeList dids
where
  /-- The list form of `from`. -/
  normalizeList (list : List JsString) : Except JsError (Option (List JsString)) :=
    if list = [] || list.any (· = []) then
      .error (typeError (js
        "mediator-transport: waitFor `from` must be a DID or a non-empty list of DIDs"))
    else .ok (some (list.map identityOfKid))

/-- `acceptsSender` -/
def acceptsSender (froms : Option (List JsString)) (sender : Sender) : Bool :=
  match froms with
  | none => true
  | some list => sender.did ∈ list

/-- Whether a message of thread `thid` from `sender` answers a wait for `t` from `froms`. -/
def answers (t : JsString) (froms : Option (List JsString)) (thid : Option Json) (sender : Sender) :
    Bool :=
  Json.asString thid = some t && acceptsSender froms sender

/-- Whether a waiter takes a message of thread `thid` from `sender`. -/
def Waiter.takes (w : Waiter) (thid : Option Json) (sender : Sender) : Bool :=
  answers w.thid w.froms thid sender

/-- Whether a message answers nothing: the mediator sent it unthreaded. -/
def unthreaded (message : Json) : Bool :=
  Json.isNullish (message.get (js "thid")) && Json.isNullish (message.get (js "pthid"))

variable (mediatorDid : JsString)

/-- `_deliver`, up to the listener. -/
def deliver (mb : State) (message : Json) (sender : Sender) : State × Event :=
  let n := mb.nextMessage
  let thid := threadOf message
  let next := { mb with nextMessage := n + 1 }
  match mb.waiters.find? (·.takes thid sender) with
  | some w =>
    ({ next with
        waiters := mb.waiters.eraseP (·.takes thid sender)
        timers := mb.timers.filter (· ≠ w.id) },
      .handed n message sender w.id)
  | none =>
    if sender.did = identityOfKid mediatorDid && unthreaded message then
      (next, .passed n message sender)
    else
      let inbox := mb.inbox ++ [⟨n, thid, message, sender⟩]
      if maxInbox < inbox.length then
        ({ next with inbox := inbox.tail },
          .buffered n message sender (inbox.head?.map (·.seq)))
      else ({ next with inbox }, .buffered n message sender none)

/-- `waitFor`: a buffered message that answers is claimed, or a waiter is registered. -/
def waitFor (mb : State) (thid : JsString) (from' : FromOption) : State × Event :=
  match normalizeFrom from' with
  | .error err => (mb, .invalid err)
  | .ok froms =>
    let id := mb.nextWaiter
    let next := { mb with nextWaiter := id + 1 }
    match mb.inbox.find? (fun m => answers thid froms m.thid m.sender) with
    | some m =>
      ({ next with inbox := mb.inbox.eraseP fun m => answers thid froms m.thid m.sender },
        .claimed id thid from' m.seq)
    | none =>
      ({ next with waiters := mb.waiters ++ [⟨id, thid, froms⟩], timers := mb.timers ++ [id] },
        .waiting id thid from')

/-- A waiter's timer fires. -/
def expire (mb : State) (timer : Nat) : Option (State × Event) :=
  if timer ∈ mb.timers then
    some ({ mb with
        waiters := mb.waiters.eraseP (·.id = timer)
        timers := mb.timers.filter (· ≠ timer) },
      .rejected [timer])
  else none

/-- `for (const w of this._waiters.splice(0)) { clearTimeout(w.timer); w.reject(…) }` -/
def rejectAll (mb : State) : State × Event :=
  let ids := mb.waiters.map (·.id)
  ({ mb with waiters := [], timers := mb.timers.filter (· ∉ ids) }, .rejected ids)

/-- One step of the mailbox; `none` for a timer that is not running. -/
def step (mb : State) : Input → Option (State × Event)
  | .deliver message sender => some (deliver mediatorDid mb message sender)
  | .waitFor thid from' => some (waitFor mb thid from')
  | .expire timer => expire mb timer
  | .socketDown => some (rejectAll mb)
  | .close => some (rejectAll mb)

/-- One step of the mailbox and the event it emits. -/
abbrev Step : State → List Event → State → Prop := Lts.Does (step mediatorDid)

/-- `sendAndWait`, as the mailbox sees it: `session.waitFor(id, timeoutMs, { from: this.vtaDid })`. -/
def sendAndWait (id vtaDid : JsString) : Input := .waitFor id (.one vtaDid)

/-! ## What the steps do -/

/-- What a step of the mailbox can do. -/
inductive Steps (mb : State) : State → Event → Prop where
  | handed {message sender w} :
    mb.waiters.find? (·.takes (threadOf message) sender) = some w →
    Steps mb
      { mb with
        waiters := mb.waiters.eraseP (·.takes (threadOf message) sender)
        timers := mb.timers.filter (· ≠ w.id)
        nextMessage := mb.nextMessage + 1 }
      (.handed mb.nextMessage message sender w.id)
  | passed (message sender) :
    Steps mb { mb with nextMessage := mb.nextMessage + 1 } (.passed mb.nextMessage message sender)
  | buffered {message sender} :
    mb.waiters.find? (·.takes (threadOf message) sender) = none → mb.inbox.length < maxInbox →
    Steps mb
      { mb with
        inbox := mb.inbox ++ [⟨mb.nextMessage, threadOf message, message, sender⟩]
        nextMessage := mb.nextMessage + 1 }
      (.buffered mb.nextMessage message sender none)
  | shifted {message sender b rest} :
    mb.waiters.find? (·.takes (threadOf message) sender) = none → maxInbox ≤ mb.inbox.length →
    mb.inbox = b :: rest →
    Steps mb
      { mb with
        inbox := rest ++ [⟨mb.nextMessage, threadOf message, message, sender⟩]
        nextMessage := mb.nextMessage + 1 }
      (.buffered mb.nextMessage message sender (some b.seq))
  | invalid (err) : Steps mb mb (.invalid err)
  | claimed {thid from' froms m} :
    normalizeFrom from' = .ok froms →
    mb.inbox.find? (fun m => answers thid froms m.thid m.sender) = some m →
    Steps mb
      { mb with
        inbox := mb.inbox.eraseP fun m => answers thid froms m.thid m.sender
        nextWaiter := mb.nextWaiter + 1 }
      (.claimed mb.nextWaiter thid from' m.seq)
  | waiting {thid from' froms} :
    normalizeFrom from' = .ok froms →
    mb.inbox.find? (fun m => answers thid froms m.thid m.sender) = none →
    Steps mb
      { mb with
        waiters := mb.waiters ++ [⟨mb.nextWaiter, thid, froms⟩]
        timers := mb.timers ++ [mb.nextWaiter]
        nextWaiter := mb.nextWaiter + 1 }
      (.waiting mb.nextWaiter thid from')
  | expired {timer} : timer ∈ mb.timers →
    Steps mb
      { mb with
        waiters := mb.waiters.eraseP (·.id = timer)
        timers := mb.timers.filter (· ≠ timer) }
      (.rejected [timer])
  | rejectedAll :
    Steps mb
      { mb with waiters := [], timers := mb.timers.filter (· ∉ mb.waiters.map (·.id)) }
      (.rejected (mb.waiters.map (·.id)))

variable {mediatorDid}

/-- A step of a run is one of the cases. -/
lemma Step.steps {mb mb' : State} {evs : List Event} (h : Step mediatorDid mb evs mb') :
    ∃ e, evs = [e] ∧ Steps mb mb' e := by
  obtain ⟨input, e, hstep, rfl⟩ := h
  refine ⟨e, rfl, ?_⟩
  cases input with
  | deliver message sender =>
    simp only [step, deliver, Option.some.injEq] at hstep
    split at hstep
    · rename_i w hw
      cases hstep
      exact .handed hw
    rename_i hnone
    split at hstep
    · -- an unthreaded message of the mediator is not kept
      cases hstep
      exact .passed message sender
    split at hstep
    · -- a full inbox drops its oldest message
      rename_i hlen
      cases hinbox : mb.inbox with
      | nil => simp [hinbox, maxInbox] at hlen
      | cons b rest =>
        simp only [hinbox, List.cons_append, List.tail_cons, List.head?_cons, Option.map_some,
          Prod.mk.injEq] at hstep
        obtain ⟨rfl, rfl⟩ := hstep
        refine .shifted hnone ?_ hinbox
        simp only [List.length_append, List.length_singleton] at hlen
        omega
    · rename_i hlen
      cases hstep
      refine .buffered hnone ?_
      simp only [List.length_append, List.length_singleton] at hlen
      omega
  | waitFor thid from' =>
    simp only [step, waitFor, Option.some.injEq] at hstep
    split at hstep
    · cases hstep
      exact .invalid _
    rename_i froms hfroms
    -- the answer may be in the inbox already
    split at hstep
    · rename_i m hm
      cases hstep
      exact .claimed hfroms hm
    · rename_i hm
      cases hstep
      exact .waiting hfroms hm
  | expire timer =>
    simp only [step, expire] at hstep
    split at hstep
    · rename_i hmem
      cases hstep
      exact .expired hmem
    · cases hstep
  | socketDown =>
    cases hstep
    exact .rejectedAll
  | close =>
    cases hstep
    exact .rejectedAll

/-- A waiter that a step registers has a new number. -/
lemma Steps.old_waiters {mb mb' : State} {e : Event} (h : Steps mb mb' e) :
    mb.nextWaiter ≤ mb'.nextWaiter ∧
      ∀ w ∈ mb'.waiters, w ∈ mb.waiters ∨ mb.nextWaiter ≤ w.id := by
  cases h with
  | handed | expired => exact ⟨Nat.le_refl _, fun w hw => .inl (List.mem_of_mem_eraseP hw)⟩
  | claimed => exact ⟨Nat.le_succ _, fun w hw => .inl hw⟩
  | waiting =>
    refine ⟨Nat.le_succ _, fun w hw => ?_⟩
    rcases List.mem_append.mp hw with hw | hw
    · exact .inl hw
    · cases List.mem_singleton.mp hw
      exact .inr (Nat.le_refl _)
  | rejectedAll => exact ⟨Nat.le_refl _, by simp⟩
  | passed | buffered | shifted | invalid => exact ⟨Nat.le_refl _, fun w hw => .inl hw⟩

/-- The waiters of a run are those it began with and new ones. -/
lemma old_waiters_of_run {mb mb' : State} {tr : List Event}
    (r : Lts.Run (Step mediatorDid) mb tr mb') :
    mb.nextWaiter ≤ mb'.nextWaiter ∧
      ∀ w ∈ mb'.waiters, w ∈ mb.waiters ∨ mb.nextWaiter ≤ w.id := by
  induction r with
  | nil => exact ⟨Nat.le_refl _, fun w hw => .inl hw⟩
  | snoc _ hs ih =>
    obtain ⟨e, -, h⟩ := hs.steps
    obtain ⟨hle, hold⟩ := ih
    obtain ⟨hle', hnew⟩ := h.old_waiters
    refine ⟨Nat.le_trans hle hle', fun w hw => ?_⟩
    rcases hnew w hw with hw | hw
    · exact hold w hw
    · exact .inr (Nat.le_trans hle hw)

/-! ## What the events say -/

/-- The delivered messages an event is about. -/
def Event.delivers : Event → List Nat
  | .handed n .. => [n]
  | .buffered n .. => [n]
  | .passed n .. => [n]
  | _ => []

/-- The waiters an event starts. -/
def Event.waits : Event → List Nat
  | .claimed id .. => [id]
  | .waiting id .. => [id]
  | _ => []

/-- The messages an event resolves a waiter with. -/
def Event.resolves : Event → List Nat
  | .handed n .. => [n]
  | .claimed _ _ _ n => [n]
  | _ => []

/-- The waiters an event settles. -/
def Event.settles : Event → List Nat
  | .handed _ _ _ id => [id]
  | .claimed id .. => [id]
  | .rejected ids => ids
  | _ => []

/-- The call of `waitFor` an event is about. -/
def Event.call : Event → Option (JsString × FromOption)
  | .claimed _ thid from' _ => some (thid, from')
  | .waiting _ thid from' => some (thid, from')
  | _ => none

/-- The message is on the thread, and its sender one of the identities of `from`, if given. -/
def Answers (thid : JsString) (from' : FromOption) (message : Json) (sender : Sender) : Prop :=
  Json.asString (threadOf message) = some thid ∧
    ∃ froms, normalizeFrom from' = .ok froms ∧ ∀ list, froms = some list → sender.did ∈ list

/-- What an event says of the events before it. -/
def Correct (pre : List Event) : Event → Prop
  | .handed _ message sender id =>
    ∃ thid from', .waiting id thid from' ∈ pre ∧ Answers thid from' message sender
  | .claimed _ thid from' n =>
    ∃ message sender dropped, .buffered n message sender dropped ∈ pre ∧
      Answers thid from' message sender
  | .rejected ids => ∀ id ∈ ids, ∃ thid from', .waiting id thid from' ∈ pre
  | .buffered n _ _ (some k) =>
    ∃ later : List Nat, later.Nodup ∧ later.length = maxInbox ∧
      ∀ j ∈ later, k < j ∧ (j = n ∨ ∃ message sender dropped, .buffered j message sender dropped ∈ pre)
  | _ => True

/-- The `waitFor` call of event `e` resolves with a message and its sender, between the events `pre`
before it and `post` after it. -/
def Outcome (pre : List Event) (e : Event) (post : List Event) (message : Json) (sender : Sender) :
    Prop :=
  match e with
  | .waiting id _ _ => ∃ n, .handed n message sender id ∈ post
  | .claimed _ _ _ n => ∃ dropped, .buffered n message sender dropped ∈ pre
  | _ => False

/-- Nothing that waits on one side matches the other, and every number is used as the events say. -/
structure Correlated (mb : State) (tr : List Event) : Prop where
  unmatched : ∀ b ∈ mb.inbox, ∀ w ∈ mb.waiters, w.takes b.thid b.sender = false
  bounded : mb.inbox.length ≤ maxInbox
  messages : Lts.Numbered Buffered.seq mb.inbox mb.nextMessage (tr.flatMap Event.resolves)
  waiters : Lts.Numbered Waiter.id mb.waiters mb.nextWaiter (tr.flatMap Event.settles)
  delivered : Lts.Numbered Buffered.seq [] mb.nextMessage (tr.flatMap Event.delivers)
  waited : Lts.Numbered Waiter.id [] mb.nextWaiter (tr.flatMap Event.waits)
  timers : ∀ t ∈ mb.timers, ∃ w ∈ mb.waiters, w.id = t
  buffered : ∀ b ∈ mb.inbox, b.thid = threadOf b.message ∧
    ∃ dropped, .buffered b.seq b.message b.sender dropped ∈ tr
  waiting : ∀ w ∈ mb.waiters, ∃ from', normalizeFrom from' = .ok w.froms ∧
    .waiting w.id w.thid from' ∈ tr
  correct : Lts.Guarded Correct tr

/-- An empty mailbox is correlated. -/
lemma Correlated.init : Correlated {} [] where
  unmatched := by simp
  bounded := by simp
  messages := .empty
  waiters := .empty
  delivered := .empty
  waited := .empty
  timers := by simp
  buffered := by simp
  waiting := by simp
  correct := Lts.guarded_nil

/-- What the mailbox takes for an answer is one. -/
lemma Answers.of_answers {thid : JsString} {from' : FromOption} {froms : Option (List JsString)}
    {message : Json} {sender : Sender} (hf : normalizeFrom from' = .ok froms)
    (h : answers thid froms (threadOf message) sender = true) :
    Answers thid from' message sender := by
  simp only [answers, Bool.and_eq_true, decide_eq_true_eq] at h
  refine ⟨h.1, froms, hf, ?_⟩
  rintro list rfl
  simpa [acceptsSender] using h.2

/-- A waiter that takes a message was started by a call the message answers. -/
lemma Correlated.answers_of_find? {mb : State} {tr : List Event} (inv : Correlated mb tr)
    {message : Json} {sender : Sender} {w : Waiter}
    (hw : mb.waiters.find? (·.takes (threadOf message) sender) = some w) :
    ∃ thid from', .waiting w.id thid from' ∈ tr ∧ Answers thid from' message sender := by
  obtain ⟨from', hf, he⟩ := inv.waiting w (List.mem_of_find?_eq_some hw)
  have ht : w.takes (threadOf message) sender = true := by simpa using List.find?_some hw
  exact ⟨w.thid, from', he, .of_answers hf ht⟩

/-- A message that a call finds in the inbox was delivered, and answers the call. -/
lemma Correlated.answers_of_inbox {mb : State} {tr : List Event} (inv : Correlated mb tr)
    {thid : JsString} {from' : FromOption} {froms : Option (List JsString)} {b : Buffered}
    (hf : normalizeFrom from' = .ok froms)
    (hb : mb.inbox.find? (fun m => answers thid froms m.thid m.sender) = some b) :
    ∃ message sender dropped, .buffered b.seq message sender dropped ∈ tr ∧
      Answers thid from' message sender := by
  obtain ⟨hthid, dropped, he⟩ := inv.buffered b (List.mem_of_find?_eq_some hb)
  have ha := List.find?_some hb
  rw [hthid] at ha
  exact ⟨b.message, b.sender, dropped, he, .of_answers hf ha⟩

/-- A full inbox is `maxInbox` messages, the new one with it, that came after its oldest. -/
lemma Correlated.later_of_full {mb : State} {tr : List Event} (inv : Correlated mb tr)
    {b : Buffered} {rest : List Buffered} (hinbox : mb.inbox = b :: rest)
    (hfull : maxInbox ≤ mb.inbox.length) :
    ∃ later : List Nat, later.Nodup ∧ later.length = maxInbox ∧
      ∀ j ∈ later, b.seq < j ∧ (j = mb.nextMessage ∨
        ∃ message sender dropped, .buffered j message sender dropped ∈ tr) := by
  have hlen := inv.bounded
  have hnum := inv.messages
  rw [hinbox] at hlen hfull hnum
  obtain ⟨hafter, hrest⟩ := List.pairwise_cons.mp hnum.increasing
  refine ⟨rest.map (·.seq) ++ [mb.nextMessage], ?_, ?_, ?_⟩
  · refine List.nodup_append.mpr ⟨?_, List.nodup_singleton _, ?_⟩
    · exact List.pairwise_map.mpr (hrest.imp Nat.ne_of_lt)
    · rintro j hj k hk rfl
      cases List.mem_singleton.mp hk
      obtain ⟨c, hc, he⟩ := List.mem_map.mp hj
      exact Nat.ne_of_lt (hnum.lt c (List.mem_cons_of_mem _ hc)) he
  · simp only [List.length_cons] at hlen hfull
    simp only [List.length_append, List.length_map, List.length_singleton]
    omega
  · intro j hj
    obtain hj | hj := List.mem_append.mp hj
    · obtain ⟨c, hc, rfl⟩ := List.mem_map.mp hj
      obtain ⟨-, dropped, he⟩ := inv.buffered c (hinbox ▸ List.mem_cons_of_mem _ hc)
      exact ⟨hafter c hc, .inr ⟨c.message, c.sender, dropped, he⟩⟩
    · cases List.mem_singleton.mp hj
      exact ⟨hnum.lt b (by simp), .inl rfl⟩

section Step
variable {mb mb' : State} {tr : List Event} {e : Event}

/-- A message that no waiter takes is put behind an inbox that no waiter takes from. -/
lemma unmatched_push {inbox : List Buffered} {waiters : List Waiter} {b : Buffered}
    (h : ∀ b ∈ inbox, ∀ w ∈ waiters, w.takes b.thid b.sender = false)
    (hnone : waiters.find? (·.takes b.thid b.sender) = none) :
    ∀ c ∈ inbox ++ [b], ∀ w ∈ waiters, w.takes c.thid c.sender = false := by
  intro c hc w hw
  obtain hc | hc := List.mem_append.mp hc
  · exact h c hc w hw
  · cases List.mem_singleton.mp hc
    simpa using List.find?_eq_none.mp hnone w hw

/-- No buffered message is left that a waiter takes. -/
lemma Correlated.step_unmatched (inv : Correlated mb tr) (h : Steps mb mb' e) :
    ∀ b ∈ mb'.inbox, ∀ w ∈ mb'.waiters, w.takes b.thid b.sender = false := by
  have hold := inv.unmatched
  cases h with
  | handed hw => exact fun b hb w hw => hold b hb w (List.mem_of_mem_eraseP hw)
  | passed => exact hold
  | buffered hnone hlt => exact unmatched_push hold hnone
  | shifted hnone hfull hinbox =>
    refine unmatched_push (fun b hb => hold b ?_) hnone
    exact hinbox ▸ List.mem_cons_of_mem _ hb
  | invalid => exact hold
  | claimed hf hm => exact fun b hb => hold b (List.mem_of_mem_eraseP hb)
  | waiting hf hnone =>
    intro b hb w hw
    obtain hw | hw := List.mem_append.mp hw
    · exact hold b hb w hw
    · cases List.mem_singleton.mp hw
      simpa [Waiter.takes] using List.find?_eq_none.mp hnone b hb
  | expired ht => exact fun b hb w hw => hold b hb w (List.mem_of_mem_eraseP hw)
  | rejectedAll => simp

/-- The inbox stays bounded. -/
lemma Correlated.step_bounded (inv : Correlated mb tr) (h : Steps mb mb' e) :
    mb'.inbox.length ≤ maxInbox := by
  have hold := inv.bounded
  cases h with
  | handed | passed | invalid | waiting | expired | rejectedAll => exact hold
  | buffered hnone hlt =>
    simp only [List.length_append, List.length_singleton]
    omega
  | shifted hnone hfull hinbox =>
    simp only [hinbox, List.length_cons] at hold
    simp only [List.length_append, List.length_singleton]
    omega
  | claimed hf hm => exact Nat.le_trans (List.length_eraseP_le) hold

/-- Each message is resolved once. -/
lemma Correlated.step_messages (inv : Correlated mb tr) (h : Steps mb mb' e) :
    Lts.Numbered Buffered.seq mb'.inbox mb'.nextMessage ((tr ++ [e]).flatMap Event.resolves) := by
  have hold := inv.messages
  rw [Lts.flatMap_snoc]
  cases h with
  | handed hw => exact hold.takeNew
  | passed => simpa [Event.resolves] using hold.skip
  | buffered hnone hlt => simpa [Event.resolves] using hold.push rfl
  | shifted hnone hfull hinbox =>
    rw [hinbox] at hold
    simpa [Event.resolves] using (hold.sublist (List.sublist_cons_self _ _)).push rfl
  | claimed hf hm => exact hold.takeFirst hm
  | invalid | waiting | expired | rejectedAll => simpa [Event.resolves] using hold

/-- Each waiter is settled once. -/
lemma Correlated.step_waiters (inv : Correlated mb tr) (h : Steps mb mb' e) :
    Lts.Numbered Waiter.id mb'.waiters mb'.nextWaiter ((tr ++ [e]).flatMap Event.settles) := by
  have hold := inv.waiters
  rw [Lts.flatMap_snoc]
  cases h with
  | handed hw => exact hold.takeFirst hw
  | claimed hf hm => exact hold.takeNew
  | waiting hf hnone => simpa [Event.settles] using hold.push rfl
  | @expired timer ht =>
    obtain ⟨w, hw, rfl⟩ := inv.timers timer ht
    obtain ⟨v, hv⟩ := Option.isSome_iff_exists.mp
      (List.find?_isSome.mpr ⟨w, hw, by simp⟩ : (mb.waiters.find? (·.id = w.id)).isSome)
    have hid : v.id = w.id := by simpa using List.find?_some hv
    have htake := hold.takeFirst hv
    rw [hid] at htake
    exact htake
  | rejectedAll => exact hold.takeAll
  | passed | buffered | shifted | invalid => simpa [Event.settles] using hold

/-- Messages are numbered as they come. -/
lemma Correlated.step_delivered (inv : Correlated mb tr) (h : Steps mb mb' e) :
    Lts.Numbered Buffered.seq [] mb'.nextMessage ((tr ++ [e]).flatMap Event.delivers) := by
  have hold := inv.delivered
  rw [Lts.flatMap_snoc]
  cases h with
  | handed | passed | buffered | shifted => exact hold.takeNew
  | claimed | invalid | waiting | expired | rejectedAll => simpa [Event.delivers] using hold

/-- Waiters are numbered as they come. -/
lemma Correlated.step_waited (inv : Correlated mb tr) (h : Steps mb mb' e) :
    Lts.Numbered Waiter.id [] mb'.nextWaiter ((tr ++ [e]).flatMap Event.waits) := by
  have hold := inv.waited
  rw [Lts.flatMap_snoc]
  cases h with
  | claimed | waiting => exact hold.takeNew
  | handed | passed | buffered | shifted | invalid | expired | rejectedAll =>
    simpa [Event.waits] using hold

/-- A timer that is not cleared is the timer of a waiter that stays. -/
lemma timers_erase {timers : List Nat} {waiters waiters' : List Waiter} {id : Nat}
    (h : ∀ t ∈ timers, ∃ w ∈ waiters, w.id = t)
    (hstay : ∀ w ∈ waiters, w.id ≠ id → w ∈ waiters') :
    ∀ t ∈ timers.filter (· ≠ id), ∃ w ∈ waiters', w.id = t := by
  intro t ht
  obtain ⟨ht, hne⟩ := List.mem_filter.mp ht
  obtain ⟨w, hw, rfl⟩ := h t ht
  exact ⟨w, hstay w hw (by simpa using hne), rfl⟩

/-- Only waiters have timers. -/
lemma Correlated.step_timers (inv : Correlated mb tr) (h : Steps mb mb' e) :
    ∀ t ∈ mb'.timers, ∃ w ∈ mb'.waiters, w.id = t := by
  have hold := inv.timers
  cases h with
  | @handed message sender w hw =>
    apply timers_erase hold
    intro v hv hne
    exact inv.waiters.mem_eraseP hw hv hne
  | waiting hf hnone =>
    intro t ht
    obtain ht | ht := List.mem_append.mp ht
    · obtain ⟨w, hw, rfl⟩ := hold t ht
      exact ⟨w, List.mem_append_left _ hw, rfl⟩
    · cases List.mem_singleton.mp ht
      exact ⟨_, List.mem_append_right _ (List.mem_singleton_self _), rfl⟩
  | expired ht =>
    apply timers_erase hold
    intro v hv hne
    exact (List.mem_eraseP_of_neg (by simpa using hne)).mpr hv
  | rejectedAll =>
    intro t ht
    obtain ⟨ht, hne⟩ := List.mem_filter.mp ht
    obtain ⟨w, hw, rfl⟩ := hold t ht
    simp only [List.mem_map, not_exists, decide_eq_true_eq] at hne
    exact absurd ⟨hw, rfl⟩ (hne w)
  | passed | buffered | shifted | invalid | claimed => exact hold

/-- A buffered message was buffered. -/
lemma Correlated.step_buffered (inv : Correlated mb tr) (h : Steps mb mb' e) :
    ∀ b ∈ mb'.inbox, b.thid = threadOf b.message ∧
      ∃ dropped, .buffered b.seq b.message b.sender dropped ∈ tr ++ [e] := by
  have hold : ∀ b ∈ mb.inbox, b.thid = threadOf b.message ∧
      ∃ dropped, .buffered b.seq b.message b.sender dropped ∈ tr ++ [e] := by
    intro b hb
    obtain ⟨hthid, dropped, he⟩ := inv.buffered b hb
    exact ⟨hthid, dropped, List.mem_append_left _ he⟩
  cases h with
  | buffered hnone hlt =>
    intro b hb
    obtain hb | hb := List.mem_append.mp hb
    · exact hold b hb
    · cases List.mem_singleton.mp hb
      exact ⟨rfl, none, by simp⟩
  | @shifted message sender c rest hnone hfull hinbox =>
    intro b hb
    obtain hb | hb := List.mem_append.mp hb
    · exact hold b (hinbox ▸ List.mem_cons_of_mem _ hb)
    · cases List.mem_singleton.mp hb
      exact ⟨rfl, some c.seq, by simp⟩
  | claimed hf hm => exact fun b hb => hold b (List.mem_of_mem_eraseP hb)
  | handed | passed | invalid | waiting | expired | rejectedAll => exact hold

/-- A waiter waits under the options of its call. -/
lemma Correlated.step_waiting (inv : Correlated mb tr) (h : Steps mb mb' e) :
    ∀ w ∈ mb'.waiters, ∃ from', normalizeFrom from' = .ok w.froms ∧
      .waiting w.id w.thid from' ∈ tr ++ [e] := by
  have hold : ∀ w ∈ mb.waiters, ∃ from', normalizeFrom from' = .ok w.froms ∧
      .waiting w.id w.thid from' ∈ tr ++ [e] := by
    intro w hw
    obtain ⟨from', hf, he⟩ := inv.waiting w hw
    exact ⟨from', hf, List.mem_append_left _ he⟩
  cases h with
  | handed | expired => exact fun w hw => hold w (List.mem_of_mem_eraseP hw)
  | @waiting thid from' froms hf hnone =>
    intro w hw
    obtain hw | hw := List.mem_append.mp hw
    · exact hold w hw
    · cases List.mem_singleton.mp hw
      exact ⟨from', hf, by simp⟩
  | rejectedAll => simp
  | passed | buffered | shifted | invalid | claimed => exact hold

/-- A call is settled with an answer to it. -/
lemma Correlated.step_correct (inv : Correlated mb tr) (h : Steps mb mb' e) : Correct tr e := by
  cases h with
  | handed hw => exact inv.answers_of_find? hw
  | claimed hf hm => exact inv.answers_of_inbox hf hm
  | shifted hnone hfull hinbox => exact inv.later_of_full hinbox hfull
  | expired ht =>
    intro id hid
    cases List.mem_singleton.mp hid
    obtain ⟨w, hw, rfl⟩ := inv.timers _ ht
    obtain ⟨from', -, he⟩ := inv.waiting w hw
    exact ⟨w.thid, from', he⟩
  | rejectedAll =>
    intro id hid
    obtain ⟨w, hw, rfl⟩ := List.mem_map.mp hid
    obtain ⟨from', -, he⟩ := inv.waiting w hw
    exact ⟨w.thid, from', he⟩
  | passed | buffered | invalid | waiting => trivial

/-- A step keeps the mailbox correlated. -/
lemma Correlated.step (inv : Correlated mb tr) (h : Steps mb mb' e) :
    Correlated mb' (tr ++ [e]) where
  unmatched := inv.step_unmatched h
  bounded := inv.step_bounded h
  messages := inv.step_messages h
  waiters := inv.step_waiters h
  delivered := inv.step_delivered h
  waited := inv.step_waited h
  timers := inv.step_timers h
  buffered := inv.step_buffered h
  waiting := inv.step_waiting h
  correct := Lts.guarded_snoc.mpr ⟨inv.correct, inv.step_correct h⟩

end Step

/-- The mailbox is correlated after any run. -/
lemma correlated_of_run {mb : State} {tr : List Event} (r : Lts.Run (Step mediatorDid) {} tr mb) :
    Correlated mb tr := by
  refine r.invariant .init fun inv hs => ?_
  obtain ⟨e, rfl, h⟩ := hs.steps
  exact inv.step h

/-! ## What a run gives -/

/-- A waiter is of one call. -/
lemma Correlated.call_unique {mb : State} {tr : List Event} (inv : Correlated mb tr)
    {e e' : Event} (he : e ∈ tr) (he' : e' ∈ tr) {id : Nat} (hid : id ∈ e.waits)
    (hid' : id ∈ e'.waits) : e = e' :=
  Lts.eq_of_mem_flatMap inv.waited.nodup he he' hid hid'

/-- What a call resolves with answers the call. -/
lemma Correlated.outcome {mb : State} {pre post : List Event} {e : Event}
    (inv : Correlated mb (pre ++ e :: post)) {thid : JsString} {from' : FromOption}
    (hcall : e.call = some (thid, from')) {message : Json} {sender : Sender}
    (h : Outcome pre e post message sender) : Answers thid from' message sender := by
  cases e with
  | waiting id thid₀ from₀ =>
    cases hcall
    obtain ⟨n, hn⟩ := h
    obtain ⟨mid, last, rfl⟩ := List.append_of_mem hn
    have hcorrect : Correct (pre ++ .waiting id thid from' :: mid) (.handed n message sender id) :=
      inv.correct _ _ last (by simp)
    obtain ⟨thid', from'', hmem, ha⟩ := hcorrect
    have hmem : Event.waiting id thid' from'' ∈
        pre ++ .waiting id thid from' :: (mid ++ .handed n message sender id :: last) := by
      simp only [List.mem_append, List.mem_cons] at hmem ⊢
      tauto
    have hsame := inv.call_unique hmem (List.mem_append_right _ (List.mem_cons_self ..))
      (List.mem_singleton_self id) (List.mem_singleton_self id)
    cases hsame
    exact ha
  | claimed id thid₀ from₀ n =>
    cases hcall
    obtain ⟨dropped, hn⟩ := h
    obtain ⟨message', sender', dropped', hmem, ha⟩ := inv.correct pre _ post rfl
    have hsame := Lts.eq_of_mem_flatMap inv.delivered.nodup (List.mem_append_left _ hn)
      (List.mem_append_left _ hmem) (List.mem_singleton_self n) (List.mem_singleton_self n)
    cases hsame
    exact ha
  | handed | buffered | passed | invalid | rejected => cases hcall

/-- A buffered message stays, or a call claims it, or it is the oldest of a full inbox. -/
lemma Correlated.stays {mb mb' : State} {tr : List Event} (inv : Correlated mb tr) {e : Event}
    (h : Steps mb mb' e) {b : Buffered} (hb : b ∈ mb.inbox) :
    b ∈ mb'.inbox ∨ (∃ id thid from', e = .claimed id thid from' b.seq) ∨
      ∃ n message sender, e = .buffered n message sender (some b.seq) := by
  cases h with
  | @claimed thid from' froms m hf hm =>
    by_cases hseq : b.seq = m.seq
    · exact .inr (.inl ⟨_, thid, from', by rw [hseq]⟩)
    · exact .inl (inv.messages.mem_eraseP hm hb hseq)
  | @shifted message sender c rest hnone hfull hinbox =>
    rw [hinbox] at hb
    obtain rfl | hb := List.mem_cons.mp hb
    · exact .inr (.inr ⟨_, message, sender, rfl⟩)
    · exact .inl (List.mem_append_left _ hb)
  | buffered => exact .inl (List.mem_append_left _ hb)
  | handed | passed | invalid | waiting | expired | rejectedAll => exact .inl hb

/-- A reply to `sendAndWait` is the VTA's. -/
lemma Answers.vta {id vtaDid : JsString} {message : Json} {sender : Sender}
    (h : Answers id (.one vtaDid) message sender) :
    sender.did = identityOfKid vtaDid ∧ Json.asString (threadOf message) = some id := by
  obtain ⟨hthread, froms, hf, ha⟩ := h
  refine ⟨?_, hthread⟩
  simp only [normalizeFrom, normalizeFrom.normalizeList] at hf
  split at hf
  · cases hf
  · cases hf
    simpa using ha _ rfl

end VtiDidcomm.Mailbox
