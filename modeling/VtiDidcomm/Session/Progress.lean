import VtiDidcomm.Lts.Ranked
import VtiDidcomm.Session.Isolation

/-!
# Handlers finish

Every frame gets a handler, and every handler ends once: whatever the others do, a handler goes on
with whatever its `await` settles with, each move brings it nearer to its end, and its last event says
how it ended. `handlers_finish` puts the three together.
-/

namespace VtiDidcomm.Session
open Js

/-- How far a handler is from its end. -/
def Phase.rank : Phase → Nat
  | .unpacking _ => 3
  | .hashing .. => 2
  | .tspHashing .. => 2
  | .delivering .. => 1
  | .tspConsuming _ => 1
  | .refusing _ => 0
  | .delivered .. => 0
  | .tspConsumed _ => 0

/-- Whether an event is the last of its handler. -/
def Event.isLast : Event → Bool
  | .ignored .. | .failed .. | .tspThrew .. | .ended .. | .acked .. => true
  | _ => false

/-- The input that settles what the handler `h` awaits. -/
inductive Settles (h : Nat) : Phase → Input → Prop where
  | unpacked {text} (resolve) : Settles h (.unpacking text) (.unpacked h resolve)
  | hashed {text r} : Settles h (.hashing text r) (.hashed h)
  | refusing {text} : Settles h (.refusing text) (.hashed h)
  | tspHashed {text qb2} : Settles h (.tspHashing text qb2) (.hashed h)
  | delivered {text r queued} (outcome) : Settles h (.delivering text r queued) (.settled h outcome)
  | tspConsumed {text} (outcome) : Settles h (.tspConsuming text) (.settled h outcome)
  | resumed {text r queued} : Settles h (.delivered text r queued) (.resumed h)
  | tspResumed {text} : Settles h (.tspConsumed text) (.resumed h)

/-- The threads of a session tell of themselves in its events. -/
abbrev Told (t : Lts.Threads Phase) (tr : List Event) : Prop :=
  t.Told Phase.rank 4 Event.handler Event.isLast tr

/-- The work the handlers have left. -/
abbrev work (s : State) : Nat := s.handlers.work Phase.rank

variable (cfg : Config)

/-- The steps of a handler that waits. -/
def HandlerStep (s : State) (evs : List Event) (s' : State) : Prop :=
  ∃ input e h, step cfg s input = some (s', e) ∧ evs = [e] ∧ e.handler = some h ∧
    s.handlers.phase h ≠ none

variable {cfg} {s s' : State}

/-- A move brings its handler nearer to its end. -/
lemma Moves.rank_lt {seen : BoundedSet JsString maxSeen} {mb mb' : Mailbox.State} {h : Nat}
    {input : Input} {p : Phase} {q : Option Phase} {e : Event}
    (hm : Moves cfg seen mb h input p q mb' e) :
    Lts.Threads.rankOf Phase.rank q < Lts.Threads.rankOf Phase.rank (some p) ∧
      e.handler = some h ∧ e.isLast = q.isNone := by
  cases hm <;> exact ⟨by simp [Lts.Threads.rankOf, Phase.rank], rfl, rfl⟩

/-- A step brings its handler nearer to its end, and moves no other. -/
lemma Steps.advances {input : Input} {e : Event} (hs : Steps cfg s input s' e) :
    s.handlers.Advances Phase.rank 4 Event.handler Event.isLast e s'.handlers := by
  cases hs with
  | starts hst => cases hst <;> exact .starts rfl rfl (by simp [Lts.Threads.rankOf, Phase.rank])
  | moves hp hm =>
    obtain ⟨hrank, howner, hlast⟩ := hm.rank_lt
    exact .moves hp howner hlast hrank
  | mailbox => exact .idle rfl

/-- The events of a handler are told by its phase. -/
lemma told_of_run {tr : List Event} (r : Lts.Run (Step cfg) {} tr s) : Told s.handlers tr := by
  have init : Told (State.handlers {}) [] := Lts.Threads.told_empty
  refine r.invariant (I := fun s tr => Told s.handlers tr) init fun inv hs => ?_
  obtain ⟨input, e, rfl, h⟩ := Step.steps hs
  exact inv.advances h.advances

/-- The result of a step moves the handler `h`, and it alone, to below a rank. -/
def Goes (s : State) (h bound : Nat) (r : State × Event) : Prop :=
  ∃ q, r.1.handlers = s.handlers.move h q ∧ r.2.handler = some h ∧
    Lts.Threads.rankOf Phase.rank q < bound

/-- Delivering goes on. -/
lemma goes_deliver (cfg : Config) (s : State) (h : Nat) (text : JsString) (r : Unpacked)
    (queued : Bool) : Goes s h 3 (deliver cfg s h text r queued) := by
  obtain ⟨sender, mb, e, -, heq⟩ | ⟨report, heq⟩ := deliver_cases cfg s h text r queued
  · rw [heq]
    exact ⟨some (.delivering text r queued), rfl, rfl, by simp [Lts.Threads.rankOf, Phase.rank]⟩
  · rw [heq]
    exact ⟨none, rfl, rfl, by simp [Lts.Threads.rankOf]⟩

/-- What follows the unpacking goes on. -/
lemma goes_afterUnpack (cfg : Config) (s : State) (h : Nat) (text : JsString)
    (resolve : Option ResolveSender) : Goes s h 4 (afterUnpack cfg s h text resolve) := by
  unfold afterUnpack
  split
  · rename_i r _
    split
    · exact ⟨some (.hashing text r), rfl, rfl, by simp [Lts.Threads.rankOf, Phase.rank]⟩
    · obtain ⟨q, hq, he, hlt⟩ := goes_deliver cfg s h text r false
      exact ⟨q, hq, he, Nat.lt_succ_of_lt hlt⟩
  · split
    · exact ⟨some (.refusing text), rfl, rfl, by simp [Lts.Threads.rankOf, Phase.rank]⟩
    · exact ⟨none, rfl, rfl, by simp [Lts.Threads.rankOf]⟩

/-- A handler that waits goes on with whatever its `await` settles with, nearer to its end. -/
lemma goes_on (cfg : Config) {h : Nat} {p : Phase} {input : Input} (hp : s.handlers.phase h = some p)
    (hi : Settles h p input) :
    ∃ r, step cfg s input = some r ∧ Goes s h (Lts.Threads.rankOf Phase.rank (some p)) r := by
  cases hi with
  | @unpacked text resolve =>
    exact ⟨afterUnpack cfg s h text resolve, by simp only [step, hp], goes_afterUnpack ..⟩
  | @hashed text r =>
    by_cases hseen : s.seen.has (cfg.sha256Hex text) = true
    · refine ⟨(s.goto h none, .acked h (cfg.sha256Hex text) false), ?_, none, rfl, rfl, ?_⟩
      · simp [step, hp, afterHash, hseen]
      · simp [Lts.Threads.rankOf]
    · exact ⟨deliver cfg s h text r true, by simp [step, hp, afterHash, hseen], goes_deliver ..⟩
  | @refusing text =>
    refine ⟨markAndAck s h (cfg.sha256Hex text), ?_, none, rfl, rfl, ?_⟩
    · simp [step, hp, afterHash]
    · simp [Lts.Threads.rankOf]
  | @tspHashed text qb2 =>
    by_cases hseen : s.seen.has (cfg.sha256Hex text) = true
    · refine ⟨(s.goto h none, .acked h (cfg.sha256Hex text) false), ?_, none, rfl, rfl, ?_⟩
      · simp [step, hp, afterHash, hseen]
      · simp [Lts.Threads.rankOf]
    · refine ⟨(s.goto h (some (.tspConsuming text)), .tspHanded h text qb2), ?_,
        some (.tspConsuming text), rfl, rfl, ?_⟩
      · simp [step, hp, afterHash, hseen]
      · simp [Lts.Threads.rankOf, Phase.rank]
  | @delivered text r queued outcome =>
    refine ⟨(s.goto h (some (.delivered text r queued)), .completed h text r queued), ?_,
      some (.delivered text r queued), rfl, rfl, ?_⟩
    · simp [step, hp, afterConsumer]
    · simp [Lts.Threads.rankOf, Phase.rank]
  | @tspConsumed text outcome =>
    cases outcome with
    | ok =>
      refine ⟨(s.goto h (some (.tspConsumed text)), .tspFulfilled h text), ?_,
        some (.tspConsumed text), rfl, rfl, ?_⟩
      · simp [step, hp, afterConsumer]
      · simp [Lts.Threads.rankOf, Phase.rank]
    | error err =>
      refine ⟨(s.goto h none, .tspThrew h text
        (reportFrameError (js "dispatch inbound TSP frame") err (some text))), ?_, none, rfl, rfl, ?_⟩
      · simp [step, hp, afterConsumer]
      · simp [Lts.Threads.rankOf]
  | @resumed text r queued =>
    cases queued with
    | true =>
      refine ⟨markAndAck s h (cfg.sha256Hex text), ?_, none, rfl, rfl, ?_⟩
      · simp [step, hp, afterHandoff]
      · simp [Lts.Threads.rankOf]
    | false =>
      refine ⟨(s.goto h none, .ended h text), ?_, none, rfl, rfl, ?_⟩
      · simp [step, hp, afterHandoff]
      · simp [Lts.Threads.rankOf]
  | @tspResumed text =>
    refine ⟨markAndAck s h (cfg.sha256Hex text), ?_, none, rfl, rfl, ?_⟩
    · simp [step, hp, afterHandoff]
    · simp [Lts.Threads.rankOf]

/-- What settles a handler's `await`. -/
lemma exists_settles (h : Nat) (p : Phase) : ∃ input, Settles h p input := by
  cases p with
  | unpacking => exact ⟨_, .unpacked none⟩
  | hashing => exact ⟨_, .hashed⟩
  | refusing => exact ⟨_, .refusing⟩
  | delivering => exact ⟨_, .delivered (.ok ())⟩
  | delivered => exact ⟨_, .resumed⟩
  | tspHashing => exact ⟨_, .tspHashed⟩
  | tspConsuming => exact ⟨_, .tspConsumed (.ok ())⟩
  | tspConsumed => exact ⟨_, .tspResumed⟩

/-- A step of a handler that waits is work done. -/
lemma HandlerStep.work_lt {evs : List Event} (hs : HandlerStep cfg s evs s') :
    evs.length = 1 ∧ work s' < work s := by
  obtain ⟨input, e, h, hstep, rfl, howner, hp⟩ := hs
  refine ⟨rfl, ?_⟩
  have hsteps := steps_of_step hstep
  cases hsteps with
  | starts hst =>
    cases hst <;>
    · obtain rfl : s.handlers.next = h := Option.some.inj howner
      exact absurd (s.handlers.fresh _ (Nat.le_refl _)) hp
  | moves hp' hm => exact Lts.Threads.work_move_lt hp' hm.rank_lt.1
  | mailbox => cases howner

/-- The handlers that wait can all be led to their ends. -/
lemma quiesces (cfg : Config) (s : State) :
    ∃ evs s', Lts.Run (HandlerStep cfg) s evs s' ∧ ∀ h, s'.handlers.phase h = none := by
  induction hw : work s using Nat.strong_induction_on generalizing s with
  | _ n ih =>
    by_cases hend : ∀ h, s.handlers.phase h = none
    · exact ⟨[], s, .nil s, hend⟩
    · push Not at hend
      obtain ⟨h, hp⟩ := hend
      obtain ⟨p, hp⟩ := Option.ne_none_iff_exists'.mp hp
      obtain ⟨input, hi⟩ := exists_settles h p
      obtain ⟨⟨s₁, e⟩, hstep, q, -, howner, -⟩ := goes_on cfg hp hi
      have hs : HandlerStep cfg s [e] s₁ := ⟨input, e, h, hstep, rfl, howner, by simp [hp]⟩
      obtain ⟨evs, s', r, hquiet⟩ := ih (work s₁) (hw ▸ hs.work_lt.2) s₁ rfl
      have first : Lts.Run (HandlerStep cfg) s ([] ++ [e]) s₁ := .snoc (.nil s) hs
      exact ⟨_, s', first.trans r, hquiet⟩

/-- Handlers finish. A handler tells at most five events, its end once if it has ended, and else not at
all. A handler that waits goes on with whatever its `await` settles with:
it is nearer to its end, and the others wait where they were. If only the handlers go on, a run is
as long as the work left at most, and some run ends with no handler waiting. -/
theorem handlers_finish (cfg : Config) {tr : List Event} {s : State}
    (r : Lts.Run (Step cfg) {} tr s) :
    (∀ h < s.handlers.next,
      (Lts.Threads.eventsOf Event.handler h tr).length ≤ 5 ∧
      (Lts.Threads.eventsOf Event.handler h tr).countP Event.isLast =
        if s.handlers.phase h = none then 1 else 0) ∧
    (∀ h p input, s.handlers.phase h = some p → Settles h p input →
      ∃ s' e, step cfg s input = some (s', e) ∧ e.handler = some h ∧
        (∀ q, s'.handlers.phase h = some q → q.rank < p.rank) ∧
        ∀ i, i ≠ h → s'.handlers.phase i = s.handlers.phase i) ∧
    (∀ evs s', Lts.Run (HandlerStep cfg) s evs s' → evs.length ≤ work s) ∧
    ∃ evs s', Lts.Run (HandlerStep cfg) s evs s' ∧ ∀ h, s'.handlers.phase h = none := by
  have told := told_of_run r
  refine ⟨fun h hh => ?_, fun h p input hp hi => ?_, fun evs s' hr => ?_, quiesces cfg s⟩
  · obtain ⟨hlen, hcount⟩ := told.started h hh
    exact ⟨by omega, hcount⟩
  · obtain ⟨⟨s', e⟩, hstep, q, hq, howner, hlt⟩ := goes_on cfg hp hi
    refine ⟨s', e, hstep, howner, fun q' hq' => ?_, fun i hne => ?_⟩
    · rw [hq, Lts.Threads.phase_move_self hp] at hq'
      subst hq'
      simpa [Lts.Threads.rankOf] using hlt
    · rw [hq]
      exact Lts.Threads.phase_move_of_ne hne q
  · exact Nat.le_trans (Nat.le_add_right ..)
      (Lts.Threads.length_add_work_le (fun hs => hs.work_lt) hr)

/-- A TSP frame was received, and its handler can be led to its end. -/
theorem handlers_finish_example : ∃ tr s, Lts.Run (Step .tsp) {} tr s ∧ 0 < s.handlers.next ∧
    (Lts.Threads.eventsOf Event.handler 0 tr).length ≤ 5 ∧
    ∃ evs s', Lts.Run (HandlerStep .tsp) s evs s' ∧ ∀ h, s'.handlers.phase h = none := by
  have start : Lts.Run (Step .tsp) {} [] {} := .nil _
  have received := start.does (.receive (.text tspFrame))
    (show step .tsp {} _ = some (_, .received 0 tspFrame) from rfl)
  obtain ⟨told, -, -, ends⟩ := handlers_finish .tsp received
  exact ⟨_, _, received, Nat.one_pos, (told 0 Nat.one_pos).1, ends⟩

end VtiDidcomm.Session
