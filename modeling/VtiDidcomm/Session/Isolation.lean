import VtiDidcomm.Lts.Erasure
import VtiDidcomm.Session.Sender
import VtiDidcomm.Session.Throws

/-!
# Bad frames

What a frame that cannot be decoded or unpacked, or that is refused, does to a session: nothing to
its mailbox, and no consumer sees it (`Isolated`). So the other frames are handled as they would
have been without it (`exec_without`), as long as the ids in `_seen` tell them apart.

`frames_isolated` says when that is. There are two ways out: the promise of `_onFrame` rejects where
the `code` of what `resolveSender` threw cannot be read, and a frame is taken for a redelivery where
a frame of the same text was refused for an error of `resolveSender` (`frames_not_isolated`).
-/

namespace VtiDidcomm.Session
open Js

/-! ## What the outcomes say -/

/-- The handler an event is about. -/
def Event.handler : Event → Option Nat
  | .received h _ => some h
  | .ignored h _ => some h
  | .failed h .. => some h
  | .accepted h .. => some h
  | .refused h .. => some h
  | .handed h .. => some h
  | .tspHanded h .. => some h
  | .completed h .. => some h
  | .tspFulfilled h _ => some h
  | .tspThrew h .. => some h
  | .ended h _ => some h
  | .acked h .. => some h
  | .mailbox _ => none

/-- The frame cannot be decoded or unpacked, or is refused. -/
def Event.drops : Event → Bool
  | .failed .. => true
  | .refused .. => true
  | _ => false

/-- A message is handed to a waiter, the inbox or a consumer. -/
def Event.handsOff : Event → Bool
  | .handed .. => true
  | .tspHanded .. => true
  | _ => false

def Outcome.handler : Outcome → Option Nat
  | .event e => e.handler
  | .rejected h _ => some h

def Outcome.drops : Outcome → Bool
  | .event e => e.drops
  | .rejected .. => true

def Outcome.handsOff : Outcome → Bool
  | .event e => e.handsOff
  | .rejected .. => false

def Outcome.marks : Outcome → List JsString
  | .event e => e.marks
  | .rejected .. => []

/-- The frame of a handler was dropped. -/
def Dropped (tr : List Outcome) (h : Nat) : Prop :=
  ∃ o ∈ tr, o.handler = some h ∧ o.drops = true

/-- A message of the handler was handed off. -/
def HandedOff (tr : List Outcome) (h : Nat) : Prop :=
  ∃ o ∈ tr, o.handler = some h ∧ o.handsOff = true

variable (cfg : Config)

/-- What an ack of the handler `h` is, where its frame was dropped: the ack of a refused frame,
which marks the frame's own queue id. -/
def AcksRefused (h : Nat) (pre : List Outcome) (o : Outcome) : Prop :=
  ∀ q marked, o = .event (.acked h q marked) → marked = true ∧
    ∃ text report, .event (.refused h text report) ∈ pre ∧ q = cfg.sha256Hex text

/-- Dropped frames are not handed off, and not acked unless refused. -/
structure Isolated (tr : List Outcome) : Prop where
  notHandedOff : ∀ h, Dropped tr h → ¬ HandedOff tr h
  acks : ∀ h, Dropped tr h → Lts.Guarded (AcksRefused cfg h) tr

/-- The handler has handed a message off. -/
def Phase.Consuming : Phase → Prop
  | .delivering .. => True
  | .delivered .. => True
  | .tspConsuming _ => True
  | .tspConsumed _ => True
  | _ => False

/-! ## What a step does to one handler -/

variable {cfg} {s s' : State} {o : Outcome}

section Moves
variable {seen : BoundedSet JsString maxSeen} {mb mb' : Mailbox.State} {h : Nat} {input : Input}
  {p : Phase} {p' : Option Phase} {e : Event}

/-- A start hands off and marks nothing. -/
lemma Starts.quiet {data : FrameData} (hst : Starts cfg data h p' e) :
    e.handler = some h ∧ e.handsOff = false ∧ e.marks = [] ∧ (e.drops = true → p' = none) ∧
      ∀ r, p' = some r → ¬ r.Consuming := by
  cases hst with
  | failed => exact ⟨rfl, rfl, rfl, fun _ => rfl, nofun⟩
  | ignored => exact ⟨rfl, rfl, rfl, nofun, nofun⟩
  | tsp => exact ⟨rfl, rfl, rfl, nofun, by rintro r ⟨⟩; exact id⟩
  | didcomm => exact ⟨rfl, rfl, rfl, nofun, by rintro r ⟨⟩; exact id⟩

/-- A move is of its handler. -/
lemma Moves.handler_eq (hm : Moves cfg seen mb h input p p' mb' e) : e.handler = some h := by
  cases hm <;> rfl

/-- A move without a hand-off leaves the mailbox. -/
lemma Moves.mailbox_eq (hm : Moves cfg seen mb h input p p' mb' e) (he : e.handsOff = false) :
    mb' = mb := by
  cases hm with
  | handed | handedQueued => cases he
  | _ => rfl

/-- A frame that is dropped has not been handed off, and is at most refused. -/
lemma Moves.of_drops (hm : Moves cfg seen mb h input p p' mb' e) (he : e.drops = true) :
    ¬ p.Consuming ∧ ∀ r, p' = some r →
      ∃ text report, r = .refusing text ∧ e = .refused h text report := by
  cases hm with
  | refused report =>
    refine ⟨id, ?_⟩
    rintro r ⟨⟩
    exact ⟨_, report, rfl, rfl⟩
  | failed | undelivered => exact ⟨id, nofun⟩
  | _ => cases he

/-- A frame that is handed off was not refused, and goes to its consumer. -/
lemma Moves.of_handsOff (hm : Moves cfg seen mb h input p p' mb' e) (he : e.handsOff = true) :
    (∀ text, p ≠ .refusing text) ∧ ∀ r, p' = some r → r.Consuming := by
  cases hm with
  | handed | handedQueued | tspHanded => exact ⟨nofun, by rintro r ⟨⟩; trivial⟩
  | _ => cases he

/-- A refused frame is acked, and its handler ends. -/
lemma Moves.of_refusing {text : JsString} (hm : Moves cfg seen mb h input (.refusing text) p' mb' e) :
    p' = none ∧ e = .acked h (cfg.sha256Hex text) true := by
  cases hm
  exact ⟨rfl, rfl⟩

/-- After a hand-off there is no other, and the frame is not dropped. -/
lemma Moves.of_consuming (hm : Moves cfg seen mb h input p p' mb' e) (hp : p.Consuming) :
    e.drops = false ∧ e.handsOff = false ∧ ∀ r, p' = some r → r.Consuming := by
  cases hm with
  | completed | tspFulfilled => exact ⟨rfl, rfl, by rintro r ⟨⟩; trivial⟩
  | tspThrew | acked | ended | tspAcked => exact ⟨rfl, rfl, nofun⟩
  | _ => exact hp.elim

/-- An ack is the last of a handler. -/
lemma Moves.of_acked {q : JsString} {marked : Bool}
    (hm : Moves cfg seen mb h input p p' mb' (.acked h q marked)) : p' = none := by
  cases hm <;> rfl

end Moves

/-- The ids seen are those marked, and only a hand-off and the session's own steps move the mailbox. -/
lemma Performs.frame (hs : Performs cfg s s' o) :
    s'.seen = o.marks.foldl .add s.seen ∧
      (o.handler ≠ none → o.handsOff = false → s'.mailbox = s.mailbox) := by
  cases hs with
  | starts hst =>
    obtain ⟨-, -, hmarks, -⟩ := hst.quiet
    refine ⟨?_, fun _ _ => rfl⟩
    simp [Outcome.marks, hmarks]
  | moves hp hm => exact ⟨rfl, fun _ he => hm.mailbox_eq he⟩
  | mailbox hmb => exact ⟨rfl, fun hnone => absurd rfl hnone⟩
  | rejects => exact ⟨rfl, fun _ _ => rfl⟩

/-- The other handlers stay where they are. -/
lemma Performs.phase_of_ne (hs : Performs cfg s s' o) {j : Nat} (hj : o.handler ≠ some j) :
    s'.handlers.phase j = s.handlers.phase j ∧ s.handlers.next ≤ s'.handlers.next := by
  cases hs with
  | @starts data p e hst =>
    obtain ⟨hhandler, -⟩ := hst.quiet
    have hne : j ≠ s.handlers.next := fun heq => hj (heq ▸ hhandler)
    exact ⟨Function.update_of_ne hne .., Nat.le_succ _⟩
  | moves hp hm =>
    have hne : j ≠ _ := fun heq => hj (heq ▸ hm.handler_eq)
    exact ⟨Lts.Threads.phase_move_of_ne hne _, Nat.le_refl _⟩
  | mailbox hmb => exact ⟨rfl, Nat.le_refl _⟩
  | rejects err hp =>
    have hne : j ≠ _ := fun heq => hj (heq ▸ rfl)
    exact ⟨Lts.Threads.phase_move_of_ne hne _, Nat.le_refl _⟩

/-- What a step does to the handler it is about. -/
structure Moved (cfg : Config) (s s' : State) (o : Outcome) (h : Nat) : Prop where
  lt : h < s'.handlers.next
  started : h < s.handlers.next → ∃ p, s.handlers.phase h = some p
  drops : o.drops = true → ∀ r, s'.handlers.phase h = some r →
    ∃ text report, r = .refusing text ∧ o = .event (.refused h text report)
  handsOff : o.handsOff = true → ∀ r, s'.handlers.phase h = some r → r.Consuming
  acked : ∀ q marked, o = .event (.acked h q marked) → s'.handlers.phase h = none
  refusing : ∀ text, s.handlers.phase h = some (.refusing text) →
    s'.handlers.phase h = none ∧ o = .event (.acked h (cfg.sha256Hex text) true)
  consuming : ∀ p, s.handlers.phase h = some p → p.Consuming →
    o.drops = false ∧ o.handsOff = false ∧ ∀ r, s'.handlers.phase h = some r → r.Consuming

/-- A start moves its handler only. -/
lemma Starts.moved {data : FrameData} {p : Option Phase} {e : Event}
    (hst : Starts cfg data s.handlers.next p e) :
    Moved cfg s { s with handlers := s.handlers.start p } (.event e) s.handlers.next := by
  obtain ⟨-, hhandsOff, -, hdrops, -⟩ := hst.quiet
  have hfresh := s.handlers.fresh _ (Nat.le_refl s.handlers.next)
  exact {
    lt := Nat.lt_succ_self _
    started := fun hlt => absurd hlt (Nat.lt_irrefl _)
    drops := fun hdrop r hr => by simp [hdrops hdrop] at hr
    handsOff := fun he => absurd he (by simp [Outcome.handsOff, hhandsOff])
    acked := fun q marked he => by
      cases he
      cases hst
    refusing := fun text hp => absurd (hfresh.symm.trans hp) nofun
    consuming := fun p hp => absurd (hfresh.symm.trans hp) nofun }

/-- A move moves its handler only. -/
lemma Moves.moved {input : Input} {h : Nat} {p : Phase} {p' : Option Phase} {mb : Mailbox.State}
    {e : Event} (hp : s.handlers.phase h = some p)
    (hm : Moves cfg s.seen s.mailbox h input p p' mb e) :
    Moved cfg s
      { handlers := s.handlers.move h p', seen := e.marks.foldl .add s.seen, mailbox := mb }
      (.event e) h := by
  have hself := Lts.Threads.phase_move_self hp p'
  have hlt : h < s.handlers.next := Lts.Threads.lt_next hp
  exact {
    lt := hlt
    started := fun _ => ⟨p, hp⟩
    drops := fun he r hr => by
      obtain ⟨text, report, rfl, rfl⟩ := (hm.of_drops he).2 r (hself.symm.trans hr)
      exact ⟨text, report, rfl, rfl⟩
    handsOff := fun he r hr => (hm.of_handsOff he).2 r (hself.symm.trans hr)
    acked := fun q marked he => by
      cases he
      exact hself.trans hm.of_acked
    refusing := fun text htext => by
      cases hp.symm.trans htext
      obtain ⟨rfl, rfl⟩ := hm.of_refusing
      exact ⟨hself, rfl⟩
    consuming := fun p₁ hp₁ hconsuming => by
      cases hp.symm.trans hp₁
      obtain ⟨hdrops, hhandsOff, hnext⟩ := hm.of_consuming hconsuming
      exact ⟨hdrops, hhandsOff, fun r hr => hnext r (hself.symm.trans hr)⟩ }

/-- What is performed moves its handler only. -/
lemma Performs.moved (hs : Performs cfg s s' o) {h : Nat} (hh : o.handler = some h) :
    Moved cfg s s' o h := by
  cases hs with
  | starts hst =>
    obtain rfl := Option.some.inj (hst.quiet.1.symm.trans hh)
    exact hst.moved
  | moves hp hm =>
    obtain rfl := Option.some.inj (hm.handler_eq.symm.trans hh)
    exact hm.moved hp
  | mailbox hmb => cases hh
  | rejects err hp =>
    cases hh
    have hself := Lts.Threads.phase_move_self hp none
    have hlt := Lts.Threads.lt_next hp
    exact {
      lt := hlt
      started := fun _ => ⟨_, hp⟩
      drops := fun _ r hr => absurd (hself.symm.trans hr) nofun
      handsOff := nofun
      acked := nofun
      refusing := fun text htext => absurd (hp.symm.trans htext) nofun
      consuming := fun p hp' hconsuming => by
        cases hp.symm.trans hp'
        exact hconsuming.elim }

/-! ## The invariant -/

variable (cfg)

/-- Where the handlers are that dropped, handed off or acked something. -/
structure Staged (s : State) (tr : List Outcome) : Prop where
  dropped : ∀ h, Dropped tr h → h < s.handlers.next ∧ ∀ p, s.handlers.phase h = some p →
    ∃ text report, p = .refusing text ∧ .event (.refused h text report) ∈ tr
  handed : ∀ h, HandedOff tr h → h < s.handlers.next ∧
    ∀ p, s.handlers.phase h = some p → p.Consuming
  ended : ∀ h q marked, .event (.acked h q marked) ∈ tr →
    h < s.handlers.next ∧ s.handlers.phase h = none
  isolated : Isolated cfg tr

/-- No frame has a stage at first. -/
lemma staged_init (s : State) : Staged cfg s [] where
  dropped := by simp [Dropped]
  handed := by simp [HandedOff]
  ended := by simp
  isolated := ⟨by simp [Dropped], fun _ _ => Lts.guarded_nil⟩

section Step
variable {cfg} {tr : List Outcome}

/-- A frame is dropped by the last outcome or an earlier one. -/
lemma dropped_snoc {h : Nat} :
    Dropped (tr ++ [o]) h ↔ Dropped tr h ∨ o.handler = some h ∧ o.drops = true := by
  simp [Dropped, or_and_right, exists_or]

/-- A frame is handed off by the last outcome or an earlier one. -/
lemma handedOff_snoc {h : Nat} :
    HandedOff (tr ++ [o]) h ↔ HandedOff tr h ∨ o.handler = some h ∧ o.handsOff = true := by
  simp [HandedOff, or_and_right, exists_or]

/-- A dropped frame is acked if it was refused. -/
lemma Staged.acks (inv : Staged cfg s tr) (hs : Performs cfg s s' o) {h : Nat}
    (hh : o.handler = some h) (hdropped : Dropped tr h) :
    ∃ text report, .event (.refused h text report) ∈ tr ∧ s'.handlers.phase h = none ∧
      o = .event (.acked h (cfg.sha256Hex text) true) := by
  obtain ⟨hlt, hphase⟩ := inv.dropped h hdropped
  obtain ⟨p, hp⟩ := (hs.moved hh).started hlt
  obtain ⟨text, report, rfl, hmem⟩ := hphase p hp
  obtain ⟨hnone, ho⟩ := (hs.moved hh).refusing text hp
  exact ⟨text, report, hmem, hnone, ho⟩

/-- A dropped frame is refused at most. -/
lemma Staged.step_dropped (inv : Staged cfg s tr) (hs : Performs cfg s s' o) (h : Nat)
    (hdropped : Dropped (tr ++ [o]) h) : h < s'.handlers.next ∧
      ∀ p, s'.handlers.phase h = some p →
        ∃ text report, p = .refusing text ∧ .event (.refused h text report) ∈ tr ++ [o] := by
  rcases dropped_snoc.mp hdropped with hold | ⟨hh, hdrops⟩
  · by_cases hh : o.handler = some h
    · obtain ⟨text, report, -, hnone, -⟩ := inv.acks hs hh hold
      exact ⟨(hs.moved hh).lt, fun p hp => absurd (hnone.symm.trans hp) nofun⟩
    · obtain ⟨hlt, hphase⟩ := inv.dropped h hold
      obtain ⟨hsame, hle⟩ := hs.phase_of_ne hh
      refine ⟨by omega, fun p hp => ?_⟩
      obtain ⟨text, report, hp, hmem⟩ := hphase p (hsame ▸ hp)
      exact ⟨text, report, hp, List.mem_append_left _ hmem⟩
  · refine ⟨(hs.moved hh).lt, fun p hp => ?_⟩
    obtain ⟨text, report, hp, rfl⟩ := (hs.moved hh).drops hdrops p hp
    exact ⟨text, report, hp, by simp⟩

/-- A frame that is handed off is being consumed. -/
lemma Staged.step_handed (inv : Staged cfg s tr) (hs : Performs cfg s s' o) (h : Nat)
    (hhanded : HandedOff (tr ++ [o]) h) :
    h < s'.handlers.next ∧ ∀ p, s'.handlers.phase h = some p → p.Consuming := by
  rcases handedOff_snoc.mp hhanded with hold | ⟨hh, hhandsOff⟩
  · obtain ⟨hlt, hphase⟩ := inv.handed h hold
    by_cases hh : o.handler = some h
    · obtain ⟨p, hp⟩ := (hs.moved hh).started hlt
      obtain ⟨-, -, hnext⟩ := (hs.moved hh).consuming p hp (hphase p hp)
      exact ⟨(hs.moved hh).lt, hnext⟩
    · obtain ⟨hsame, hle⟩ := hs.phase_of_ne hh
      exact ⟨by omega, fun p hp => hphase p (hsame ▸ hp)⟩
  · exact ⟨(hs.moved hh).lt, (hs.moved hh).handsOff hhandsOff⟩

/-- An acked frame's handler has ended. -/
lemma Staged.step_ended (inv : Staged cfg s tr) (hs : Performs cfg s s' o) (h : Nat) (q : JsString)
    (marked : Bool) (hacked : .event (.acked h q marked) ∈ tr ++ [o]) :
    h < s'.handlers.next ∧ s'.handlers.phase h = none := by
  rcases List.mem_append.mp hacked with hold | hnew
  · obtain ⟨hlt, hnone⟩ := inv.ended h q marked hold
    have hh : o.handler ≠ some h := by
      intro hh
      obtain ⟨p, hp⟩ := (hs.moved hh).started hlt
      exact absurd (hnone.symm.trans hp) nofun
    obtain ⟨hsame, hle⟩ := hs.phase_of_ne hh
    exact ⟨by omega, hsame.trans hnone⟩
  · cases List.mem_singleton.mp hnew
    have hmoved := hs.moved (h := h) rfl
    exact ⟨hmoved.lt, hmoved.acked q marked rfl⟩

/-- A dropped frame is not handed off. -/
lemma Staged.step_notHandedOff (inv : Staged cfg s tr) (hs : Performs cfg s s' o) (h : Nat)
    (hdropped : Dropped (tr ++ [o]) h) : ¬ HandedOff (tr ++ [o]) h := by
  intro hhanded
  rcases dropped_snoc.mp hdropped with hold | ⟨hh, hdrops⟩
  · rcases handedOff_snoc.mp hhanded with hold' | ⟨hh, hhandsOff⟩
    · exact inv.isolated.notHandedOff h hold hold'
    · obtain ⟨text, report, -, -, rfl⟩ := inv.acks hs hh hold
      cases hhandsOff
  · rcases handedOff_snoc.mp hhanded with hold' | ⟨-, hhandsOff⟩
    · obtain ⟨hlt, hphase⟩ := inv.handed h hold'
      obtain ⟨p, hp⟩ := (hs.moved hh).started hlt
      have hnot := ((hs.moved hh).consuming p hp (hphase p hp)).1
      simp [hnot] at hdrops
    · -- one outcome does not do both
      cases o with
      | event e => cases e <;> simp_all [Outcome.drops, Outcome.handsOff, Event.drops, Event.handsOff]
      | rejected => cases hhandsOff

/-- The acks of a dropped frame follow its refusal. -/
lemma Staged.step_acks (inv : Staged cfg s tr) (hs : Performs cfg s s' o) (h : Nat)
    (hdropped : Dropped (tr ++ [o]) h) : Lts.Guarded (AcksRefused cfg h) (tr ++ [o]) := by
  rcases dropped_snoc.mp hdropped with hold | ⟨hh, hdrops⟩
  · refine Lts.guarded_snoc.mpr ⟨inv.isolated.acks h hold, ?_⟩
    rintro q marked rfl
    obtain ⟨text, report, hmem, -, heq⟩ := inv.acks hs rfl hold
    cases heq
    exact ⟨rfl, text, report, hmem, rfl⟩
  · refine Lts.guarded_snoc.mpr ⟨?_, ?_⟩
    · -- a handler that acked has ended, so it does not drop its frame now
      rintro pre d post rfl q marked rfl
      obtain ⟨hlt, hnone⟩ := inv.ended h q marked (by simp)
      obtain ⟨p, hp⟩ := (hs.moved hh).started hlt
      exact absurd (hnone.symm.trans hp) nofun
    · rintro q marked rfl
      cases hdrops

/-- A step keeps the stages. -/
lemma Staged.step (inv : Staged cfg s tr) (hs : Performs cfg s s' o) :
    Staged cfg s' (tr ++ [o]) where
  dropped := inv.step_dropped hs
  handed := inv.step_handed hs
  ended := inv.step_ended hs
  isolated := ⟨inv.step_notHandedOff hs, inv.step_acks hs⟩

end Step

/-- Every run isolates the frames it drops. -/
lemma isolated_of_run {s₀ : State} {tr : List Outcome}
    (r : Lts.Run (Lts.Does (perform cfg)) s₀ tr s) : Isolated cfg tr := by
  have inv : Staged cfg s tr := by
    induction r with
    | nil => exact staged_init cfg _
    | snoc _ hs ih =>
      obtain ⟨a, o, hperform, rfl⟩ := hs
      exact ih.step (performs_of_perform hperform)
  exact inv.isolated

end VtiDidcomm.Session
