import VtiDidcomm.Session.Ack
import VtiDidcomm.Session.Interleaving

/-!
# What a session promises of bad frames

`FramesIsolated`: the promise of `_onFrame` never rejects; a dropped frame leaves the mailbox alone,
is not handed off, and is recorded in `_seen` only when refused; and without the dropped frames the
run goes as it went with them.

`frames_isolated` says of every run exactly when this holds, and `frames_not_isolated` that each of
the two conditions can fail: the `code` of what `resolveSender` threw must be readable, and no other
frame may be taken for a redelivery of a dropped one.
-/

namespace VtiDidcomm.Session
open Js

variable (cfg : Config)

/-- In every step of an execution, the `code` of what `resolveSender` threw can be read. -/
def Readable : State → List Action → Prop
  | _, [] => True
  | s, a :: as => ¬ a.Unreadable cfg s ∧ ∀ s' o, perform cfg s a = some (s', o) → Readable s' as

/-- A frame that came in since the state `s` and was dropped. -/
def Bad (s : State) (tr : List Outcome) (h : Nat) : Prop :=
  s.handlers.next ≤ h ∧ Dropped tr h

/-- What a session promises of the frames it drops, in an execution from `s` to `s₁`. -/
structure FramesIsolated (s : State) (acts : List Action) (s₁ : State) (tr : List Outcome) :
    Prop where
  /-- No promise of `_onFrame` rejects. -/
  settles : ∀ h err, .rejected h err ∉ tr
  isolated : Isolated cfg tr
  /-- The steps of a dropped frame leave the mailbox alone, and `_seen` but for its mark. -/
  frame : ∀ as a bs s' pre s'' o h, acts = as ++ a :: bs →
    Lts.exec (perform cfg) s as = some (s', pre) → perform cfg s' a = some (s'', o) →
    o.handler = some h → Dropped tr h →
    s''.mailbox = s'.mailbox ∧ s''.seen = o.marks.foldl .add s'.seen
  /-- Without bad frames, the same comes of the rest, while `_seen` evicts nothing. -/
  without : ∀ (out : Nat → Prop) [DecidablePred out], (∀ h, out h → Bad s tr h) →
    BoundedSet.Fits maxSeen (s.seen.items ++ marks tr) →
    ∃ s₁', Lts.exec (perform cfg) s (actionsWithout out s.handlers.next acts) =
      some (s₁', outcomesWithout out tr) ∧ s₁'.mailbox = s₁.mailbox

variable {cfg} {s s' s₁ : State} {acts : List Action} {tr : List Outcome} {o : Outcome}

/-- An action is rejected exactly when its frame is unreadable. -/
lemma rejects_iff {a : Action} (hs : perform cfg s a = some (s', o)) :
    (∃ h err, o = .rejected h err) ↔ a.Unreadable cfg s := by
  constructor
  · rintro ⟨h, err, rfl⟩
    by_contra hread
    rw [perform_eq hread] at hs
    obtain ⟨r, -, heq⟩ := Option.map_eq_some_iff.mp hs
    cases heq
  · intro hread
    obtain ⟨h, resolve, text, err, -, -, -, heq⟩ := perform_unreadable hread
    cases hs.symm.trans heq
    exact ⟨h, err, rfl⟩

/-- Nothing is rejected exactly when every action can be read. -/
lemma settles_iff (hexec : Lts.exec (perform cfg) s acts = some (s₁, tr)) :
    (∀ h err, .rejected h err ∉ tr) ↔ Readable cfg s acts := by
  induction acts generalizing s tr with
  | nil =>
    cases hexec
    simp [Readable]
  | cons a acts ih =>
    obtain ⟨s₂, o, tr, hs, hrest, rfl⟩ := Lts.exec_cons_eq_some.mp hexec
    constructor
    · intro h
      refine ⟨fun hread => ?_, fun s' o' hs' => ?_⟩
      · obtain ⟨j, err, rfl⟩ := (rejects_iff hs).mpr hread
        exact h j err (List.mem_cons_self ..)
      · cases hs.symm.trans hs'
        exact (ih hrest).mp fun j err hmem => h j err (List.mem_cons_of_mem _ hmem)
    · rintro ⟨hread, hreadable⟩ j err hmem
      rcases List.mem_cons.mp hmem with rfl | hmem
      · exact hread ((rejects_iff hs).mp ⟨j, err, rfl⟩)
      · exact (ih hrest).mpr (hreadable s₂ o hs) j err hmem

/-- A dropped frame is not handed off. -/
lemma Isolated.handsOff_eq (hi : Isolated cfg tr) {h : Nat} (hdropped : Dropped tr h)
    (ho : o ∈ tr) (hh : o.handler = some h) : o.handsOff = false := by
  by_contra hnot
  exact hi.notHandedOff h hdropped ⟨o, ho, hh, by simpa using hnot⟩

/-- A dropped frame is not acked again. -/
lemma Isolated.not_reacked (hi : Isolated cfg tr) {h : Nat} (hdropped : Dropped tr h)
    (q : JsString) : .event (.acked h q false) ∉ tr := by
  intro hmem
  obtain ⟨pre, post, rfl⟩ := List.append_of_mem hmem
  exact absurd (hi.acks h hdropped pre _ post rfl q false rfl).1 nofun

/-- What happens to one frame among isolated ones. -/
lemma frame_of_isolated (hi : Isolated cfg tr)
    (hexec : Lts.exec (perform cfg) s acts = some (s₁, tr)) {as bs : List Action} {a : Action}
    {pre : List Outcome} {s'' : State} {h : Nat} (hacts : acts = as ++ a :: bs)
    (has : Lts.exec (perform cfg) s as = some (s', pre)) (hs : perform cfg s' a = some (s'', o))
    (hh : o.handler = some h) (hdropped : Dropped tr h) :
    s''.mailbox = s'.mailbox ∧ s''.seen = o.marks.foldl .add s'.seen := by
  subst hacts
  obtain ⟨s₂, tr₁, tr₂, has', hrest, rfl⟩ := Lts.exec_append_eq_some.mp hexec
  cases has.symm.trans has'
  obtain ⟨s₃, o', tr₃, hs', -, rfl⟩ := Lts.exec_cons_eq_some.mp hrest
  cases hs.symm.trans hs'
  obtain ⟨hseen, hmailbox⟩ := (performs_of_perform hs).frame
  exact ⟨hmailbox (by simp [hh]) (hi.handsOff_eq hdropped (by simp) hh), hseen⟩

/-- The condition for all bad frames is one for any of them. -/
lemma ToldApart.of_bad {out : Nat → Prop} {base : List JsString} (hi : Isolated cfg tr)
    (hbad : ∀ h, out h → Bad s tr h) (h : Lts.Guarded (ToldApart (Bad s tr) base) tr) :
    Lts.Guarded (ToldApart out base) tr := by
  rintro pre o post rfl j q rfl hj
  have hnot : ¬ Bad s (pre ++ .event (.acked j q false) :: post) j := fun hdropped =>
    hi.not_reacked hdropped.2 q (by simp)
  rcases h pre _ post rfl j q rfl hnot with hbase | ⟨i, hi, hmem⟩
  · exact .inl hbase
  · exact .inr ⟨i, fun hout => hi (hbad i hout), hmem⟩

/-- An id that is found in `_seen` was there, or was marked. -/
lemma reacked_recorded (r : Lts.Run (Lts.Does (perform cfg)) s tr s₁) :
    Lts.Guarded (fun pre o => ∀ h q, o = .event (.acked h q false) →
      q ∈ s.seen.items ++ marks pre) tr := by
  suffices h : BoundedSet.Records s₁.seen (s.seen.items ++ marks tr) ∧
      Lts.Guarded (fun pre o => ∀ h q, o = .event (.acked h q false) →
        q ∈ s.seen.items ++ marks pre) tr from h.2
  induction r with
  | nil => exact ⟨by simpa [marks] using BoundedSet.records_self _, Lts.guarded_nil⟩
  | snoc _ hs ih =>
    obtain ⟨a, o, hs, rfl⟩ := hs
    have hperforms := performs_of_perform hs
    refine ⟨?_, Lts.guarded_snoc.mpr ⟨ih.2, ?_⟩⟩
    · simpa [marks] using hperforms.records ih.1
    · rintro h q rfl
      exact ih.1.only q (seen_of_reacked hperforms)

/-- Where the run without the bad frames goes as it went with them, they are told apart. -/
lemma toldApart_of_without {out : Nat → Prop} [DecidablePred out] {as : List Action} {s₁' : State}
    (hexec : Lts.exec (perform cfg) s as = some (s₁', outcomesWithout out tr)) :
    Lts.Guarded (ToldApart out s.seen.items) tr := by
  rintro pre o post rfl h q rfl hin
  have hkept : ¬ ∃ i ∈ (Outcome.event (.acked h q false)).handler, out i := by
    rintro ⟨i, hi, hout⟩
    cases hi
    exact hin hout
  have hrecorded := reacked_recorded (Lts.run_of_exec hexec) (outcomesWithout out pre) _
    (outcomesWithout out post) (by rw [outcomesWithout_append, outcomesWithout_cons hkept]; rfl)
    (Lts.renumber out h) q rfl
  rcases List.mem_append.mp hrecorded with hbase | hmarked
  · exact .inl hbase
  · obtain ⟨d, hd, hkeep, hq⟩ := mem_marks_without.mp hmarked
    obtain ⟨j, rfl⟩ : ∃ j, d = .event (.acked j q true) := by
      cases d with
      | rejected => cases hq
      | event e =>
        cases e with
        | acked j q' marked =>
          cases marked with
          | true =>
            cases List.mem_singleton.mp hq
            exact ⟨j, rfl⟩
          | false => cases hq
        | _ => cases hq
    exact .inr ⟨j, fun hout => hkeep ⟨j, rfl, hout⟩, hd⟩

/-- A session keeps its promise of bad frames in an execution if and only if the `code` of whatever
`resolveSender` threw could be read and, unless `_seen` may have evicted, no frame was taken for a
redelivery of a bad one. -/
theorem frames_isolated (hexec : Lts.exec (perform cfg) s acts = some (s₁, tr)) :
    FramesIsolated cfg s acts s₁ tr ↔ Readable cfg s acts ∧
      (BoundedSet.Fits maxSeen (s.seen.items ++ marks tr) →
        Lts.Guarded (ToldApart (Bad s tr) s.seen.items) tr) := by
  have hi : Isolated cfg tr := isolated_of_run cfg (Lts.run_of_exec hexec)
  constructor
  · intro h
    refine ⟨(settles_iff hexec).mp h.settles, fun hfits => ?_⟩
    classical
    obtain ⟨s₁', hexec', -⟩ := h.without (Bad s tr) (fun _ hbad => hbad) hfits
    exact toldApart_of_without hexec'
  · rintro ⟨hread, happart⟩
    refine ⟨(settles_iff hexec).mpr hread, hi, ?_, ?_⟩
    · intro as a bs s' pre s'' o h hacts has hs hh hdropped
      exact frame_of_isolated hi hexec hacts has hs hh hdropped
    · intro out _ hbad hfits
      have ht : Tracked out s.seen.items [] s s :=
        { erased := ⟨Lts.Threads.without_self fun h hout => (hbad h hout).1, rfl⟩
          seen := by simpa [marks] using BoundedSet.records_self s.seen
          seen' := by simpa [marks, outcomesWithout] using BoundedSet.records_self s.seen }
      obtain ⟨s₁', hexec', ht'⟩ := exec_without ht hexec hfits
        (ToldApart.of_bad hi hbad (happart hfits))
        fun o ho h hh hout => hi.handsOff_eq (hbad h hout).2 ho hh
      exact ⟨s₁', hexec', ht'.erased.mailbox⟩

/-! ## Executions -/

/-- A step whose callbacks do not throw. -/
def Action.quiet (input : Input) : Action := { input, onError := fun _ => .ok () }

/-- A step is performed quietly. -/
lemma perform_quiet {input : Input} {e : Event} (hs : step cfg s input = some (s', e)) :
    perform cfg s (.quiet input) = some (s', .event e) := by
  have hread : ¬ (Action.quiet input).Unreadable cfg s := by
    cases input with
    | unpacked h resolve =>
      rintro ⟨text, -, -, hcode⟩
      exact hcode rfl
    | _ => exact id
  rw [perform_eq hread]
  show (step cfg s input).map _ = _
  rw [hs]
  rfl

/-- A frame that was seen is acked again. -/
lemma step_reacked (cfg : Config) {h : Nat} {text : JsString} {r : Unpacked}
    (hp : s.handlers.phase h = some (.hashing text r))
    (hseen : s.seen.has (cfg.sha256Hex text) = true) :
    step cfg s (.hashed h) = some (s.goto h none, .acked h (cfg.sha256Hex text) false) := by
  simp [step, hp, afterHash, hseen]

/-- An undecodable frame is reported to a sink that throws, and the TSP frame after it is consumed. -/
theorem frames_isolated_example :
    let bad : Action := ⟨.receive (.other ⟨js "TypeError", js "not a buffer"⟩), .error, none⟩
    let acts := [bad, .quiet (.receive (.text tspFrame)), .quiet (.hashed 1),
      .quiet (.settled 1 (.ok ())), .quiet (.resumed 1)]
    ∃ s₁ tr, Lts.exec (perform .tsp) {} acts = some (s₁, tr) ∧ Bad {} tr 0 ∧
      FramesIsolated .tsp {} acts s₁ tr := by
  intro bad acts
  have hexec : Lts.exec (perform .tsp) {} acts = some (_, [.event (.failed 0 none _),
      .event (.received 1 tspFrame), .event (.tspHanded 1 tspFrame _),
      .event (.tspFulfilled 1 tspFrame), .event (.acked 1 tspFrame true)]) := rfl
  refine ⟨_, _, hexec, ⟨Nat.le_refl 0, _, List.mem_cons_self .., rfl, rfl⟩,
    (frames_isolated hexec).mpr ⟨(settles_iff hexec).mp ?_, fun _ => ?_⟩⟩
  · intro h err hmem
    simp at hmem
  · rintro pre o post hsplit h q rfl
    have hmem : Outcome.event (.acked h q false) ∈ pre ++ .event (.acked h q false) :: post := by simp
    rw [← hsplit] at hmem
    simp at hmem

/-- The sample resolver throws. -/
lemma resolverThrew_carol : resolverThrew .carol (Json.stringify carolJwe)
    (some fun _ _ => .error mismatch) = true := by
  unfold resolverThrew
  rw [peekSkid_carol]
  decide

/-- The promise of the sample frame's handler rejects. -/
lemma rejected_carol : ∃ acts s₁ tr, Lts.exec (perform .carol) {} acts = some (s₁, tr) ∧
    ∃ err, .rejected 0 err ∈ tr := by
  let frame := Json.stringify carolJwe
  let unpacked : Action :=
    ⟨.unpacked 0 (some fun _ _ => .error mismatch), fun _ => .ok (), some (typeError (js "no code"))⟩
  have received := perform_quiet
    (step_receive .carol {} (show isTspFrameText frame = false from rfl))
  obtain ⟨h, resolve, text, err, hinput, -, -, hrejected⟩ := perform_unreadable
    (show unpacked.Unreadable .carol
        { handlers := Lts.Threads.empty.start (some (.unpacking frame)) } from
      ⟨frame, Lts.Threads.phase_start_next _ _, resolverThrew_carol, nofun⟩)
  cases hinput
  exact ⟨[.quiet (.receive (.text frame)), unpacked], _, _,
    Lts.exec_cons received (Lts.exec_cons hrejected (Lts.exec_nil _)), err, by simp⟩

/-- A session of `bob`'s that knows no keys. -/
def Config.keyless (P : Platform) : Config := { Config.sample P with senderKeys := fun _ => [] }

/-- The frame of `unpackInbound_hello` is refused where `resolveSender` throws, and accepted where
it returns the key. -/
lemma unpackInbound_keyless : ∃ (P : Platform) (frame : JsString) (resolve : ResolveSender),
    isTspFrameText frame = false ∧
    (Config.keyless P).unpackInbound frame (some fun _ _ => .error mismatch) = .error mismatch ∧
    isRefused (.keyless P) frame mismatch = true ∧
    (Config.keyless P).unpackInbound frame (some resolve) =
      .ok ⟨hello, some alice.kid, some (js "did:ex:alice"), true, false⟩ := by
  obtain ⟨P, frame, htsp, hunpack⟩ := unpack_hello
  let key : SenderKey := ⟨some alice.kid, some (KeyPair.sample 5).publicJwk⟩
  have hseeded : seededKey (Config.keyless P).keys alice.kid = none :=
    Option.isNone_iff_eq_none.mp
      (show (seededKey (Config.keyless .plain).keys alice.kid).isNone = true by decide)
  have hnamed : key.isNamed (didOfKid alice.kid) alice.kid = true := by decide
  have hkey : senderFor (Config.keyless P).keys alice.kid (some fun _ _ => .ok [key]) = .ok key := by
    simp [senderFor, hseeded, keyForSkid, hnamed]
  have hthrown : senderFor (Config.keyless P).keys alice.kid (some fun _ _ => .error mismatch) =
      .error mismatch := by
    simp [senderFor, hseeded]
  have hr := unpackInbound_of_unpack hkey hunpack rfl rfl (by decide)
  obtain ⟨skid, claimed, hauthentic⟩ := unpackInbound_authentic hr
  have hpeek : peekSkid P frame = some alice.kid :=
    hauthentic.peek.trans hauthentic.senderKid.symm
  refine ⟨P, frame, fun _ _ => .ok [key], htsp, ?_, ?_, hr⟩
  · rw [Config.unpackInbound, unpackInbound, show peekSkid (Config.keyless P).P frame = _ from hpeek]
    show (senderFor (Config.keyless P).keys alice.kid _ >>= _) = _
    rw [hthrown]
    rfl
  · rw [isRefused, show peekSkid (Config.keyless P).P frame = _ from hpeek]
    show (permanentlyRefused mismatch && decide (identityOfKid ((some alice.kid).getD []) ≠
      identityOfKid (js "did:ex:mediator"))) = true
    decide

/-- Neither condition can be left out: the promise of `_onFrame` can reject, and a frame that is
refused for an error of `resolveSender` can keep its own redelivery from being delivered. -/
theorem frames_not_isolated :
    (∃ cfg acts s₁ tr, Lts.exec (perform cfg) {} acts = some (s₁, tr) ∧ ∃ err, .rejected 0 err ∈ tr) ∧
    ∃ cfg acts s₁ tr, Lts.exec (perform cfg) {} acts = some (s₁, tr) ∧ Readable cfg {} acts ∧
      BoundedSet.Fits maxSeen (marks tr) ∧ ¬ FramesIsolated cfg {} acts s₁ tr := by
  refine ⟨⟨.carol, rejected_carol⟩, ?_⟩
  obtain ⟨P, frame, resolve, htsp, hthrown, hrefused, hr⟩ := unpackInbound_keyless
  let cfg := Config.keyless P
  let r : Unpacked := ⟨hello, some alice.kid, some (js "did:ex:alice"), true, false⟩
  have hq : isQueued cfg r = true := isQueued_iff.mpr
    ⟨_, rfl, by decide, .inl (show js "did:ex:alice" ≠ js "did:ex:mediator" by decide)⟩
  -- the first delivery is refused and marked, the second accepted and taken for a redelivery
  let s₁ : State := { handlers := Lts.Threads.empty.start (some (.unpacking frame)) }
  let s₃ : State := (markAndAck (s₁.goto 0 (some (.refusing frame))) 0 frame).1
  let s₄ : State := { s₃ with handlers := s₃.handlers.start (some (.unpacking frame)) }
  have hp₁ : s₁.handlers.phase 0 = some (.unpacking frame) := Lts.Threads.phase_start_next _ _
  have hp₄ : s₄.handlers.phase 1 = some (.unpacking frame) :=
    Lts.Threads.phase_start_next s₃.handlers _
  have hp₅ : (s₄.goto 1 (some (.hashing frame r))).handlers.phase 1 = some (.hashing frame r) :=
    Lts.Threads.phase_move_self hp₄ _
  have hseen : s₄.seen.has frame = true := by
    simp [s₄, s₃, s₁, markAndAck, State.goto, BoundedSet.has, BoundedSet.add, BoundedSet.empty,
      BoundedSet.insertItem, BoundedSet.evict, maxSeen]
  have received : step cfg {} _ = some (s₁, _) := step_receive cfg {} htsp
  have refused := step_refused cfg hp₁ hthrown hrefused
  have acked : step cfg (s₁.goto 0 (some (.refusing frame))) (.hashed 0) =
    some (s₃, .acked 0 frame true) := rfl
  have again : step cfg s₃ _ = some (s₄, _) := step_receive cfg s₃ htsp
  have accepted := step_unpacked cfg hp₄ hr hq
  have reacked := step_reacked cfg hp₅ hseen
  have hlen : [frame].length ≤ maxSeen := show 1 ≤ 1024 by decide
  have hexec := Lts.exec_cons (perform_quiet received) (Lts.exec_cons (perform_quiet refused)
    (Lts.exec_cons (perform_quiet acked) (Lts.exec_cons (perform_quiet again)
      (Lts.exec_cons (perform_quiet accepted)
        (Lts.exec_cons (perform_quiet reacked) (Lts.exec_nil _))))))
  refine ⟨cfg, _, _, _, hexec, (settles_iff hexec).mp ?_, ⟨[frame], hlen, ?_⟩, fun h => ?_⟩
  · intro h err hmem
    simp at hmem
  · simp [marks, Outcome.marks, Event.marks]
  · obtain ⟨s', hexec', -⟩ := h.without (· = 0)
      (by
        rintro i rfl
        exact ⟨Nat.le_refl 0, _, List.mem_cons_of_mem _ (List.mem_cons_self ..), rfl, rfl⟩)
      ⟨[frame], hlen, by simp [marks, Outcome.marks, Event.marks, BoundedSet.empty]⟩
    rcases toldApart_of_without hexec' [_, _, _, _, _] _ [] rfl 1 frame rfl (by decide) with
      hbase | ⟨j, hj, hmem⟩
    · cases hbase
    · simp at hmem
      exact hj hmem

end VtiDidcomm.Session
