import VtiDidcomm.Client.Packed
import VtiDidcomm.Session.Sender
import VtiDidcomm.Session.TspFrame

/-!
# One socket, two protocols

A session gets TSP messages over the socket of its DIDComm frames. In any run the two keep apart, and
the consumer of TSP messages gets the bytes the frames stand for (`frames_demuxed`): what the mediator
delivers as the text of a message is handed to it whole, and the bytes themselves, sent as they are,
never reach it.
-/

namespace VtiDidcomm.Session
open Js Base64url

/-! ## The first byte -/

/-- What a TSP frame decodes to begins with one of the two bytes. -/
lemma isTspFrameBytes_of_decode {text : JsString} {qb2 : List UInt8}
    (htsp : isTspFrameText text = true) (h : decodeText text = .ok qb2) :
    isTspFrameBytes qb2 = true := by
  rw [isTspFrameBytes_iff]
  cases isTspFrameText_iff.mp htsp with
  | inl hlong =>
    obtain ⟨rest, rfl⟩ := hlong
    exact .inr (head_of_decodeText (by decide) (by decide) (by decide) h)
  | inr hshort =>
    obtain ⟨rest, rfl⟩ := hshort
    exact .inl (head_of_decodeText (by decide) (by decide) (by decide) h)

/-- Bytes that start no character decode to a replacement character. -/
lemma isTspFrameText_textDecode {bytes : List UInt8} (h : isTspFrameBytes bytes = true) :
    isTspFrameText (textDecode bytes) = false := by
  have hdecode : ∃ rest, textDecode bytes = 0xFFFD :: rest := by
    cases bytes with
    | nil => cases h
    | cons b rest =>
      have hb : b = tspMagicByte ∨ b = tspMagicByteLong := by simpa using isTspFrameBytes_iff.mp h
      refine ⟨(decodeScalars none rest).flatMap codeUnits, ?_⟩
      obtain rfl | rfl := hb <;> rfl
  obtain ⟨rest, hrest⟩ := hdecode
  rw [hrest]
  rfl

/-! ## Runs -/

/-- What an event tells of the protocol of its frame, and of the bytes a TSP frame stands for. -/
def Event.Demuxed : Event → Prop
  | .accepted _ text _ => isTspFrameText text = false
  | .refused _ text _ => isTspFrameText text = false
  | .handed _ text _ _ _ _ _ => isTspFrameText text = false
  | .completed _ text _ _ => isTspFrameText text = false
  | .ended _ text => isTspFrameText text = false
  | .ignored _ text => isTspFrameText text = true
  | .tspHanded _ text qb2 => isTspFrameText text = true ∧ decodeText text = .ok qb2
  | .tspFulfilled _ text => isTspFrameText text = true
  | .tspThrew _ text _ => isTspFrameText text = true
  | .received .. | .failed .. | .acked .. | .mailbox _ => True

/-- The frame a handler is at work on is of the protocol its phase is of. -/
def Phase.Demuxed : Phase → Prop
  | .unpacking text => isTspFrameText text = false
  | .hashing text _ => isTspFrameText text = false
  | .refusing text => isTspFrameText text = false
  | .delivering text _ _ => isTspFrameText text = false
  | .delivered text _ _ => isTspFrameText text = false
  | .tspHashing text qb2 => isTspFrameText text = true ∧ decodeText text = .ok qb2
  | .tspConsuming text => isTspFrameText text = true
  | .tspConsumed text => isTspFrameText text = true

variable {cfg : Config} {s s' : State}

/-- A frame is sorted when it is received. -/
lemma onFrame_demuxed (cfg : Config) (s : State) (data : FrameData) :
    (onFrame cfg s data).2.Demuxed ∧ ∃ q,
      (onFrame cfg s data).1 = { s with handlers := s.handlers.start q } ∧
        ∀ p, q = some p → p.Demuxed := by
  unfold onFrame
  split
  · exact ⟨trivial, none, rfl, nofun⟩
  split
  · rename_i text _ htsp
    split
    · exact ⟨trivial, none, rfl, nofun⟩
    rename_i qb2 hdecode
    split
    · refine ⟨trivial, some (.tspHashing text qb2), rfl, ?_⟩
      rintro p ⟨⟩
      exact ⟨htsp, hdecode⟩
    · exact ⟨htsp, none, rfl, nofun⟩
  · rename_i text _ htsp
    refine ⟨trivial, some (.unpacking text), rfl, ?_⟩
    rintro p ⟨⟩
    exact eq_false_of_ne_true htsp

/-- A handler keeps to the protocol of its frame. -/
lemma Moves.demuxed {seen : BoundedSet JsString maxSeen} {mb mb' : Mailbox.State} {h : Nat}
    {input : Input} {p : Phase} {q : Option Phase} {e : Event} (hm : Moves cfg seen mb h input p q mb' e)
    (hp : p.Demuxed) : e.Demuxed ∧ ∀ p', q = some p' → p'.Demuxed := by
  cases hm with
  | accepted | refused | handed | handedQueued | completed | tspFulfilled =>
    refine ⟨hp, ?_⟩
    rintro p ⟨⟩
    exact hp
  | tspHanded =>
    refine ⟨hp, ?_⟩
    rintro p ⟨⟩
    exact hp.1
  | ended | tspThrew => exact ⟨hp, nofun⟩
  | failed | undelivered | reacked | tspReacked | refusedAcked | acked | tspAcked =>
    exact ⟨trivial, nofun⟩

/-- A step keeps the handlers apart. -/
lemma demuxed_of_step {input : Input} {e : Event} (hs : step cfg s input = some (s', e))
    (h : s.handlers.Each fun _ p => p.Demuxed) :
    e.Demuxed ∧ s'.handlers.Each fun _ p => p.Demuxed := by
  cases steps_of_step hs with
  | @starts data p _ hst =>
    obtain ⟨he, q, hq, hp⟩ := onFrame_demuxed cfg s data
    have heq : onFrame cfg s data = ({ s with handlers := s.handlers.start p }, e) := Option.some.inj hs
    rw [heq] at he hq
    have hstate : ({ s with handlers := s.handlers.start p } : State) =
        { s with handlers := s.handlers.start q } := hq
    refine ⟨he, ?_⟩
    rw [hstate]
    exact h.start fun p' hp' => hp p' hp'
  | moves hp hm =>
    obtain ⟨he, hq⟩ := hm.demuxed (h _ _ hp)
    exact ⟨he, h.move fun p' hp' => hq p' hp'⟩
  | mailbox => exact ⟨trivial, h⟩

/-- A run keeps the handlers apart. -/
lemma demuxed_of_run {tr : List Event} (r : Lts.Run (Step cfg) {} tr s) :
    (s.handlers.Each fun _ p => p.Demuxed) ∧ ∀ e ∈ tr, e.Demuxed := by
  refine r.invariant (I := fun s tr => (s.handlers.Each fun _ p => p.Demuxed) ∧ ∀ e ∈ tr, e.Demuxed)
    ⟨Lts.Threads.each_empty _, nofun⟩ ?_
  rintro s tr evs s' ⟨hphases, hevents⟩ ⟨input, e, hs, rfl⟩
  obtain ⟨he, hphases'⟩ := demuxed_of_step hs hphases
  exact ⟨hphases', List.forall_mem_append.mpr ⟨hevents, List.forall_mem_singleton.mpr he⟩⟩

/-- What `pack` and `packAnoncrypt` print. -/
inductive IsPacked (frame : JsString) : Prop where
  | authcrypt {C entropy message sender recipient} :
    pack C entropy message sender recipient = .ok frame → IsPacked frame
  | anoncrypt {C entropy message recipient} :
    packAnoncrypt C entropy message recipient = .ok frame → IsPacked frame

/-- A packed frame is a JSON object. -/
lemma IsPacked.notTsp {frame : JsString} (h : IsPacked frame) :
    isTspFrameText frame = false := by
  cases h with
  | authcrypt h =>
    obtain ⟨s, hs, h⟩ := bind_eq_ok.mp h
    obtain ⟨_, _, _, _, _, _, _, _, _, _, _, -, -, hjwe⟩ := sealAuthcrypt_parts hs
    cases h
    rw [hjwe]
    rfl
  | anoncrypt h =>
    obtain ⟨s, hs, h⟩ := bind_eq_ok.mp h
    obtain ⟨_, _, _, _, _, _, _, _, _, -, -, hjwe⟩ := sealAnoncrypt_parts hs
    cases h
    rw [hjwe]
    rfl

/-- How a frame is received: its handler starts in a phase. -/
def Receives (cfg : Config) (s : State) (data : FrameData) (text : JsString) (p : Phase) : Prop :=
  step cfg s (.receive data) =
    some ({ s with handlers := s.handlers.start (some p) }, .received s.handlers.next text)

/-- A text that is no TSP frame is unpacked. -/
lemma receives_didcomm (cfg : Config) (s : State) {data : FrameData} {text : JsString}
    (hdata : frameText data = .ok text) (h : isTspFrameText text = false) :
    Receives cfg s data text (.unpacking text) := by
  simp [Receives, step, onFrame, hdata, h]

/-- A TSP frame is hashed. -/
lemma receives_tsp {cfg : Config} (hconsumer : cfg.hasOnTspFrame = true) (s : State)
    {data : FrameData} {bytes : List UInt8} (hdata : frameText data = .ok (encode bytes))
    (h : IsShortFramed bytes ∨ IsLongFramed bytes) :
    Receives cfg s data (encode bytes) (.tspHashing (encode bytes) bytes) := by
  have hdecode : decodeText (encode bytes) = .ok bytes := decode_encode bytes
  simp [Receives, step, onFrame, hdata, (isTspFrameText_encode bytes).mpr h, hdecode, hconsumer]

/-- TSP and DIDComm do not mix on a socket. In any run, the frames that are unpacked, refused or
delivered as DIDComm messages are no TSP frames, and `onTspFrame` gets TSP frames only, as the bytes
their texts stand for, whose first byte says so too. From any state, a TSP message stored as the
base64url of its bytes goes to its consumer as these bytes, and what was packed goes to the unpacker;
so do the bytes of a TSP message that are sent as they are. -/
theorem frames_demuxed {tr : List Event} (r : Lts.Run (Step cfg) {} tr s) :
    (∀ e ∈ tr, e.Demuxed) ∧
    (∀ h text qb2, .tspHanded h text qb2 ∈ tr → isTspFrameBytes qb2 = true ∧
      ∀ bytes, text = encode bytes → qb2 = bytes ∧ (IsShortFramed bytes ∨ IsLongFramed bytes)) ∧
    (∀ data bytes, frameText data = .ok (encode bytes) → cfg.hasOnTspFrame = true →
      IsShortFramed bytes ∨ IsLongFramed bytes →
      Receives cfg s data (encode bytes) (.tspHashing (encode bytes) bytes)) ∧
    (∀ data frame, frameText data = .ok frame → IsPacked frame →
      Receives cfg s data frame (.unpacking frame)) ∧
    ∀ bytes, isTspFrameBytes bytes = true →
      Receives cfg s (.bytes bytes) (textDecode bytes) (.unpacking (textDecode bytes)) := by
  obtain ⟨-, hevents⟩ := demuxed_of_run r
  refine ⟨hevents, ?_, ?_, ?_, ?_⟩
  · intro h text qb2 hmem
    obtain ⟨htsp, hdecode⟩ := hevents _ hmem
    refine ⟨isTspFrameBytes_of_decode htsp hdecode, ?_⟩
    rintro bytes rfl
    have hbytes : decodeText (encode bytes) = .ok bytes := decode_encode bytes
    exact ⟨Except.ok.inj (hdecode.symm.trans hbytes), (isTspFrameText_encode bytes).mp htsp⟩
  · exact fun data bytes hdata hconsumer h => receives_tsp hconsumer s hdata h
  · exact fun data frame hdata h => receives_didcomm cfg s hdata h.notTsp
  · exact fun bytes h => receives_didcomm cfg s rfl (isTspFrameText_textDecode h)

/-- A short TSP frame is handed to its consumer. -/
theorem frames_demuxed_example : ∃ tr s, Lts.Run (Step .tsp) {} tr s ∧
    .tspHanded 0 (encode [0xf8, 0x40, 0x00]) [0xf8, 0x40, 0x00] ∈ tr ∧ ∀ e ∈ tr, e.Demuxed := by
  have hstart : Lts.Run (Step .tsp) {} [] {} := .nil _
  obtain ⟨-, -, hreceives, -⟩ := frames_demuxed hstart
  have hframed : IsShortFramed [0xf8, 0x40, 0x00] := ⟨0x40, [0x00], rfl, rfl⟩
  have received := hstart.does _
    (hreceives (.text (encode [0xf8, 0x40, 0x00])) [0xf8, 0x40, 0x00] rfl rfl (.inl hframed))
  have handed := received.does (.hashed 0) rfl
  exact ⟨_, _, handed, List.mem_append_right _ (List.mem_singleton_self _), (frames_demuxed handed).1⟩

end VtiDidcomm.Session
