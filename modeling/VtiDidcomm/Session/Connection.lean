import Mathlib.Algebra.Order.Ring.Rat
import Mathlib.Tactic.Linarith
import VtiDidcomm.Net.Guard
import VtiDidcomm.Session.Sender

/-!
# The connection of a session

`connect` of a `MediatorSession` as `_openSocket` runs it: the handlers of the socket, the connect
timeout and `close`, over the session whose frames the socket carries. The handlers share the flags
of `State`; an event says what happened (`input`) and what the handler did about it.

`Lifecycle` is what the connection promises. `lifecycle_iff` says when it keeps the promise: the
close that follows a connect timeout reaches `onClose` though nothing ever opened
(`onClose_after_timeout`). The handlers of a close and of the timeout build an error first, and do
nothing else where the expiry of the token is no date (`undated_throws`).
-/

namespace VtiDidcomm.Connection
open Js

/-! ## The error of a failed connect -/

/-- The largest time value of `Date`, in milliseconds. -/
def maxTime : Int := 8640000000000000

/-- A time value of `Date`. -/
structure Instant where
  ms : Int
  inRange : -maxTime ≤ ms ∧ ms ≤ maxTime

/-- A number that is not `NaN`. -/
inductive Number where
  | finite (q : ℚ)
  | infinity (positive : Bool)

/-- What a session is connected with, and the runtime it runs on. -/
structure Config where
  session : Session.Config
  wsEndpoint : JsString
  wsPolicy : NetPolicy
  mediatorJwt : JsString
  connectTimeoutMs : Nat := 15000
  hasOnClose : Bool
  /-- `exp * 1000`, for a number of a JSON text. -/
  expMs : List UInt8 → Number

/-- `describeCloseCode` -/
def describeCloseCode : Option Nat → JsString
  | none => js "no close code (the implementation passed no close event)"
  | some 1000 => js "normal closure"
  | some 1001 => js "endpoint going away"
  | some 1002 =>
    js "protocol error — likely a subprotocol mismatch (the mediator must echo a " ++
      js "Sec-WebSocket-Protocol)"
  | some 1005 => js "no status received"
  | some 1006 =>
    js "abnormal closure — no close frame was sent. The HTTP upgrade was most likely refused " ++
      js "outright (401/403/426), or a TLS/DNS/network failure occurred, or a reverse proxy is " ++
      js "not configured to pass WebSocket upgrades on this path. If REST auth succeeds but the " ++
      js "WS gives 1006, suspect a 401/403 on the upgrade (stale/expired bearer, or the client " ++
      js "DID is not in the MEDIATOR's ACL — distinct from the VTA's ACL) or a proxy that strips " ++
      js "the Upgrade header"
  | some 1008 =>
    js "policy violation — the mediator rejected the connection. Re-authenticate to the " ++
      js "mediator, and confirm the client DID is permitted by the MEDIATOR's ACL (updating the " ++
      js "target VTA's ACL does NOT change the mediator's gate)"
  | some 1011 => js "mediator internal error — check mediator logs"
  | some 1015 =>
    js "TLS handshake failure — certificate/SNI/protocol problem reaching the wss endpoint"
  | some code =>
    if 4000 ≤ code then
      js "application-specific close code " ++ natText code ++ js " — see mediator logs"
    else js "close code " ++ natText code

/-- `decodeJwtExp`: the text of the token's `exp`, a number of seconds. -/
def decodeJwtExp (P : Platform) (jwt : JsString) : Option (List UInt8) :=
  match split 0x2e jwt with
  | _ :: part :: _ =>
    match Base64url.decodeText part with
    | .error _ => none
    | .ok bytes =>
      match P.parseJson (textDecode bytes) with
      | .error _ => none
      | .ok payload =>
        match payload.get (js "exp") with
        | some (.num text) => some text
        | _ => none
  | _ => none

/-- The part of `_connectError` about a token that expired at `expMs`; `toISOString` throws where
that is no date. -/
def expiredPart (P : Platform) (now : Instant) : Number → Except JsError (List JsString)
  | .infinity true => .ok []
  | .infinity false => .error (rangeError (js "Invalid time value"))
  | .finite expMs =>
    if expMs - now.ms ≤ 0 then
      if expMs < -maxTime ∨ maxTime < expMs then .error (rangeError (js "Invalid time value"))
      else
        let ago := (-(expMs - now.ms) / 1000 + 1 / 2).floor.toNat
        .ok [js "— bearer token is already EXPIRED (exp " ++
          P.toISOString (expMs.num.tdiv expMs.den) ++ js ", " ++ natText ago ++
          js "s ago); re-authenticate, and check client/mediator clock skew"]
    else .ok []

/-- The part of `_connectError` about the close code. -/
def codePart (code : Option Nat) (reason : Option JsString) (sawError : Bool) : List JsString :=
  match code with
  | some code =>
    let quoted := match reason with
      | none | some [] => []
      | some reason => js " \"" ++ reason ++ js "\""
    [js "(close code " ++ natText code ++ quoted ++ js ")"]
  | none =>
    if sawError then [js "(error before close — no code provided by the browser)"] else []

variable (cfg : Config)

/-- `_connectError`, which throws where the expiry of the token cannot be shown. -/
def connectError (now : Instant) (code : Option Nat) (reason : Option JsString) (sawError : Bool)
    (hint : JsString) : Except JsError JsError := do
  let expired ← match decodeJwtExp cfg.session.P cfg.mediatorJwt with
    | some exp => expiredPart cfg.session.P now (cfg.expMs exp)
    | none => .ok []
  let parts := js "mediator-transport: WebSocket failed to open" ::
    codePart code reason sawError ++ (if hint = [] then [] else [js "— " ++ hint]) ++ expired
  return {
    name := js "Error"
    message := (js " ").intercalate parts
    details := (code.toList.map fun c => (js "code", natText c)) ++
      (reason.toList.map fun r => (js "reason", r)) ++ [(js "endpoint", cfg.wsEndpoint)] }

/-! ## The handlers -/

/-- What `connect` has made of the socket. -/
inductive Socket where
  | uncalled
  /-- The dial threw. -/
  | refused
  /-- The socket exists, with its handlers. -/
  | dialled
  deriving DecidableEq

/-- A session and the socket it is connected through. -/
structure State where
  session : Session.State := {}
  socket : Socket := .uncalled
  settled : Bool := false
  sawError : Bool := false
  /-- The connect timeout is running. -/
  timer : Bool := false
  userClosed : Bool := false
  /-- The socket has closed. -/
  dropped : Bool := false

/-- What happens to a connection. -/
inductive Input where
  /-- `connect()`, with what the constructor of the socket did. -/
  | connect (construct : Except Exception Unit)
  | onopen
  | onerror
  | onclose (now : Instant) (code : Option Nat) (reason : Option JsString)
  /-- The connect timeout. -/
  | timeout (now : Instant)
  /-- `close()` -/
  | close
  /-- A frame, a call of `waitFor` or one of its timeouts. -/
  | session (input : Session.Input)

/-- What the handler of an input does. -/
structure Shown where
  /-- How the promise of `_openSocket` settled. -/
  settles : Option (Except JsError Unit) := none
  /-- What the session shows. -/
  session : List Session.Event := []
  /-- `onClose` was called. -/
  notifies : Bool := false
  /-- What the handler threw. -/
  throws : Option JsError := none

/-- What happened, and what its handler did. -/
structure Event extends Shown where
  input : Input

/-- The dial in `_openSocket`: the endpoint is checked again, and the socket constructed. -/
def dial (construct : Except Exception Unit) : Except JsError Unit := do
  let _ ← assertSafeEndpoint cfg.session.P cfg.wsEndpoint
    { toNetPolicy := cfg.wsPolicy, label := js "mediator WebSocket", schemes := [js "wss:"] }
  raised construct

/-- `settleConnect`: the state, and the settlement if it is the first. -/
def settleConnect (s : State) (outcome : Except JsError Unit) :
    State × Option (Except JsError Unit) :=
  if s.settled then (s, none) else ({ s with settled := true, timer := false }, some outcome)

/-- A step of the session, and what it is shown in. -/
def inSession (s : State) (i : Session.Input) (shown : Session.Event → Shown) :
    Option (State × Shown) :=
  (Session.step cfg.session s.session i).map fun (session, e) => ({ s with session }, shown e)

/-- The hint of the connect timeout. -/
def timeoutHint : JsString :=
  js "the upgrade was silently dropped — a reverse proxy or firewall not configured to pass " ++
    js "WebSocket upgrades on this path will hang rather than reject"

/-- The handler of an input; `none` for what cannot happen. -/
def react (s : State) : Input → Option (State × Shown)
  | .connect construct =>
    if s.socket = .uncalled then
      match dial cfg construct with
      | .error err =>
        let (s', settles) := settleConnect { s with socket := .refused } (.error err)
        some (s', { settles })
      | .ok () => some ({ s with socket := .dialled, timer := 0 < cfg.connectTimeoutMs }, {})
    else none
  | .onopen =>
    if s.socket = .dialled then
      let (s', settles) := settleConnect s (.ok ())
      some (s', { settles })
    else none
  | .onerror =>
    if s.socket = .dialled then
      if s.settled then
        inSession cfg { s with sawError := true } .socketDown fun e => { session := [e] }
      else some ({ s with sawError := true }, {})
    else none
  | .onclose now code reason =>
    if s.socket = .dialled && !s.dropped then
      let s := { s with dropped := true }
      -- the error is built before `settled` is looked at, so it may throw after an open too
      match connectError cfg now code reason s.sawError (describeCloseCode code) with
      | .error err => some (s, { throws := some err })
      | .ok err =>
        match settleConnect s (.error err) with
        | (s', some settles) => some (s', { settles := some settles })
        | (s', none) =>
          inSession cfg s' .socketDown fun e =>
            { session := [e], notifies := !s.userClosed && cfg.hasOnClose }
    else none
  | .timeout now =>
    if s.timer then
      let s := { s with timer := false }
      match connectError cfg now none (some (js "no open/close within " ++
          natText cfg.connectTimeoutMs ++ js "ms")) false timeoutHint with
      | .error err => some (s, { throws := some err })
      | .ok err =>
        let (s', settles) := settleConnect s (.error err)
        some (s', { settles })
    else none
  | .close => inSession cfg { s with userClosed := true } .close fun e => { session := [e] }
  | .session .socketDown => none
  | .session .close => none
  | .session i => inSession cfg s i fun e => { session := [e] }

/-- One step of a connection. -/
def step (s : State) (input : Input) : Option (State × Event) :=
  (react cfg s input).map fun (s', shown) => (s', { toShown := shown, input })

/-- One step of a connection and the event it emits. -/
abbrev Step : State → List Event → State → Prop := Lts.Does (step cfg)

/-! ## What the events are -/

/-- What an input means to the connection. -/
inductive Kind where
  /-- `connect()` was called, and the dial threw. -/
  | refusal
  /-- The socket opened. -/
  | opened
  /-- The socket closed. -/
  | dropped
  /-- The connect timeout fired. -/
  | timedOut
  /-- `close()` was called. -/
  | closed
  | other
  deriving DecidableEq

def Input.kind : Input → Kind
  | .connect construct =>
    match dial cfg construct with
    | .error _ => .refusal
    | .ok _ => .other
  | .onopen => .opened
  | .onerror => .other
  | .onclose .. => .dropped
  | .timeout _ => .timedOut
  | .close => .closed
  | .session _ => .other

abbrev Event.kind (e : Event) : Kind := e.input.kind cfg

/-- What an input says of the promise of `_openSocket`: fulfil, reject, or nothing. -/
def Kind.verdict : Kind → Option Bool
  | .opened => some true
  | .refusal | .dropped | .timedOut => some false
  | .closed | .other => none

/-- Whether a settlement fulfils, rather than rejects. -/
def fulfils : Except JsError Unit → Bool
  | .ok _ => true
  | .error _ => false

/-- The waiters an event registers or resolves at once. -/
def Event.registers (e : Event) : List Nat :=
  (e.session.flatMap Session.Event.mailboxEvents).flatMap Mailbox.Event.waits

/-- The token expires on a date, or never: `toISOString` does not throw. -/
def Config.Dated : Prop :=
  ∀ exp, decodeJwtExp cfg.session.P cfg.mediatorJwt = some exp →
    match cfg.expMs exp with
    | .finite expMs => -maxTime ≤ expMs
    | .infinity positive => positive = true

/-! ## What a step does -/

variable {cfg}

/-- With a date or none, the error is built. -/
lemma connectError_ok (h : cfg.Dated) (now : Instant) (code : Option Nat)
    (reason : Option JsString) (sawError : Bool) (hint : JsString) :
    ∃ err, connectError cfg now code reason sawError hint = .ok err := by
  unfold connectError
  cases hexp : decodeJwtExp cfg.session.P cfg.mediatorJwt with
  | none => exact ⟨_, rfl⟩
  | some exp =>
    have hdated := h exp hexp
    suffices hpart : ∃ part, expiredPart cfg.session.P now (cfg.expMs exp) = .ok part by
      obtain ⟨part, hpart⟩ := hpart
      simp only [hpart, ok_bind]
      exact ⟨_, rfl⟩
    cases hms : cfg.expMs exp with
    | infinity positive =>
      simp only [hms] at hdated
      exact ⟨[], by rw [hdated]; rfl⟩
    | finite expMs =>
      simp only [hms] at hdated
      simp only [expiredPart]
      split
      · rename_i hskew
        -- the token has expired, so its expiry is not after the last date either
        have hnow : (now.ms : ℚ) ≤ maxTime := by exact_mod_cast now.inRange.2
        rw [if_neg (by
          rintro (hlow | hhigh)
          · exact absurd hdated (not_le.mpr hlow)
          · linarith)]
        exact ⟨_, rfl⟩
      · exact ⟨_, rfl⟩

variable (cfg)

/-- What a step does to the flags, and what it shows, where the error of a failed connect is always
built. -/
structure Effects (s s' : State) (e : Event) : Prop where
  settled : s'.settled = (s.settled || (e.kind cfg).verdict.isSome)
  settles : e.settles.map fulfils = if s.settled then none else (e.kind cfg).verdict
  userClosed : s'.userClosed = (s.userClosed || e.kind cfg = .closed)
  dropped : s'.dropped = (s.dropped || e.kind cfg = .dropped)
  refused : e.kind cfg = .refusal → s'.socket = .refused
  socket : s.socket = .refused → s'.socket = .refused
  drops : e.kind cfg = .dropped → s.socket = .dialled ∧ s.dropped = false
  notifies : e.notifies = (e.kind cfg = .dropped && s.settled && !s.userClosed && cfg.hasOnClose)
  session : Lts.Run (Session.Step cfg.session) s.session e.session s'.session
  down : e.kind cfg = .dropped → s.settled = true → s'.session.mailbox.waiters = []

variable {cfg} {s s' : State}

/-- A step in the session is a step of the session. -/
lemma inSession_eq_some {i : Session.Input} {shown : Session.Event → Shown} {d : Shown}
    (h : inSession cfg s i shown = some (s', d)) :
    ∃ session ev, Session.step cfg.session s.session i = some (session, ev) ∧
      s' = { s with session } ∧ d = shown ev := by
  obtain ⟨⟨session, ev⟩, hs, heq⟩ := Option.map_eq_some_iff.mp h
  cases heq
  exact ⟨session, ev, hs, rfl, rfl⟩

/-- Nobody waits on a socket that is down. -/
lemma waiters_of_socketDown {c : Session.Config} {ss ss' : Session.State} {e : Session.Event}
    (h : Session.step c ss .socketDown = some (ss', e)) : ss'.mailbox.waiters = [] := by
  cases h
  rfl

/-- What a reaction does. -/
lemma effects_of_react {i : Input} {shown : Shown} (h : react cfg s i = some (s', shown))
    (hdated : i.kind cfg = .dropped ∨ i.kind cfg = .timedOut → cfg.Dated) :
    Effects cfg s s' { toShown := shown, input := i } := by
  have hstay : Lts.Run (Session.Step cfg.session) s.session [] s.session := .nil _
  have hmove : ∀ {input session ev}, Session.step cfg.session s.session input = some (session, ev) →
      Lts.Run (Session.Step cfg.session) s.session [ev] session :=
    fun hs => .snoc (.nil _) ⟨_, _, hs, rfl⟩
  cases i with
  | connect construct =>
    simp only [react, settleConnect] at h
    split at h
    · split at h
      · split at h
        all_goals
          cases h
          constructor <;> simp_all [Event.kind, Input.kind, Kind.verdict, fulfils]
      · cases h
        constructor <;> simp_all [Event.kind, Input.kind, Kind.verdict]
    · cases h
  | onopen =>
    simp only [react, settleConnect] at h
    split at h
    · split at h
      all_goals
        cases h
        constructor <;> simp_all [Event.kind, Input.kind, Kind.verdict, fulfils]
    · cases h
  | onerror =>
    simp only [react] at h
    split at h
    · split at h
      · obtain ⟨session, ev, hs, rfl, rfl⟩ := inSession_eq_some h
        have hrun := hmove hs
        constructor <;> simp_all [Event.kind, Input.kind, Kind.verdict]
      · cases h
        constructor <;> simp_all [Event.kind, Input.kind, Kind.verdict]
    · cases h
  | onclose now code reason =>
    obtain ⟨err, herr⟩ :=
      connectError_ok (hdated (.inl rfl)) now code reason s.sawError (describeCloseCode code)
    simp only [react, herr, settleConnect] at h
    split at h
    · cases hsettled : s.settled with
      | false =>
        simp only [hsettled] at h
        cases h
        constructor <;> simp_all [Event.kind, Input.kind, Kind.verdict, fulfils]
      | true =>
        -- after an open, or after the timeout
        simp only [hsettled, if_true] at h
        obtain ⟨session, ev, hs, rfl, rfl⟩ := inSession_eq_some h
        have hrun := hmove hs
        have hdown := waiters_of_socketDown hs
        constructor <;> simp_all [Event.kind, Input.kind, Kind.verdict]
    · cases h
  | timeout now =>
    obtain ⟨err, herr⟩ := connectError_ok (hdated (.inr rfl)) now none
      (some (js "no open/close within " ++ natText cfg.connectTimeoutMs ++ js "ms")) false
      timeoutHint
    simp only [react, herr, settleConnect] at h
    split at h
    · split at h
      all_goals
        cases h
        constructor <;> simp_all [Event.kind, Input.kind, Kind.verdict, fulfils]
    · cases h
  | close =>
    simp only [react] at h
    obtain ⟨session, ev, hs, rfl, rfl⟩ := inSession_eq_some h
    have hrun := hmove hs
    constructor <;> simp_all [Event.kind, Input.kind, Kind.verdict]
  | session input =>
    have h : inSession cfg s input (fun e => { session := [e] }) = some (s', shown) := by
      cases input with
      | socketDown | close => cases h
      | _ => exact h
    obtain ⟨session, ev, hs, rfl, rfl⟩ := inSession_eq_some h
    have hrun := hmove hs
    constructor <;> simp_all [Event.kind, Input.kind, Kind.verdict]

/-! ## The invariant -/

variable (cfg)

/-- When `onClose` is called, by the events before. -/
def Notified (pre : List Event) (e : Event) : Prop :=
  e.notifies = true ↔ e.kind cfg = .dropped ∧ cfg.hasOnClose = true ∧
    (∃ d ∈ pre, d.kind cfg = .opened ∨ d.kind cfg = .timedOut) ∧ ∀ d ∈ pre, d.kind cfg ≠ .closed

/-- No waiter registered before a close that follows an open is pending. -/
def NoneWaits (s : State) (tr : List Event) : Prop :=
  ∀ pre e post, tr = pre ++ e :: post → e.kind cfg = .dropped →
    (∃ d ∈ pre, d.kind cfg = .opened) →
    ∀ w ∈ s.session.mailbox.waiters, w.id ∉ pre.flatMap Event.registers

/-- The flags are what the events say. -/
structure Tracks (s : State) (tr : List Event) : Prop where
  settled : s.settled = true ↔ ∃ d ∈ tr, (d.kind cfg).verdict.isSome = true
  settles : (tr.filterMap (·.settles)).map fulfils =
    (tr.filterMap fun d => (d.kind cfg).verdict).take 1
  userClosed : s.userClosed = true ↔ ∃ d ∈ tr, d.kind cfg = .closed
  dropped : tr.countP (·.kind cfg = .dropped) = s.dropped.toNat
  refused : (∃ d ∈ tr, d.kind cfg = .refusal) → s.socket = .refused
  notified : Lts.Guarded (Notified cfg) tr
  session : Lts.Run (Session.Step cfg.session) {} (tr.flatMap (·.session)) s.session
  waiters : NoneWaits cfg s tr

/-- Nothing has happened at first. -/
lemma tracks_init : Tracks cfg {} [] where
  settled := by simp
  settles := rfl
  userClosed := by simp
  dropped := rfl
  refused := by simp
  notified := Lts.guarded_nil
  session := .nil _
  waiters := by simp [NoneWaits]

section Step
variable {cfg} {s s' : State} {tr : List Event} {e : Event}

/-- A connection settles by the first verdict. -/
lemma Tracks.step_settles (inv : Tracks cfg s tr) (h : Effects cfg s s' e) :
    ((tr ++ [e]).filterMap (·.settles)).map fulfils =
      ((tr ++ [e]).filterMap fun d => (d.kind cfg).verdict).take 1 := by
  have hlast : ([e].filterMap (·.settles)).map fulfils = (e.settles.map fulfils).toList := by
    cases hsettles : e.settles <;> simp [hsettles]
  have hverdict : [e].filterMap (fun d => (d.kind cfg).verdict) = (e.kind cfg).verdict.toList := by
    cases hv : (e.kind cfg).verdict <;> simp [hv]
  rw [List.filterMap_append, List.map_append, List.filterMap_append, inv.settles, hlast, hverdict,
    h.settles]
  cases hverdicts : tr.filterMap fun d => (d.kind cfg).verdict with
  | nil =>
    -- nothing has settled the promise before
    have hopen : s.settled = false := by
      rw [Bool.eq_false_iff, ne_eq, inv.settled]
      rintro ⟨d, hd, hv⟩
      rw [List.filterMap_eq_nil_iff] at hverdicts
      simp [hverdicts d hd] at hv
    cases (e.kind cfg).verdict <;> simp [hopen]
  | cons v vs =>
    have hsettled : s.settled = true := by
      obtain ⟨d, hd, hv⟩ := List.mem_filterMap.mp (hverdicts ▸ List.mem_cons_self (a := v) (l := vs))
      exact inv.settled.mpr ⟨d, hd, by simp [hv]⟩
    simp [hsettled]

/-- At a close, the socket exists and has not closed before. -/
lemma Tracks.before_drop (inv : Tracks cfg s tr) (h : Effects cfg s s' e)
    (hdrop : e.kind cfg = .dropped) {d : Event} (hd : d ∈ tr) :
    d.kind cfg ≠ .refusal ∧ d.kind cfg ≠ .dropped := by
  obtain ⟨hsocket, hnot⟩ := h.drops hdrop
  constructor
  · intro hrefused
    have := inv.refused ⟨d, hd, hrefused⟩
    simp [hsocket] at this
  · intro hdropped
    have hzero : tr.countP (·.kind cfg = .dropped) = 0 := by
      rw [inv.dropped, hnot]
      rfl
    simpa [hdropped] using List.countP_eq_zero.mp hzero d hd

/-- A step notifies once. -/
lemma Tracks.step_notified (inv : Tracks cfg s tr) (h : Effects cfg s s' e) :
    Notified cfg tr e := by
  unfold Notified
  rw [h.notifies]
  simp only [Bool.and_eq_true, decide_eq_true_eq, Bool.not_eq_true']
  constructor
  · rintro ⟨⟨⟨hdrop, hsettled⟩, hclosed⟩, hlistens⟩
    refine ⟨hdrop, hlistens, ?_, ?_⟩
    · obtain ⟨d, hd, hv⟩ := inv.settled.mp hsettled
      obtain ⟨hrefused, hdropped⟩ := inv.before_drop h hdrop hd
      refine ⟨d, hd, ?_⟩
      cases hkind : d.kind cfg <;> simp_all [Kind.verdict]
    · intro d hd hkind
      exact absurd (inv.userClosed.mpr ⟨d, hd, hkind⟩) (by simp [hclosed])
  · rintro ⟨hdrop, hlistens, ⟨d, hd, hkind⟩, hclosed⟩
    refine ⟨⟨⟨hdrop, inv.settled.mpr ⟨d, hd, ?_⟩⟩, ?_⟩, hlistens⟩
    · rcases hkind with hkind | hkind <;> simp [hkind, Kind.verdict]
    · rw [Bool.eq_false_iff, ne_eq, inv.userClosed]
      rintro ⟨d, hd, hkind⟩
      exact hclosed d hd hkind

/-- A waiter that is registered was numbered. -/
lemma Tracks.registered (inv : Tracks cfg s tr) {id : Nat} (hid : id ∈ tr.flatMap Event.registers) :
    id < s.session.mailbox.nextWaiter := by
  have hcorrelated := Mailbox.correlated_of_run (Session.run_mailbox inv.session)
  refine (hcorrelated.waited.old id ?_).1
  simpa [Event.registers, List.flatMap_assoc] using hid

/-- A step leaves nobody waiting on a dropped socket. -/
lemma Tracks.step_waiters (inv : Tracks cfg s tr) (h : Effects cfg s s' e) :
    NoneWaits cfg s' (tr ++ [e]) := by
  intro pre d post hsplit hdrop hopened w hw hid
  obtain rfl | ⟨post, x, rfl⟩ := List.eq_nil_or_concat post
  · -- the close itself rejects every waiter
    obtain ⟨rfl, hlast⟩ := List.append_inj' hsplit rfl
    cases hlast
    obtain ⟨o, ho, hkind⟩ := hopened
    have hsettled := inv.settled.mpr ⟨o, ho, by simp [hkind, Kind.verdict]⟩
    simp [h.down hdrop hsettled] at hw
  · rw [List.concat_eq_append, ← List.cons_append, ← List.append_assoc] at hsplit
    obtain ⟨rfl, -⟩ := List.append_inj' hsplit rfl
    have hmailbox := Session.run_mailbox_from h.session
    rcases (Mailbox.old_waiters_of_run hmailbox).2 w hw with hold | hnew
    · exact inv.waiters pre d post rfl hdrop hopened w hold hid
    · have hlt : w.id < s.session.mailbox.nextWaiter := inv.registered (by
        rw [List.flatMap_append]
        exact List.mem_append_left _ hid)
      omega

/-- A step keeps track. -/
lemma Tracks.step (inv : Tracks cfg s tr) (h : Effects cfg s s' e) :
    Tracks cfg s' (tr ++ [e]) where
  settled := by
    rw [h.settled, Bool.or_eq_true, inv.settled]
    simp [or_and_right, exists_or]
  settles := inv.step_settles h
  userClosed := by
    rw [h.userClosed, Bool.or_eq_true, inv.userClosed]
    simp [or_and_right, exists_or]
  dropped := by
    rw [List.countP_append, inv.dropped, h.dropped]
    by_cases hdrop : e.kind cfg = .dropped
    · simp [hdrop, (h.drops hdrop).2]
    · simp [hdrop]
  refused := by
    rintro ⟨d, hd, hrefused⟩
    rcases List.mem_append.mp hd with hd | hd
    · exact h.socket (inv.refused ⟨d, hd, hrefused⟩)
    · cases List.mem_singleton.mp hd
      exact h.refused hrefused
  notified := Lts.guarded_snoc.mpr ⟨inv.notified, inv.step_notified h⟩
  session := by
    rw [List.flatMap_append]
    simpa using inv.session.trans h.session
  waiters := inv.step_waiters h

end Step

/-- An event whose handler builds the error of a failed connect finds a date in the token. -/
def DatedAt (e : Event) : Prop :=
  e.kind cfg = .dropped ∨ e.kind cfg = .timedOut → cfg.Dated

variable {cfg}

/-- A run keeps track. -/
lemma tracks_of_run {s : State} {tr : List Event} (r : Lts.Run (Step cfg) {} tr s)
    (hdated : ∀ e ∈ tr, DatedAt cfg e) : Tracks cfg s tr := by
  refine (r.restrict hdated).invariant (tracks_init cfg) fun inv hs => ?_
  obtain ⟨⟨i, e, hstep, rfl⟩, hdated⟩ := hs
  obtain ⟨⟨s', shown⟩, hreact, heq⟩ := Option.map_eq_some_iff.mp hstep
  cases heq
  exact inv.step (effects_of_react hreact (hdated _ (List.mem_singleton_self _)))

/-! ## The lifecycle -/

variable (cfg)

/-- What a connection promises, in a state and of the events that led there. -/
structure Lifecycle (s : State) (tr : List Event) : Prop where
  /-- The promise of `_openSocket` settles once, on the first event that decides it. -/
  settlesOnce : (tr.filterMap (·.settles)).length =
    if ∃ d ∈ tr, (d.kind cfg).verdict.isSome = true then 1 else 0
  /-- It fulfils where an open came before any close and before the timeout. -/
  fulfils : (∃ d ∈ tr, d.settles = some (.ok ())) ↔
    ∃ pre e post, tr = pre ++ e :: post ∧ e.kind cfg = .opened ∧
      ∀ d ∈ pre, (d.kind cfg).verdict ≠ some false
  /-- `onClose` is called at most once. -/
  notifiesOnce : tr.countP (·.notifies) ≤ 1
  /-- It is called after an open, and not after `close()`. -/
  notifies : Lts.Guarded (fun pre e => e.notifies = true →
    (∃ d ∈ pre, d.kind cfg = .opened) ∧ ∀ d ∈ pre, d.kind cfg ≠ .closed) tr
  /-- After a close that follows an open, no waiter registered before it is pending. -/
  waiters : NoneWaits cfg s tr

/-- A close that follows a fired connect timeout finds no listener, or an open or a `close()`
before it. -/
def TimeoutSpared (tr : List Event) : Prop :=
  Lts.Guarded (fun pre e => e.kind cfg = .dropped → cfg.hasOnClose = true →
    (∃ d ∈ pre, d.kind cfg = .timedOut) → ∃ d ∈ pre, d.kind cfg = .opened ∨ d.kind cfg = .closed) tr

variable {cfg} {s : State} {tr : List Event}

/-- The first verdict is a fulfilment where one comes before every rejection. -/
lemma true_mem_take_one {α : Type} (g : α → Option Bool) (l : List α) :
    true ∈ (l.filterMap g).take 1 ↔
      ∃ pre a post, l = pre ++ a :: post ∧ g a = some true ∧ ∀ b ∈ pre, g b ≠ some false := by
  induction l with
  | nil => simp
  | cons a l ih =>
    constructor
    · intro h
      match hg : g a with
      | none =>
        rw [List.filterMap_cons_none hg] at h
        obtain ⟨pre, b, post, rfl, hb, hpre⟩ := ih.mp h
        refine ⟨a :: pre, b, post, rfl, hb, fun d hd => ?_⟩
        rcases List.mem_cons.mp hd with rfl | hd
        · simp [hg]
        · exact hpre d hd
      | some true => exact ⟨[], a, l, rfl, hg, by simp⟩
      | some false => simp [List.filterMap_cons_some hg] at h
    · rintro ⟨pre, b, post, hl, hb, hpre⟩
      cases pre with
      | nil =>
        cases hl
        simp [List.filterMap_cons_some hb]
      | cons c pre =>
        cases hl
        have hrest := ih.mpr ⟨pre, b, post, rfl, hb, fun d hd => hpre d (List.mem_cons_of_mem _ hd)⟩
        match hg : g a with
        | none => rwa [List.filterMap_cons_none hg]
        | some true => simp [List.filterMap_cons_some hg]
        | some false => exact absurd hg (hpre a (List.mem_cons_self ..))

/-- A connection settles once, when it has a verdict. -/
lemma Tracks.settlesOnce (inv : Tracks cfg s tr) : (tr.filterMap (·.settles)).length =
    if ∃ d ∈ tr, (d.kind cfg).verdict.isSome = true then 1 else 0 := by
  have hlength := congrArg List.length inv.settles
  rw [List.length_map, List.length_take] at hlength
  rw [hlength]
  split
  · rename_i hsome
    obtain ⟨d, hd, hv⟩ := hsome
    obtain ⟨v, hv⟩ := Option.isSome_iff_exists.mp hv
    have hmem : v ∈ tr.filterMap fun d => (d.kind cfg).verdict :=
      List.mem_filterMap.mpr ⟨d, hd, hv⟩
    have hpos := List.length_pos_of_mem hmem
    omega
  · rename_i hnone
    have hnil : (tr.filterMap fun d => (d.kind cfg).verdict) = [] := by
      apply List.filterMap_eq_nil_iff.mpr
      intro d hd
      rw [← Option.not_isSome_iff_eq_none]
      exact fun hv => hnone ⟨d, hd, hv⟩
    simp [hnil]

/-- A connection is fulfilled when it opens before it fails. -/
lemma Tracks.fulfilled_iff (inv : Tracks cfg s tr) : (∃ d ∈ tr, d.settles = some (.ok ())) ↔
    ∃ pre e post, tr = pre ++ e :: post ∧ e.kind cfg = .opened ∧
      ∀ d ∈ pre, (d.kind cfg).verdict ≠ some false := by
  have hfirst := true_mem_take_one (fun d : Event => (d.kind cfg).verdict) tr
  rw [← inv.settles] at hfirst
  have hopened : ∀ k : Kind, k.verdict = some true ↔ k = .opened := by
    intro k
    cases k <;> simp [Kind.verdict]
  simp only [hopened] at hfirst
  rw [← hfirst]
  constructor
  · rintro ⟨d, hd, hsettles⟩
    exact List.mem_map.mpr ⟨_, List.mem_filterMap.mpr ⟨d, hd, hsettles⟩, rfl⟩
  · intro h
    obtain ⟨o, ho, hfulfils⟩ := List.mem_map.mp h
    obtain ⟨d, hd, hsettles⟩ := List.mem_filterMap.mp ho
    cases o with
    | ok => exact ⟨d, hd, hsettles⟩
    | error => cases hfulfils

/-- `onClose` is called at a close only, and the socket closes once. -/
lemma Tracks.notifiesOnce (inv : Tracks cfg s tr) : tr.countP (·.notifies) ≤ 1 := by
  have hclose : ∀ e ∈ tr, e.notifies = true → decide (e.kind cfg = .dropped) = true := by
    intro e he hnotifies
    obtain ⟨pre, post, rfl⟩ := List.append_of_mem he
    have hnotified := inv.notified pre e post rfl
    simpa using (hnotified.mp hnotifies).1
  calc tr.countP (·.notifies)
      ≤ tr.countP (·.kind cfg = .dropped) := List.countP_mono_left hclose
    _ = s.dropped.toNat := inv.dropped
    _ ≤ 1 := Bool.toNat_le _

/-- `onClose` waits for an open where the timeout is spared. -/
lemma Tracks.notifies_iff (inv : Tracks cfg s tr) :
    Lts.Guarded (fun pre e => e.notifies = true →
      (∃ d ∈ pre, d.kind cfg = .opened) ∧ ∀ d ∈ pre, d.kind cfg ≠ .closed) tr ↔
    TimeoutSpared cfg tr := by
  constructor
  · rintro h pre e post rfl hdrop hlistens ⟨d, hd, hkind⟩
    by_cases hclosed : ∃ d ∈ pre, d.kind cfg = .closed
    · obtain ⟨c, hc, hclosed⟩ := hclosed
      exact ⟨c, hc, .inr hclosed⟩
    · have hnotifies : e.notifies = true :=
        (inv.notified pre e post rfl).mpr
          ⟨hdrop, hlistens, ⟨d, hd, .inr hkind⟩, fun c hc hk => hclosed ⟨c, hc, hk⟩⟩
      obtain ⟨o, ho, hopened⟩ := (h pre e post rfl hnotifies).1
      exact ⟨o, ho, .inl hopened⟩
  · rintro h pre e post rfl hnotifies
    obtain ⟨hdrop, hlistens, ⟨d, hd, hkind⟩, hclosed⟩ := (inv.notified pre e post rfl).mp hnotifies
    refine ⟨?_, hclosed⟩
    rcases hkind with hkind | hkind
    · exact ⟨d, hd, hkind⟩
    · obtain ⟨o, ho, hopened⟩ := h pre e post rfl hdrop hlistens ⟨d, hd, hkind⟩
      exact ⟨o, ho, hopened.resolve_right (hclosed o ho)⟩

/-- A run without a timeout is spared one. -/
lemma timeoutSpared_of_none (h : ∀ d ∈ tr, d.kind cfg ≠ .timedOut) : TimeoutSpared cfg tr := by
  rintro pre e post rfl - - ⟨d, hd, hkind⟩
  exact absurd hkind (h d (List.mem_append_left _ hd))

/-- Where the token expires on a date, a run keeps the promise if and only if the close that follows
a fired timeout is spared. -/
theorem lifecycle_iff (r : Lts.Run (Step cfg) {} tr s) (hdated : ∀ e ∈ tr, DatedAt cfg e) :
    Lifecycle cfg s tr ↔ TimeoutSpared cfg tr := by
  have inv := tracks_of_run r hdated
  constructor
  · intro h
    exact inv.notifies_iff.mp h.notifies
  · intro h
    exact {
      settlesOnce := inv.settlesOnce
      fulfils := inv.fulfilled_iff
      notifiesOnce := inv.notifiesOnce
      notifies := inv.notifies_iff.mpr h
      waiters := inv.waiters }

/-- With a date that is none, building the error throws. -/
lemma connectError_throws (h : ¬ cfg.Dated) (now : Instant) (code : Option Nat)
    (reason : Option JsString) (sawError : Bool) (hint : JsString) :
    ∃ err, connectError cfg now code reason sawError hint = .error err := by
  obtain ⟨exp, hnot⟩ := not_forall.mp h
  obtain ⟨hexp, hundated⟩ := Classical.not_imp.mp hnot
  have hpart : ∃ err, expiredPart cfg.session.P now (cfg.expMs exp) = .error err := by
    cases hms : cfg.expMs exp with
    | infinity positive =>
      cases positive with
      | true => simp [hms] at hundated
      | false => exact ⟨_, rfl⟩
    | finite expMs =>
      simp only [hms, not_le] at hundated
      have hnow : (-maxTime : ℚ) ≤ now.ms := by exact_mod_cast now.inRange.1
      refine ⟨rangeError (js "Invalid time value"), ?_⟩
      simp only [expiredPart]
      rw [if_pos (by linarith), if_pos (.inl hundated)]
  obtain ⟨err, hpart⟩ := hpart
  refine ⟨err, ?_⟩
  simp only [connectError, hexp, hpart]
  rfl

/-- Where the token expires before the first date, a close or the timeout does nothing: the promise
stays as it is, no waiter is rejected and `onClose` is not called. -/
theorem undated_throws (h : ¬ cfg.Dated) {s' : State} {e : Event} {i : Input}
    (hstep : step cfg s i = some (s', e)) (hkind : i.kind cfg = .dropped ∨ i.kind cfg = .timedOut) :
    e.settles = none ∧ e.notifies = false ∧ s'.settled = s.settled ∧ s'.session = s.session := by
  obtain ⟨⟨s₁, shown⟩, hreact, heq⟩ := Option.map_eq_some_iff.mp hstep
  cases heq
  cases i with
  | onclose now code reason =>
    obtain ⟨err, herr⟩ :=
      connectError_throws h now code reason s.sawError (describeCloseCode code)
    simp only [react, herr] at hreact
    split at hreact
    · cases hreact
      exact ⟨rfl, rfl, rfl, rfl⟩
    · cases hreact
  | timeout now =>
    obtain ⟨err, herr⟩ := connectError_throws h now none
      (some (js "no open/close within " ++ natText cfg.connectTimeoutMs ++ js "ms")) false
      timeoutHint
    simp only [react, herr] at hreact
    split at hreact
    · cases hreact
      exact ⟨rfl, rfl, rfl, rfl⟩
    · cases hreact
  | connect construct =>
    simp only [Input.kind] at hkind
    split at hkind <;> simp at hkind
  | onopen | onerror | close | session => simp [Input.kind] at hkind

/-- A session on a public endpoint with a listener, and a token without an expiry. -/
def Config.listening : Config where
  session := .sample .plain
  wsEndpoint := js "wss://mediator.example/ws"
  wsPolicy := {}
  mediatorJwt := js "token"
  hasOnClose := true
  expMs _ := .infinity true

/-- The sample token expires on a date. -/
lemma Config.listening_dated : Config.listening.Dated := by
  intro exp hexp
  rfl

/-- The moment 0. -/
def Instant.epoch : Instant := ⟨0, by decide⟩

/-- A connection that opens and drops keeps the promise. -/
theorem lifecycle_iff_example :
    ∃ s tr, Lts.Run (Step .listening) {} tr s ∧ (∃ e ∈ tr, e.notifies = true) ∧
      Lifecycle .listening s tr := by
  have hrun := Lts.run_of_exec
    (show Lts.exec (step .listening) {}
      [.connect (.ok ()), .onopen, .onclose .epoch (some 1006) none] = some (_, _) from rfl)
  refine ⟨_, _, hrun, ⟨_, List.mem_cons_of_mem _ (List.mem_cons_of_mem _ (List.mem_cons_self ..)),
    rfl⟩, (lifecycle_iff hrun fun _ _ _ => Config.listening_dated).mpr ?_⟩
  exact timeoutSpared_of_none (of_decide_eq_true rfl)

/-- The connect timeout closes the socket, and the close reaches `onClose` though nothing opened. -/
theorem onClose_after_timeout :
    ¬ ∀ (cfg : Config) (s : State) (tr : List Event), Lts.Run (Step cfg) {} tr s →
      Lifecycle cfg s tr := by
  intro h
  have hrun := Lts.run_of_exec
    (show Lts.exec (step .listening) {}
      [.connect (.ok ()), .timeout .epoch, .onclose .epoch (some 1006) none] = some (_, _) from rfl)
  obtain ⟨⟨d, hd, hopened⟩, -⟩ := (h _ _ _ hrun).notifies [_, _] _ [] rfl rfl
  simp only [List.mem_cons, List.not_mem_nil, or_false] at hd
  rcases hd with rfl | rfl <;> cases hopened

end VtiDidcomm.Connection
