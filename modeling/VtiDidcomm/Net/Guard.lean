import VtiDidcomm.Did.Basic
import VtiDidcomm.Effect.Prog
import VtiDidcomm.Js.Platform
import VtiDidcomm.Net.Ip

/-!
# The egress guard

`net-guard.js`: the check of a URL against an `EndpointPolicy` before it is dialed
(`assertSafeEndpoint`), and the `fetch` that makes it (`guardedFetch`). A function that talks to the
network is a `Net` program: its requests are the URLs it fetches or dials.
-/

namespace VtiDidcomm
open Js

/-! ## Requests -/

/-- What is sent over the network: a `fetch`, or the opening of a WebSocket. -/
inductive Request where
  | fetch (url method : JsString) (body : Option JsString) (redirect : JsString)
  | webSocket (url : JsString) (protocols : List JsString)

/-- The URL a request goes to. -/
def Request.url : Request → JsString
  | fetch url _ _ _ => url
  | webSocket url _ => url

/-- A response: its status, whether the platform hid a redirect behind it, and its body. -/
structure Response where
  status : Nat
  opaqueRedirect : Bool
  body : Except JsError JsString

/-- `response.ok` -/
def Response.ok (r : Response) : Bool := 200 ≤ r.status && r.status < 300

/-- A program over the network, which may throw. -/
abbrev Net := ExceptT JsError (Effect.Prog Request (Except JsError Response))

/-- Makes one request: the response, or the error it failed with. -/
def send (q : Request) : Net Response := ExceptT.mk (Effect.Prog.ask q)

/-- A computation without requests. -/
def Net.lift {α : Type} (r : Except JsError α) : Net α := ExceptT.mk (pure r)

/-- A check sends nothing. -/
lemma safe_lift {φ : Request → Prop} {α : Type} (r : Except JsError α) :
    Effect.Prog.Safe φ (Net.lift r).run := trivial

/-- A check returns what it returns. -/
lemma returns_lift {α : Type} {r s : Except JsError α} :
    Effect.Prog.Returns (Net.lift r).run s ↔ r = s := Iff.rfl

/-- What is sent is the request. -/
lemma safe_send {φ : Request → Prop} (q : Request) :
    Effect.Prog.Safe φ (send q).run ↔ φ q := Effect.Prog.safe_ask q

/-! ## Policies -/

/-- `EndpointPolicy`: a `NetPolicy` with the settings of one call site. -/
structure EndpointPolicy extends NetPolicy where
  label : JsString := js "endpoint"
  schemes : List JsString := [js "https:", js "wss:"]

/-- What one `allowHosts` entry admits. -/
inductive HostRule where
  | exact (host : JsString)
  | suffix (suffix : JsString)

/-- `BlockedEndpointError` -/
def blocked (message reason label : JsString) (details : List (JsString × JsString)) : JsError :=
  { name := js "BlockedEndpointError"
    message := message
    code := some (js "E_BLOCKED_ENDPOINT")
    details := (js "reason", reason) :: (js "label", label) :: details }

/-- `err instanceof BlockedEndpointError` -/
def isBlockedError (err : JsError) : Bool := err.name = js "BlockedEndpointError"

/-- `PLAINTEXT_OF[s]` -/
def plaintextOf (s : JsString) : Option JsString :=
  if s = js "https:" then some (js "http:")
  else if s = js "wss:" then some (js "ws:")
  else none

/-- `NETWORK_SCHEMES` -/
def networkSchemes : List JsString := [js "https:", js "wss:", js "http:", js "ws:"]

variable (pf : Platform)

/-- One entry of `schemes`, with its colon. -/
def normalizeScheme (raw : JsString) : Except JsError JsString :=
  let lower := pf.toLowerCase raw
  let s := if endsWith lower (js ":") then lower else lower ++ js ":"
  if s ∈ networkSchemes then .ok s
  else .error (typeError (js "net-guard: unsupported scheme " ++ Json.quote raw ++
    js " (use https:, wss:, http: or ws:)"))

/-- `normalizeSchemes`: the schemes a policy accepts. -/
def normalizeSchemes (schemes : List JsString) (allowInsecure : Bool) :
    Except JsError (List JsString) :=
  if schemes = [] then .error (typeError (js "net-guard: schemes must be a non-empty array"))
  else do
    let list ← schemes.mapM (normalizeScheme pf)
    return list.flatMap fun s =>
      s :: (if allowInsecure then (plaintextOf s).toList else [])

/-- `canonicalHost` -/
def canonicalHost (hostname : JsString) : JsString :=
  let h := pf.toLowerCase hostname
  if startsWith h (js "[") && endsWith h (js "]") then (sliceFrom h 1).dropLast else trimEnd h dot

/-- The authority an `allowHosts` name stands for: an IPv6 literal gains its brackets. -/
def ruleAuthority (name : JsString) : Option JsString :=
  if !startsWith name (js "[") && includes name colon then
    if (parseIpv6 name).isSome then some (js "[" ++ name ++ js "]") else none
  else some name

/-- One entry of `allowHosts`. -/
def normalizeAllowHost (entry : JsString) : Except JsError HostRule :=
  let invalid := typeError (js "net-guard: invalid allowHosts entry " ++ Json.quote entry ++
    js " (host names only, no scheme, port or path)")
  let trimmed := pf.toLowerCase (trim entry)
  let wildcard := startsWith trimmed (js "*.")
  let name := if wildcard then sliceFrom trimmed 2 else trimmed
  if name = [] || name.any fun c => c ∈ js "/@?#*" || isWhiteSpace c then .error invalid
  else
    match (ruleAuthority name).bind fun authority =>
        pf.parseUrl (js "https://" ++ authority ++ js "/") with
    | none => .error invalid
    | some u =>
      if u.port ≠ [] then .error invalid
      else if wildcard then .ok (.suffix (dot :: canonicalHost pf u.hostname))
      else .ok (.exact (canonicalHost pf u.hostname))

/-- `normalizeAllowHosts` -/
def normalizeAllowHosts : Option (List JsString) → Except JsError (Option (List HostRule))
  | none => .ok none
  | some allowHosts => some <$> allowHosts.mapM (normalizeAllowHost pf)

/-- Whether a rule admits a host. -/
def HostRule.admits (host : JsString) : HostRule → Bool
  | exact h => host = h
  | suffix s => s.length < host.length && endsWith host s

/-- `hostAllowed` -/
def hostAllowed (host : JsString) (allowList : List HostRule) : Bool :=
  allowList.any (·.admits host)

/-- `BLOCKED_NAME_SUFFIXES` -/
def blockedNameSuffixes : List JsString :=
  [js ".localhost", js ".local", js ".internal", js ".home.arpa"]

/-- `isBlockedName`: a single-label host, or a local-only name. -/
def isBlockedName (host : JsString) : Bool :=
  !includes host dot || blockedNameSuffixes.any (endsWith host)

/-- `displayUrl` -/
def displayUrl (parsed : Url) : JsString :=
  parsed.protocol ++ js "//" ++ parsed.host ++ parsed.pathname

/-! ## The check -/

/-- Why a parsed URL is refused, with the message that says so and the host where one was checked;
`none` when it is admitted. -/
def refusal (parsed : Url) (schemes : List JsString) (allowList : Option (List HostRule))
    (allowPrivate : Bool) : Option (JsString × JsString × Option JsString) :=
  let host := canonicalHost pf parsed.hostname
  if parsed.protocol ∉ schemes then
    let hint := if parsed.protocol ∈ [js "http:", js "ws:"]
      then js " (plaintext transport needs allowInsecure)" else []
    some (js "scheme", js "scheme " ++ parsed.protocol ++ js " is not allowed" ++ hint, none)
  else if parsed.username ≠ [] || parsed.password ≠ [] then
    some (js "userinfo", js "credentials in the URL are not allowed", none)
  else if host = [] then some (js "invalid_url", [], none)
  else if !allowPrivate && (startsWith parsed.hostname (js "[") || (parseIpv4 host).isSome) &&
      isBlockedIp host then
    some (js "private_address", host ++ js " is not a public address (set allowPrivate for local development)",
      some host)
  else if !allowPrivate && !(startsWith parsed.hostname (js "[") || (parseIpv4 host).isSome) &&
      isBlockedName host then
    some (js "private_name", host ++ js " is a local-only name (set allowPrivate for local development)",
      some host)
  else if allowList.any fun rules => !hostAllowed host rules then
    some (js "not_allowlisted", host ++ js " is not in allowHosts", some host)
  else none

/-- The error of a refused URL. -/
def refusalError (label : JsString) (parsed : Url) :
    JsString × JsString × Option JsString → JsError
  | (reason, why, host) =>
    if reason = js "invalid_url" then
      blocked (js "net-guard: " ++ label ++ js " endpoint has no host") reason label []
    else
      blocked (js "net-guard: " ++ label ++ js " endpoint " ++ displayUrl parsed ++ js " refused: " ++ why)
        reason label ((js "url", displayUrl parsed) :: (host.toList.map fun h => (js "host", h)))

/-- `assertSafeEndpoint`: the parsed URL, for the caller to dial. -/
def assertSafeEndpoint (url : JsString) (policy : EndpointPolicy) : Except JsError Url := do
  let schemes ← normalizeSchemes pf policy.schemes policy.allowInsecure
  let allowList ← normalizeAllowHosts pf policy.allowHosts
  match pf.parseUrl url with
  | none => .error (blocked (js "net-guard: " ++ policy.label ++
      js " endpoint is not a valid absolute URL") (js "invalid_url") policy.label [])
  | some parsed =>
    match refusal pf parsed schemes allowList policy.allowPrivate with
    | some why => .error (refusalError policy.label parsed why)
    | none => .ok parsed

/-- The request function `guardedFetch` returns: the URL is checked first, and a redirect is
refused. -/
def netGuardedFetch (policy : EndpointPolicy) (input method : JsString) (body : Option JsString) :
    Net Response := do
  let parsed ← Net.lift (assertSafeEndpoint pf input policy)
  let resp ← send (.fetch input method body (js "manual"))
  if resp.opaqueRedirect || (300 ≤ resp.status && resp.status < 400) then
    let status := if resp.status = 0 then [] else js " (" ++ natText resp.status ++ js ")"
    throw (blocked (js "net-guard: " ++ policy.label ++ js " endpoint " ++ displayUrl parsed ++
      js " answered with a redirect" ++ status ++ js "; redirects are not followed") (js "redirect")
      policy.label [(js "url", displayUrl parsed), (js "host", canonicalHost pf parsed.hostname),
        (js "status", natText resp.status)])
  else return resp

/-- `guardedFetch`: a malformed policy fails at wiring time. -/
def guardedFetch (policy : EndpointPolicy) :
    Except JsError (JsString → JsString → Option JsString → Net Response) := do
  let _ ← normalizeSchemes pf policy.schemes policy.allowInsecure
  let _ ← normalizeAllowHosts pf policy.allowHosts
  return netGuardedFetch pf policy

/-! ## What the check accepts -/

variable {pf : Platform}

/-- A URL is admitted when its scheme is listed, it carries no credentials, its host is public or
private hosts are allowed, and its host is listed where there is a list. -/
lemma refusal_eq_none {parsed : Url} {schemes : List JsString} {allowList : Option (List HostRule)}
    {allowPrivate : Bool} :
    refusal pf parsed schemes allowList allowPrivate = none ↔
      parsed.protocol ∈ schemes ∧ parsed.username = [] ∧ parsed.password = [] ∧
      canonicalHost pf parsed.hostname ≠ [] ∧
      (allowPrivate = true ∨
        if startsWith parsed.hostname (js "[") ||
            (parseIpv4 (canonicalHost pf parsed.hostname)).isSome
        then isBlockedIp (canonicalHost pf parsed.hostname) = false
        else isBlockedName (canonicalHost pf parsed.hostname) = false) ∧
      ∀ rules, allowList = some rules → hostAllowed (canonicalHost pf parsed.hostname) rules = true := by
  unfold refusal
  dsimp only
  generalize canonicalHost pf parsed.hostname = host
  generalize hlit : (startsWith parsed.hostname (js "[") || (parseIpv4 host).isSome) = lit
  split
  · rename_i h
    simp [h]
  rename_i hproto
  split
  · rename_i h
    simp only [Bool.or_eq_true, decide_eq_true_eq, ne_eq] at h
    constructor
    · intro e
      cases e
    · rintro ⟨-, hu, hp, -⟩
      exact absurd h (by simp [hu, hp])
  rename_i huser
  split
  · rename_i h
    simp [h]
  rename_i hhost
  cases allowPrivate <;> cases lit <;> cases isBlockedIp host <;> cases isBlockedName host <;>
    cases allowList <;> simp_all

/-- `assertSafeEndpoint` accepts a URL that parses and that the policy's lists admit. -/
lemma assertSafeEndpoint_eq_ok {url : JsString} {policy : EndpointPolicy} {u : Url} :
    assertSafeEndpoint pf url policy = .ok u ↔
      ∃ schemes allowList, normalizeSchemes pf policy.schemes policy.allowInsecure = .ok schemes ∧
        normalizeAllowHosts pf policy.allowHosts = .ok allowList ∧ pf.parseUrl url = some u ∧
        refusal pf u schemes allowList policy.allowPrivate = none := by
  unfold assertSafeEndpoint
  cases hs : normalizeSchemes pf policy.schemes policy.allowInsecure with
  | error e => simp [bind, Except.bind]
  | ok schemes =>
    cases ha : normalizeAllowHosts pf policy.allowHosts with
    | error e => simp [bind, Except.bind]
    | ok allowList =>
      cases hp : pf.parseUrl url with
      | none => simp [bind, Except.bind]
      | some parsed =>
        cases hr : refusal pf parsed schemes allowList policy.allowPrivate with
        | some why =>
          simp only [bind, Except.bind, hr]
          constructor
          · rintro ⟨⟩
          · rintro ⟨_, _, ⟨⟩, ⟨⟩, ⟨⟩, h⟩
            rw [hr] at h
            cases h
        | none =>
          simp only [bind, Except.bind, hr]
          constructor
          · rintro ⟨⟩
            exact ⟨_, _, rfl, rfl, rfl, hr⟩
          · rintro ⟨_, _, ⟨⟩, ⟨⟩, ⟨⟩, -⟩
            rfl

/-- Every request of a guarded fetch goes to a URL its policy accepts. -/
lemma safe_netGuardedFetch {φ : Request → Prop} {policy : EndpointPolicy} {input method : JsString}
    {body : Option JsString}
    (h : ∀ u, assertSafeEndpoint pf input policy = .ok u →
      φ (.fetch input method body (js "manual"))) :
    Effect.Prog.Safe φ (netGuardedFetch pf policy input method body).run := by
  unfold netGuardedFetch
  rw [Effect.Prog.safe_run_bind]
  refine ⟨safe_lift _, fun u hu => ?_⟩
  rw [Effect.Prog.safe_run_bind]
  refine ⟨(safe_send _).mpr (h u (returns_lift.mp hu)), fun resp _ => ?_⟩
  split <;> trivial

end VtiDidcomm
