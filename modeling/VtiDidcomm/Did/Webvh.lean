import VtiDidcomm.Net.Guard

/-!
# did:webvh resolution

`did-webvh.js`: the log URL of an identifier (`webvhLogUrl`), the guarded fetches of the log and the
witness file, and the hand-over of the log to the verifying library, bound to the SCID of the
identifier (`resolve`). The library's `resolveDIDFromLog` is a parameter.
-/

namespace VtiDidcomm.Webvh
open Js Effect

/-! ## Options -/

/-- Whether a code unit fits a pattern unit: `9` stands for a digit and `T` for `T` or `t`. -/
def fitsUnit (p c : CodeUnit) : Bool :=
  if p = 0x39 then isDigit c else if p = 0x54 then c = 0x54 || c = 0x74 else c = p

/-- Whether a text fits a pattern unit by unit. -/
def fits (pattern s : JsString) : Bool :=
  s.length = pattern.length && (pattern.zip s).all fun pc => fitsUnit pc.1 pc.2

/-- A time zone of an RFC 3339 date-time. -/
def isZone (s : JsString) : Bool :=
  s = js "Z" || s = js "z" || fits (js "+99:99") s || fits (js "-99:99") s

/-- `RFC3339_DATE_TIME.test(s)` -/
def isRfc3339DateTime (s : JsString) : Bool :=
  let rest := sliceFrom s 19
  let zone := if startsWith rest (js ".") then (sliceFrom rest 1).dropWhile isDigit else rest
  let fraction := (sliceFrom rest 1).takeWhile isDigit
  fits (js "9999-99-99T99:99:99") (sliceTo s 19) &&
    (!startsWith rest (js ".") || fraction != []) && isZone zone

variable (pf : Platform)

/-- `options.versionTime` as a time value, or `none` when absent. -/
def versionTimeOf (options : ResolveOptions) : Except JsError (Option Int) :=
  let invalid (v : Json) := typeError (js
    "did:webvh: versionTime must be a Date or an RFC 3339 date-time with an offset, not " ++
    Json.quote (sliceTo (Json.toStr v) 64))
  match options.versionTime with
  | none => .ok none
  | some (.date none) => .error (typeError (js "did:webvh: versionTime is an invalid Date"))
  | some (.date (some time)) => .ok (some time)
  | some (.value (.str s)) =>
    match isRfc3339DateTime s, pf.parseDate s with
    | true, some time => .ok (some time)
    | _, _ => .error (invalid (.str s))
  | some (.value v) => .error (invalid v)

/-- `netPolicyOf`: an absent policy is the strict one. -/
def netPolicyOf (options : ResolveOptions) : NetPolicy := options.netPolicy.getD {}

/-! ## The log URL -/

/-- `LOG_LABEL` -/
def logLabel : JsString := js "did:webvh log"
/-- `WITNESS_LABEL` -/
def witnessLabel : JsString := js "did:webvh witness file"
/-- `VM_LABEL` -/
def vmLabel : JsString := js "did:webvh proof verification method"

/-- `parts.join(c)` -/
def join (c : CodeUnit) (parts : List JsString) : JsString := [c].intercalate parts

/-- Whether a did:webvh URL is dialed in plaintext: only when private hosts are allowed, and then
for `localhost` or with `allowInsecure`. -/
def isPlaintext (policy : NetPolicy) (host : JsString) : Bool :=
  policy.allowPrivate && (host = js "localhost" || policy.allowInsecure)

/-- The policy a did:webvh URL is checked under. -/
def logPolicy (policy : NetPolicy) (label : JsString) (plaintext : Bool) : EndpointPolicy :=
  { policy with label := label, schemes := [js "https:"], allowInsecure := plaintext }

/-- The URL text of the log at `host`, with `port` and `pathParts` where the identifier has them. -/
def logFileUrl (plaintext : Bool) (host : JsString) (port : Option JsString)
    (pathParts : List JsString) : JsString :=
  let authority := match port with
    | some port => if port = [] then host else host ++ colon :: port
    | none => host
  let path := join slash (pathParts.filter (· ≠ []))
  let base := (if plaintext then js "http" else js "https") ++ js "://" ++ authority ++
    (if path = [] then [] else slash :: path)
  if path = [] then base ++ js "/.well-known/did.jsonl" else base ++ js "/did.jsonl"

/-- `webvhLogUrl`: the vetted `did.jsonl` URL an identifier points at. -/
def webvhLogUrl (did : JsString) (policy : NetPolicy) (label : JsString) : Except JsError Url :=
  let parts := split colon did
  let invalid := error (js "did:webvh resolve: " ++ Json.quote (sliceTo did 80) ++
    js " is not a usable did:webvh identifier")
  match parts with
  | scheme :: method :: scid :: first :: more =>
    if scheme ≠ js "did" || method ≠ js "webvh" || scid = [] || first = [] then .error invalid
    else do
      let remainder ← pf.decodeURIComponent (join slash (first :: more))
      let hostPart := splitHead slash remainder
      let pathParts := (split slash remainder).tail
      let hostAndPort := split colon (← pf.decodeURIComponent hostPart)
      if 2 < hostAndPort.length || hostAndPort.headD [] = [] then throw invalid
      let host := pf.toLowerCase (pf.normalizeNfc (hostAndPort.headD []))
      if !policy.allowPrivate && (indexOfStr (js "localhost") host).isSome then
        throw (blocked (js "net-guard: " ++ label ++ js " host " ++ host ++ js
          " refused: a did:webvh host containing \"localhost\" is local-only (set allowPrivate for local development)")
          (js "private_name") label [(js "host", host)])
      let plaintext := isPlaintext policy host
      assertSafeEndpoint pf (logFileUrl plaintext host hostAndPort[1]? pathParts)
        (logPolicy policy label plaintext)
  | _ => .error invalid

/-! ## Fetching -/

/-- `fetchBody`: the body of a guarded GET. A refusal keeps its own type; any other failure becomes
a resolution failure naming the URL. -/
def fetchBody (fetchGuarded : JsString → JsString → Option JsString → Net Response) (url : Url)
    (label : JsString) : Net JsString := do
  let response ← tryCatch (fetchGuarded url.href (js "GET") none) fun err =>
    if isBlockedError err then throw err
    else throw (error (js "did:webvh resolve failed: " ++ label ++ js " " ++ url.href ++ js " — " ++
      err.message))
  if !response.ok then
    throw { error (js "did:webvh resolve failed: " ++ label ++ js " " ++ url.href ++ js " — HTTP " ++
      natText response.status) with details := [(js "status", natText response.status)] }
  Net.lift response.body

/-- `witnessUrl`: the URL of the witness file next to a log. -/
def witnessUrl (logUrl : Url) : Except JsError Url :=
  let href :=
    if endsWith logUrl.href (js "did.jsonl") then
      sliceTo logUrl.href (logUrl.href.length - 9) ++ js "did-witness.json"
    else logUrl.href
  match pf.parseUrl href with
  | some url => .ok url
  | none => .error (typeError (js "Invalid URL"))

/-- `fetchWitnessProofs`: an absent or unreadable witness file is no proofs; a refusal is thrown. -/
def fetchWitnessProofs (fetchGuarded : JsString → JsString → Option JsString → Net Response)
    (logUrl : Url) : Net (List Json) := do
  let text ← tryCatch (do
      let url ← Net.lift (witnessUrl pf logUrl)
      some <$> fetchBody fetchGuarded url witnessLabel)
    fun err => if isBlockedError err then throw err else pure none
  match text.map pf.parseJson with
  | some (.ok (.arr proofs)) => return proofs
  | _ => return []

/-- `text.split(/\r?\n/)` -/
def splitLines (text : JsString) : List JsString :=
  let parts := split 0x0A text
  (parts.dropLast.map fun line => if endsWith line [0x0D] then line.dropLast else line) ++
    parts.getLast?.toList

/-- `parseLog`: one JSON value a line. -/
def parseLog (text : JsString) (logUrl : Url) : Except JsError (List Json) :=
  if trim text = [] then
    .error (error (js "did:webvh resolve failed: empty DID log at " ++ logUrl.href))
  else
    ((splitLines (trim text)).filter fun line => trim line ≠ []).mapM fun line =>
      (pf.parseJson line).mapError fun err => error (js "did:webvh resolve failed: DID log at " ++
        logUrl.href ++ js " has a line that is not JSON — " ++ err.message)

/-- A non-empty array. -/
def isNonEmptyArray (v : Option Json) : Bool := (Json.asArray v).any (· ≠ [])

/-- `declaresWitnesses`, in either shape of the parameter. -/
def declaresWitnesses (log : List Json) : Bool :=
  log.any fun entry =>
    let parameters := entry.get (js "parameters")
    isNonEmptyArray ((parameters.bind (·.get (js "witness"))).bind (·.get (js "witnesses"))) ||
      isNonEmptyArray (parameters.bind (·.get (js "witnesses")))

/-- The `witnessProofs` handed over: fetched when the log declares witnesses. -/
def suppliedWitnessProofs (fetchGuarded : JsString → JsString → Option JsString → Net Response)
    (log : List Json) (logUrl : Url) : Net (List Json) :=
  if declaresWitnesses log then fetchWitnessProofs pf fetchGuarded logUrl else pure []

/-- The did:webvh verification methods of one entry's proofs. -/
def proofMethods (entry : Json) : List JsString :=
  let proof := entry.get (js "proof")
  let proofs := match Json.asArray proof with
    | some proofs => proofs
    | none => if Json.truthy proof then proof.toList else []
  proofs.filterMap fun proof =>
    match Json.asString (proof.get (js "verificationMethod")) with
    | some vm => if startsWith vm (js "did:webvh:") then some (splitHead hash vm) else none
    | none => none

/-- `nestedWebvhVerificationMethods`, each once. -/
def nestedWebvhVerificationMethods (log witnessProofs : List Json) : List JsString :=
  ((log ++ witnessProofs).flatMap proofMethods).reverse.dedup.reverse

/-- `assertNestedVerificationMethods` -/
def assertNestedVerificationMethods (log witnessProofs : List Json) (policy : NetPolicy) :
    Except JsError Unit :=
  (nestedWebvhVerificationMethods log witnessProofs).forM fun vmDid => do
    let _ ← webvhLogUrl pf vmDid policy vmLabel

/-! ## Verification -/

/-- The options a log is verified under. -/
structure LogOptions where
  witnessProofs : List Json
  scid : Option JsString
  versionNumber : Option Nat := none

/-- What the verifying library returns. -/
structure LogResult where
  did : Option JsString
  doc : Option Json
  meta' : Option Json

/-- `resolveDIDFromLog` of the verifying library. -/
abbrev LogVerifier := List Json → LogOptions → Except JsError LogResult

/-- `adaptResolutionResult`: a reported error or a missing document is thrown. -/
def adaptResolutionResult (result : LogResult) : Except JsError Resolution :=
  let err := result.meta'.bind (·.get (js "error"))
  if Json.truthy err then
    let detail := (result.meta'.bind (·.get (js "problemDetails"))).bind (·.get (js "detail"))
    .error (error (js "did:webvh resolve failed: " ++ Json.toStrOpt err ++
      (if Json.truthy detail then js " — " ++ Json.toStrOpt detail else [])))
  else if !Json.truthy result.doc || !result.doc.any Json.isObjectType then
    .error (error (js
      "did:webvh resolve: resolver returned no DID document (and no error) — the log may be empty or unreachable"))
  else
    .ok
      { didDocument := result.doc
        didResolutionMetadata := some (.obj
          [(js "contentType", .str (js "application/did+ld+json"))])
        didDocumentMetadata := some (if Json.isNullish result.meta' then .obj []
          else result.meta'.getD .null) }

/-- How many leading entries are at or before `time`. -/
def versionsUpTo (log : List Json) (time : Int) : Nat :=
  (log.takeWhile fun entry =>
    !(pf.parseDate (Json.toStrOpt (entry.get (js "versionTime")))).any (time < ·)).length

/-- `DidVersionNotFoundError` -/
def didVersionNotFound (did : Option JsString) (created : Option Json) (time : Int) : JsError :=
  { name := js "DidVersionNotFoundError"
    message := js "did:webvh resolve: " ++ did.getD (js "the DID") ++ js " has no version at " ++
      pf.toISOString time ++ js ": its log begins at " ++ Json.toStrOpt created
    code := some (js "E_DID_VERSION_NOT_FOUND")
    details := (did.toList.filter (· ≠ [])).map (fun d => (js "did", d)) ++
      [(js "versionTime", pf.toISOString time)] ++
      (if Json.truthy created then [(js "created", Json.toStrOpt created)] else []) }

/-- `resolveVerified`: the current document, or the one in force at `time`; the whole log is
verified either way. -/
def resolveVerified (verify : LogVerifier) (log : List Json) (opts : LogOptions) (time : Option Int)
    (requested : Option JsString) : Except JsError Resolution := do
  let current ← verify log opts
  match time with
  | none => adaptResolutionResult current
  | some time =>
    if Json.truthy (current.meta'.bind (·.get (js "error"))) then adaptResolutionResult current
    else if versionsUpTo pf log time = 0 then
      throw (didVersionNotFound pf (requested.orElse fun _ => current.did)
        (log.head?.bind (·.get (js "versionTime"))) time)
    else
      adaptResolutionResult (← verify log { opts with versionNumber := some (versionsUpTo pf log time) })

/-- `did.split(":")[2]`: the SCID a log is verified against. -/
def expectedScid (did : JsString) : Option JsString := (split colon did)[2]?

/-- `resolve` -/
def resolve (verify : LogVerifier) (did : JsString) (options : ResolveOptions) : Net Resolution := do
  let time ← Net.lift (versionTimeOf pf options)
  if !startsWith did (js "did:webvh:") then
    throw (error (js "did:webvh resolve: identifier must start with \"did:webvh:\""))
  let policy := netPolicyOf options
  let logUrl ← Net.lift (webvhLogUrl pf did policy logLabel)
  let plaintext := logUrl.protocol = js "http:"
  let fetchGuarded ← Net.lift (guardedFetch pf (logPolicy policy logLabel plaintext))
  let text ← fetchBody fetchGuarded logUrl logLabel
  let log ← Net.lift (parseLog pf text logUrl)
  let witnessProofs ← suppliedWitnessProofs pf fetchGuarded log logUrl
  Net.lift (assertNestedVerificationMethods pf log witnessProofs policy)
  Net.lift (resolveVerified pf verify log { witnessProofs, scid := expectedScid did } time (some did))

variable {pf : Platform}

/-! ## What a log URL is of -/

/-- The parts of an identifier that its log URL is built from. -/
lemma webvhLogUrl_eq_ok {did : JsString} {P : NetPolicy} {label : JsString} {u : Url}
    (h : webvhLogUrl pf did P label = .ok u) :
    ∃ scid first more remainder hostText name port,
      split colon did = js "did" :: js "webvh" :: scid :: first :: more ∧
      pf.decodeURIComponent (join slash (first :: more)) = .ok remainder ∧
      pf.decodeURIComponent (splitHead slash remainder) = .ok hostText ∧
      split colon hostText = name :: Option.toList port ∧ name ≠ [] ∧
      let host := pf.toLowerCase (pf.normalizeNfc name)
      assertSafeEndpoint pf
        (logFileUrl (isPlaintext P host) host port (split slash remainder).tail)
        (logPolicy P label (isPlaintext P host)) = .ok u := by
  unfold webvhLogUrl at h
  dsimp only at h
  split at h
  · rename_i scheme method scid first more hparts
    split at h
    · cases h
    rename_i hwebvh
    simp only [Bool.or_eq_true, decide_eq_true_eq, not_or, not_not] at hwebvh
    obtain ⟨⟨⟨rfl, rfl⟩, -⟩, -⟩ := hwebvh
    obtain ⟨remainder, hremainder, h⟩ := bind_eq_ok.mp h
    obtain ⟨hostText, hhostText, h⟩ := bind_eq_ok.mp h
    split at h
    · cases h
    rename_i hlength
    simp only [Bool.or_eq_true, decide_eq_true_eq, not_or, not_lt] at hlength
    obtain ⟨hlength, hname⟩ := hlength
    split at h
    · cases h
    refine ⟨scid, first, more, remainder, hostText, (split colon hostText).headD [],
      (split colon hostText)[1]?, hparts, hremainder, hhostText, ?_, hname, h⟩
    -- a host, and a port or none
    cases hsplit : split colon hostText with
    | nil => exact absurd hsplit (split_ne_nil _ _)
    | cons name ports =>
      rw [hsplit, List.length_cons] at hlength
      cases ports with
      | nil => rfl
      | cons port ports =>
        rw [List.length_cons] at hlength
        rw [List.eq_nil_of_length_eq_zero (by omega : ports.length = 0)]
        rfl
  · cases h

/-! ## What a resolution returns -/

/-- A resolution that is returned has the log's document and no error. -/
lemma adaptResolutionResult_eq_ok {result : LogResult} {r : Resolution}
    (h : adaptResolutionResult result = .ok r) :
    r.didDocument = result.doc ∧ Json.truthy (result.meta'.bind (·.get (js "error"))) = false := by
  unfold adaptResolutionResult at h
  dsimp only at h
  split at h
  · cases h
  · rename_i he
    split at h
    · cases h
    · cases h
      exact ⟨rfl, by simpa using he⟩

/-- A resolution that is returned comes from a verified log under the same SCID. -/
lemma resolveVerified_eq_ok {verify : LogVerifier} {log : List Json} {opts : LogOptions}
    {time : Option Int} {requested : Option JsString} {r : Resolution}
    (h : resolveVerified pf verify log opts time requested = .ok r) :
    ∃ opts' result, opts'.scid = opts.scid ∧ verify log opts' = .ok result ∧
      r.didDocument = result.doc := by
  unfold resolveVerified at h
  cases hc : verify log opts with
  | error e => simp [hc, bind, Except.bind] at h
  | ok current =>
    simp only [hc, bind, Except.bind] at h
    cases time with
    | none => exact ⟨opts, current, rfl, hc, (adaptResolutionResult_eq_ok h).1⟩
    | some time =>
      dsimp only at h
      split at h
      · exact ⟨opts, current, rfl, hc, (adaptResolutionResult_eq_ok h).1⟩
      · split at h
        · cases h
        · split at h
          · cases h
          · rename_i result hv
            exact ⟨{ opts with versionNumber := some (versionsUpTo pf log time) }, result, rfl, hv,
              (adaptResolutionResult_eq_ok h).1⟩

/-- The document a resolution returns was verified against the SCID of the identifier. -/
lemma returns_resolve {verify : LogVerifier} {did : JsString} {options : ResolveOptions}
    {r : Resolution} (h : Prog.Returns (resolve pf verify did options).run (.ok r)) :
    ∃ log opts result, opts.scid = expectedScid did ∧ verify log opts = .ok result ∧
      r.didDocument = result.doc := by
  unfold resolve at h
  obtain ⟨time, -, h⟩ := Prog.returns_run_bind.mp h
  split at h
  · cases h
  obtain ⟨logUrl, -, h⟩ := Prog.returns_run_bind.mp h
  obtain ⟨fetchGuarded, -, h⟩ := Prog.returns_run_bind.mp h
  obtain ⟨text, -, h⟩ := Prog.returns_run_bind.mp h
  obtain ⟨log, -, h⟩ := Prog.returns_run_bind.mp h
  obtain ⟨witnessProofs, -, h⟩ := Prog.returns_run_bind.mp h
  obtain ⟨_, -, h⟩ := Prog.returns_run_bind.mp h
  obtain ⟨opts, result, hs, hv, hd⟩ := resolveVerified_eq_ok (returns_lift.mp h)
  exact ⟨log, opts, result, hs, hv, hd⟩

end VtiDidcomm.Webvh
