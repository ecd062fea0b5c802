import VtiDidcomm.Did.WebvhEgress
import VtiDidcomm.Effect.Trace

/-!
# The verifying library as an effect

`resolve` and `resolveLog` of `did-webvh.js` where each call of the library's `resolveDIDFromLog` is
a request of its own, made and answered among the fetches. `supply_resolve` connects the two models
of `resolve`: with the library's answers filled in, this one is the other.
-/

namespace VtiDidcomm.Webvh
open Js Effect

/-- What a resolution asks of the world: a fetch, or a verification. -/
inductive Query where
  | request (q : Request)
  | verify (log : List Json) (opts : LogOptions)

/-- The world's answers to either, of which a query reads its own. -/
structure Reply where
  response : Except JsError Response
  result : Except JsError LogResult

/-- A program over the network and the verifying library, which may throw. -/
abbrev Verifying := ExceptT JsError (Prog Query Reply)

/-- The options of `resolveLog`. -/
structure ResolveLogOptions extends ResolveOptions where
  witnessProofs : Option Json := none
  scid : Option JsString := none

namespace Verifying

/-- A network program. -/
def net {α : Type} (p : Net α) : Verifying α := ExceptT.mk (p.run.embed Query.request Reply.response)

/-- A computation without requests. -/
def lift {α : Type} (r : Except JsError α) : Verifying α := ExceptT.mk (pure r)

/-- `resolveDIDFromLog(log, opts)` -/
def resolveDIDFromLog (log : List Json) (opts : LogOptions) : Verifying LogResult :=
  ExceptT.mk (Reply.result <$> Prog.ask (.verify log opts))

variable (pf : Platform)

/-- `resolveVerified` -/
def resolveVerified (log : List Json) (opts : LogOptions) (time : Option Int)
    (requested : Option JsString) : Verifying Resolution := do
  let current ← resolveDIDFromLog log opts
  match time with
  | none => lift (adaptResolutionResult current)
  | some time =>
    if Json.truthy (current.meta'.bind (·.get (js "error"))) then lift (adaptResolutionResult current)
    else if versionsUpTo pf log time = 0 then
      throw (didVersionNotFound pf (requested.orElse fun _ => current.did)
        (log.head?.bind (·.get (js "versionTime"))) time)
    else do
      let selected ← resolveDIDFromLog log { opts with versionNumber := some (versionsUpTo pf log time) }
      lift (adaptResolutionResult selected)

/-- `resolve` -/
def resolve (did : JsString) (options : ResolveOptions) : Verifying Resolution := do
  let time ← lift (versionTimeOf pf options)
  if !startsWith did (js "did:webvh:") then
    throw (error (js "did:webvh resolve: identifier must start with \"did:webvh:\""))
  let policy := netPolicyOf options
  let logUrl ← lift (webvhLogUrl pf did policy logLabel)
  let plaintext := logUrl.protocol = js "http:"
  let fetchGuarded ← lift (guardedFetch pf (logPolicy policy logLabel plaintext))
  let text ← net (fetchBody fetchGuarded logUrl logLabel)
  let log ← lift (parseLog pf text logUrl)
  let witnessProofs ← net (suppliedWitnessProofs pf fetchGuarded log logUrl)
  lift (assertNestedVerificationMethods pf log witnessProofs policy)
  resolveVerified pf log { witnessProofs, scid := expectedScid did } time (some did)

/-- The `witnessProofs` of `resolveLog`: an array, empty when absent. -/
def givenWitnessProofs (witnessProofs : Option Json) : Except JsError (List Json) :=
  if Json.isNullish witnessProofs then .ok []
  else match Json.asArray witnessProofs with
    | some proofs => .ok proofs
    | none => .error (typeError (js "did:webvh resolveLog: witnessProofs must be an array"))

/-- `resolveLog` -/
def resolveLog (log : List Json) (options : ResolveLogOptions) : Verifying Resolution := do
  let time ← lift (versionTimeOf pf options.toResolveOptions)
  let policy := netPolicyOf options.toResolveOptions
  let witnessProofs ← lift (givenWitnessProofs options.witnessProofs)
  if witnessProofs = [] && declaresWitnesses log then
    throw (error (js "did:webvh resolveLog: this log declares witnesses — pass `witnessProofs`, or use resolve(did), which fetches did-witness.json through the egress guard"))
  lift (assertNestedVerificationMethods pf log witnessProofs policy)
  resolveVerified pf log { witnessProofs, scid := options.scid.filter (· ≠ []) } time none

/-! ## The two models -/

/-- The answers of a verifier, as far as a query asks for them. -/
def answer (verify : LogVerifier) : Query → Request ⊕ Reply
  | .request q => .inl q
  | .verify log opts => .inr { response := .error (error []), result := verify log opts }

/-- The answer to a fetch. -/
def fetched (response : Except JsError Response) : Reply :=
  { response, result := .error (error []) }

/-- The program with the verifier's answers filled in. -/
def supply {α : Type} (verify : LogVerifier) (p : Verifying α) : Net α :=
  ExceptT.mk (p.run.supply (answer verify) fetched)

variable {verify : LogVerifier}

/-- The verifier's answers are supplied to both parts. -/
lemma supply_bind {α β : Type} (p : Verifying α) (f : α → Verifying β) :
    supply verify (p >>= f) = supply verify p >>= fun a => supply verify (f a) := by
  apply ExceptT.ext
  simp only [supply, ExceptT.run_mk, Prog.run_bind, Prog.supply_bind]
  congr 1
  funext r
  cases r <;> rfl

/-- A check has nothing to be supplied. -/
lemma supply_lift {α : Type} (r : Except JsError α) : supply verify (lift r) = Net.lift r := rfl

/-- A fetch has nothing to be supplied. -/
lemma supply_net {α : Type} (p : Net α) : supply verify (net p) = p :=
  ExceptT.ext (Prog.supply_embed p.run (fun _ => rfl) (fun _ => rfl))

/-- A question to the verifier is answered. -/
lemma supply_resolveDIDFromLog (log : List Json) (opts : LogOptions) :
    supply verify (resolveDIDFromLog log opts) = Net.lift (verify log opts) := rfl

/-- Two checks are one. -/
lemma lift_bind {α β : Type} (r : Except JsError α) (f : α → Except JsError β) :
    Net.lift (r >>= f) = Net.lift r >>= fun a => Net.lift (f a) := by
  cases r <;> rfl

variable {pf}

/-- The verifier's answers filled in, `resolveVerified` makes no request. -/
lemma supply_resolveVerified (log : List Json) (opts : LogOptions) (time : Option Int)
    (requested : Option JsString) :
    supply verify (resolveVerified pf log opts time requested) =
      Net.lift (Webvh.resolveVerified pf verify log opts time requested) := by
  unfold resolveVerified Webvh.resolveVerified
  rw [supply_bind, supply_resolveDIDFromLog, lift_bind]
  congr 1
  funext current
  cases time with
  | none => rfl
  | some time =>
    dsimp only
    split
    · rfl
    · split
      · rfl
      · rw [supply_bind, supply_resolveDIDFromLog, lift_bind]
        rfl

/-- The verifier's answers filled in, the two models of `resolve` are one. -/
lemma supply_resolve (did : JsString) (options : ResolveOptions) :
    supply verify (resolve pf did options) = Webvh.resolve pf verify did options := by
  unfold resolve Webvh.resolve
  rw [supply_bind, supply_lift]
  congr 1
  funext time
  split
  · rfl
  · simp only [supply_bind, supply_lift, supply_net, supply_resolveVerified]

end Verifying

end VtiDidcomm.Webvh
