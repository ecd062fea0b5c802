import VtiDidcomm.Client.Guarded
import VtiDidcomm.Did.WebvhGuard

/-!
# Redirects end a call

No call gets past a redirect. Whichever of its fetches is answered with one, of a DID log, of a
witness file, or of an auth endpoint, the call throws the `BlockedEndpointError` of the guard, and
nothing on the way replaces it.
-/

namespace VtiDidcomm
open Js Effect

/-- A fetch that was answered with a redirect. -/
def WasRedirected (x : Request × Except JsError Response) : Prop :=
  (∃ url method body redirect, x.1 = .fetch url method body redirect) ∧ Webvh.IsRedirect x.2

/-- Once a fetch was redirected, the program throws the error of the guard. -/
abbrev EndsOnRedirect {α : Type} (p : Net α) : Prop :=
  Prog.FailsOn WasRedirected (fun err => isBlockedError err = true) p

/-- A program that fails on every redirected answer. -/
lemma endsOnRedirect_of_failsOn {α : Type} {p : Net α}
    (h : Prog.FailsOn (fun x => Webvh.IsRedirect x.2) (fun err => isBlockedError err = true) p) :
    EndsOnRedirect p := by
  intro tr r hr hbad
  obtain ⟨x, hx, -, hredirect⟩ := hbad
  exact h tr r hr ⟨x, hx, hredirect⟩

/-- Opening a WebSocket is no fetch. -/
lemma endsOnRedirect_webSocket (url : JsString) (protocols : List JsString) :
    EndsOnRedirect (send (.webSocket url protocols)) := by
  refine Prog.failsOn_of_safe (φ := fun q => q = .webSocket url protocols) ((safe_send _).mpr rfl) ?_
  rintro x hx ⟨⟨_, _, _, _, hfetch⟩, -⟩
  cases hx.symm.trans hfetch

/-- Whatever the policy, the guard ends a redirected program. -/
lemma guarded_endsOnRedirect (pf : Platform) : Guarded pf true EndsOnRedirect where
  lift r := Prog.failsOn_pure r
  bind hp hf := Prog.FailsOn.bind hp hf
  fetch _ url method body :=
    endsOnRedirect_of_failsOn (Webvh.failsOn_netGuardedFetch _ url method body)
  fetchBody _ url label := endsOnRedirect_of_failsOn (Webvh.failsOn_fetchBody _ url label)
  witness _ log logUrl :=
    endsOnRedirect_of_failsOn (Webvh.failsOn_suppliedWitnessProofs _ log logUrl)
  webSocket _ _ protocols := endsOnRedirect_webSocket _ protocols

/-- A call that meets a redirect throws the error of the guard, whatever else it is answered: the
authentication to a mediator, the connection through it, the resolution of an inbound sender, and the
two calls of the REST client. -/
theorem redirects_end_calls {T : Type} [LinearOrder T] [Add T] [Zero T] (b : Resolver.Builtin)
    (C : Crypto) (o : Resolver.Owned T) :
    (∀ times args draw,
      EndsOnRedirect (MediatorAuth.authenticateToMediator b C o times args draw)) ∧
    (∀ times args draws, EndsOnRedirect (VtaDidcomm.connectVtaViaMediator b C o times args draws)) ∧
    (∀ times args did skid, EndsOnRedirect (VtaDidcomm.resolveSender b o times args did skid)) ∧
    (∀ times args draw, EndsOnRedirect (VtaRestAuth.authenticate b C o times args draw)) ∧
    ∀ times args refreshToken draw,
      EndsOnRedirect (VtaRestAuth.refresh b C o times args refreshToken draw) := by
  have h := guarded_endsOnRedirect b.pf
  have hp {allowPrivate : Bool} : allowPrivate = true → true = true := fun _ => rfl
  refine ⟨fun times args draw => h.authenticateToMediator hp, ?_, ?_, ?_, ?_⟩
  · exact fun times args draws => h.connectVtaViaMediator hp
  · exact fun times args did skid => h.resolveSender hp
  · exact fun times args draw => h.authenticate hp
  · exact fun times args refreshToken draw => h.refresh hp

end VtiDidcomm
