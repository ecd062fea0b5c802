import VtiDidcomm.Net.Guard

/-!
# Posting to an endpoint

`postJson`, `postRaw` and `parseResponse`, which `mediator-auth.js` and `vta-rest-auth.js` each have
under their own name: a POST through a guarded fetch, and its answer read as JSON.
-/

namespace VtiDidcomm
open Js Effect

/-- The guarded fetch of a client. -/
abbrev GuardedFetch := JsString → JsString → Option JsString → Net Response

/-- `responseError`: what the endpoint sent is kept off the message. -/
def responseError (message body : JsString) (status : Option Nat) : JsError :=
  { error message with
    details := status.toList.map (fun status => (js "status", natText status)) ++ [(js "body", body)] }

variable (pf : Platform) (who : JsString)

/-- `parseResponse` -/
def parseResponse (resp : Response) (url : JsString) : Except JsError Json := do
  let text ← resp.body
  if resp.ok then
    match pf.parseJson text with
    | .ok j => .ok j
    | .error _ =>
      .error (responseError (who ++ js ": " ++ url ++ js " returned a non-JSON body") text
        (some resp.status))
  else
    .error (responseError (who ++ js ": " ++ natText resp.status ++ js " from " ++ url) text
      (some resp.status))

/-- `postRaw` -/
def postRaw (fetchFn : GuardedFetch) (url body : JsString) : Net Json := do
  let resp ← fetchFn url (js "POST") (some body)
  Net.lift (parseResponse pf who resp url)

/-- `postJson` -/
def postJson (fetchFn : GuardedFetch) (url : JsString) (body : Json) : Net Json :=
  postRaw pf who fetchFn url (Json.stringify body)

variable {pf who}

/-- A post sends what its fetch sends. -/
lemma safe_postRaw {φ : Request → Prop} {fetchFn : GuardedFetch} {url body : JsString}
    (h : Prog.Safe φ (fetchFn url (js "POST") (some body)).run) :
    Prog.Safe φ (postRaw pf who fetchFn url body).run := by
  unfold postRaw
  rw [Prog.safe_run_bind]
  exact ⟨h, fun resp _ => safe_lift _⟩

end VtiDidcomm
