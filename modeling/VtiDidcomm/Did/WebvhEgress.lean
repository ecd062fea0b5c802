import VtiDidcomm.Did.Webvh
import VtiDidcomm.Net.Permits

/-!
# The requests of a did:webvh resolution

The URLs a resolution can fetch (`Fetches`): the log of the identifier and the witness file next to
it, each once the guard has admitted it. `safe_resolve` says that these are all its requests and
that some answers lead to each of them.
-/

namespace VtiDidcomm.Webvh
open Js Effect

variable (pf : Platform)

/-- The policy a resolution's fetches are guarded by, once its log URL is known. -/
def fetchPolicy (policy : NetPolicy) (logUrl : Url) : EndpointPolicy :=
  logPolicy policy logLabel (logUrl.protocol = js "http:")

/-- Whether some text is a log that declares witnesses. -/
def CanDeclareWitnesses (logUrl : Url) : Prop :=
  ∃ text log, parseLog pf text logUrl = .ok log ∧ declaresWitnesses log = true

/-- The URLs that a resolution of `did` under `policy` fetches for some answers. -/
inductive Fetches (did : JsString) (policy : NetPolicy) : JsString → Prop where
  /-- The log. -/
  | log {logUrl} :
    webvhLogUrl pf did policy logLabel = .ok logUrl →
    Admits pf (fetchPolicy policy logUrl) logUrl.href →
    Fetches did policy logUrl.href
  /-- The witness file. -/
  | witness {logUrl url} :
    webvhLogUrl pf did policy logLabel = .ok logUrl →
    Admits pf (fetchPolicy policy logUrl) logUrl.href →
    CanDeclareWitnesses pf logUrl →
    witnessUrl pf logUrl = .ok url →
    Admits pf (fetchPolicy policy logUrl) url.href →
    Fetches did policy url.href

/-- The request for a URL of a resolution. -/
def getRequest (url : JsString) : Request := .fetch url (js "GET") none (js "manual")

variable {pf}

/-! ## One fetch -/

/-- A body is fetched only from a URL that is admitted. -/
lemma safe_fetchBody {φ : Request → Prop} {policy : EndpointPolicy} {url : Url}
    {label : JsString} :
    Prog.Safe φ (fetchBody (netGuardedFetch pf policy) url label).run ↔
      (Admits pf policy url.href → φ (getRequest url.href)) := by
  unfold fetchBody
  rw [Prog.safe_run_bind, Prog.safe_run_tryCatch, safe_netGuardedFetch_iff, and_assoc]
  refine ⟨And.left, fun h => ⟨h, fun e _ => ?_, fun response _ => ?_⟩⟩
  · split <;> trivial
  · split
    · trivial
    · exact safe_lift _

/-- Any body may come back from a URL that is admitted. -/
lemma returns_fetchBody {policy : EndpointPolicy} {url : Url} {label : JsString}
    (h : Admits pf policy url.href) (text : JsString) :
    Prog.Returns (fetchBody (netGuardedFetch pf policy) url label).run (.ok text) := by
  unfold fetchBody
  refine Prog.returns_run_bind.mpr ⟨_,
    Prog.returns_run_tryCatch.mpr (.inl (returns_netGuardedFetch h text)), ?_⟩
  rfl

/-- Witness proofs are fetched only from a URL that is admitted. -/
lemma safe_fetchWitnessProofs {φ : Request → Prop} {policy : EndpointPolicy} {logUrl : Url} :
    Prog.Safe φ (fetchWitnessProofs pf (netGuardedFetch pf policy) logUrl).run ↔
      ∀ url, witnessUrl pf logUrl = .ok url → Admits pf policy url.href →
        φ (getRequest url.href) := by
  unfold fetchWitnessProofs
  rw [Prog.safe_run_bind, Prog.safe_run_tryCatch, Prog.safe_run_bind, and_assoc, and_assoc]
  simp only [Prog.safe_run_map, safe_fetchBody]
  refine ⟨fun h url hurl => h.2.1 url (returns_lift.mpr hurl), fun h => ⟨safe_lift _, ?_, ?_, ?_⟩⟩
  · exact fun url hurl => h url (returns_lift.mp hurl)
  · intro e _
    split <;> trivial
  · intro text _
    split <;> trivial

/-! ## A resolution -/

/-- Only a did:webvh identifier has a log. -/
lemma startsWith_of_webvhLogUrl {did : JsString} {policy : NetPolicy} {label : JsString} {u : Url}
    (h : webvhLogUrl pf did policy label = .ok u) : startsWith did (js "did:webvh:") = true := by
  obtain ⟨scid, first, more, _, _, _, _, hparts, -⟩ := webvhLogUrl_eq_ok h
  obtain ⟨post, rfl, -, hrest⟩ := eq_of_split_cons hparts
  obtain ⟨post', rfl, -, -⟩ := eq_of_split_cons hrest
  exact startsWith_iff.mpr ⟨post', rfl⟩

/-- What is fetched for a DID is admitted under the policy of its log. -/
lemma Fetches.admits {did url : JsString} {policy : NetPolicy} (h : Fetches pf did policy url) :
    ∃ logUrl, webvhLogUrl pf did policy logLabel = .ok logUrl ∧
      Admits pf (fetchPolicy policy logUrl) url := by
  cases h with
  | log hlog hadmits => exact ⟨_, hlog, hadmits⟩
  | witness hlog _ _ _ hadmits => exact ⟨_, hlog, hadmits⟩

/-- By default nothing is fetched over plain HTTP. -/
lemma fetchPolicy_default {did label : JsString} {u : Url}
    (h : webvhLogUrl pf did {} label = .ok u) : (fetchPolicy {} u).allowInsecure = false := by
  obtain ⟨_, _, _, _, _, name, _, -, -, -, -, -, hu⟩ := webvhLogUrl_eq_ok h
  let host := pf.toLowerCase (pf.normalizeNfc name)
  obtain ⟨schemes, allowList, hs, -, -, hr⟩ := assertSafeEndpoint_eq_ok.mp hu
  have hhas : HasScheme pf (logPolicy {} label (isPlaintext {} host)) u :=
    ⟨schemes, hs, (refusal_eq_none.mp hr).1⟩
  have hscheme := (hasScheme_https rfl).mp hhas
  have hhttps : u.protocol = js "https:" := by simpa [logPolicy, isPlaintext] using hscheme
  simp only [fetchPolicy, logPolicy, hhttps]
  decide

/-- A body that came back was fetched from a URL that is admitted. -/
lemma admits_of_returns_fetchBody {policy : EndpointPolicy} {url : Url} {label text : JsString}
    (h : Prog.Returns (fetchBody (netGuardedFetch pf policy) url label).run (.ok text)) :
    Admits pf policy url.href := by
  unfold fetchBody at h
  obtain ⟨response, hresponse, -⟩ := Prog.returns_run_bind.mp h
  obtain hfetch | ⟨e, -, hhandler⟩ := Prog.returns_run_tryCatch.mp hresponse
  · obtain ⟨u, hu, -⟩ := Prog.returns_run_bind.mp hfetch
    exact ⟨u, returns_lift.mp hu⟩
  · split at hhandler <;> cases hhandler

/-- The part of a resolution that follows its log URL, when what follows the two fetches makes no
request. -/
lemma safe_fetchLog {φ : Request → Prop} {policy : EndpointPolicy} {logUrl : Url}
    {k : List Json → List Json → Net Resolution}
    (hk : ∀ log witnessProofs, Prog.Safe φ (k log witnessProofs).run) :
    Prog.Safe φ (do
      let text ← fetchBody (netGuardedFetch pf policy) logUrl logLabel
      let log ← Net.lift (parseLog pf text logUrl)
      let witnessProofs ← suppliedWitnessProofs pf (netGuardedFetch pf policy) log logUrl
      k log witnessProofs).run ↔
      (Admits pf policy logUrl.href → φ (getRequest logUrl.href) ∧
        (CanDeclareWitnesses pf logUrl → ∀ url, witnessUrl pf logUrl = .ok url →
          Admits pf policy url.href → φ (getRequest url.href))) := by
  constructor
  · intro h hadmits
    obtain ⟨hbody, h⟩ := Prog.safe_run_bind.mp h
    refine ⟨safe_fetchBody.mp hbody hadmits, fun ⟨text, log, hlog, hdeclares⟩ => ?_⟩
    replace h := (Prog.safe_run_bind.mp (h text (returns_fetchBody hadmits text))).2 log
      (returns_lift.mpr hlog)
    have hproofs := (Prog.safe_run_bind.mp h).1
    rw [suppliedWitnessProofs, if_pos hdeclares] at hproofs
    exact safe_fetchWitnessProofs.mp hproofs
  · intro h
    refine Prog.safe_run_bind.mpr ⟨safe_fetchBody.mpr fun hadmits => (h hadmits).1,
      fun text htext => Prog.safe_run_bind.mpr ⟨safe_lift _, fun log hlog =>
        Prog.safe_run_bind.mpr ⟨?_, fun witnessProofs _ => hk log witnessProofs⟩⟩⟩
    unfold suppliedWitnessProofs
    split
    · rename_i hdeclares
      exact safe_fetchWitnessProofs.mpr ((h (admits_of_returns_fetchBody htext)).2
        ⟨text, log, returns_lift.mp hlog, hdeclares⟩)
    · trivial

/-- The requests of a resolution are the URLs it fetches. -/
lemma safe_resolve {φ : Request → Prop} {verify : LogVerifier} {did : JsString}
    {options : ResolveOptions} :
    Prog.Safe φ (resolve pf verify did options).run ↔
      ∀ time, versionTimeOf pf options = .ok time →
        ∀ url, Fetches pf did (netPolicyOf options) url → φ (getRequest url) := by
  have hk : ∀ log witnessProofs time, Prog.Safe φ (do
      Net.lift (assertNestedVerificationMethods pf log witnessProofs (netPolicyOf options))
      Net.lift (resolveVerified pf verify log { witnessProofs, scid := expectedScid did } time
        (some did))).run := fun log witnessProofs time =>
    Prog.safe_run_bind.mpr ⟨safe_lift _, fun _ _ => safe_lift _⟩
  unfold resolve
  constructor
  · intro h time htime url hurl
    replace h := (Prog.safe_run_bind.mp h).2 time (returns_lift.mpr htime)
    have hrest : ∀ logUrl, webvhLogUrl pf did (netPolicyOf options) logLabel = .ok logUrl →
        Admits pf (fetchPolicy (netPolicyOf options) logUrl) logUrl.href →
        φ (getRequest logUrl.href) ∧ (CanDeclareWitnesses pf logUrl → ∀ url,
          witnessUrl pf logUrl = .ok url →
          Admits pf (fetchPolicy (netPolicyOf options) logUrl) url.href → φ (getRequest url.href)) := by
      intro logUrl hlog hadmits
      rw [if_neg (by simp [startsWith_of_webvhLogUrl hlog])] at h
      replace h := (Prog.safe_run_bind.mp h).2 logUrl (returns_lift.mpr hlog)
      replace h := (Prog.safe_run_bind.mp h).2 _ (returns_lift.mpr (guardedFetch_of_admits hadmits))
      exact (safe_fetchLog (hk · · time)).mp h hadmits
    cases hurl with
    | log hlog hadmits => exact (hrest _ hlog hadmits).1
    | witness hlog hadmits hdeclares hurl hadmits' =>
      exact (hrest _ hlog hadmits).2 hdeclares _ hurl hadmits'
  · intro h
    refine Prog.safe_run_bind.mpr ⟨safe_lift _, fun time htime => ?_⟩
    replace h := h time (returns_lift.mp htime)
    split
    · trivial
    · refine Prog.safe_run_bind.mpr ⟨safe_lift _, fun logUrl hlog => ?_⟩
      have hlog := returns_lift.mp hlog
      refine Prog.safe_run_bind.mpr ⟨safe_lift _, fun fetchGuarded hfetch => ?_⟩
      cases guardedFetch_eq_ok (returns_lift.mp hfetch)
      refine (safe_fetchLog (hk · · time)).mpr fun hadmits => ⟨h _ (.log hlog hadmits), ?_⟩
      exact fun hdeclares url hurl hadmits' =>
        h _ (.witness hlog hadmits hdeclares hurl hadmits')

end VtiDidcomm.Webvh
