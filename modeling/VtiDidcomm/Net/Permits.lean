import VtiDidcomm.Net.Guard

/-!
# What a policy admits

`Admits` is acceptance by `assertSafeEndpoint`. A guarded fetch makes its request exactly when its
policy admits the URL, and then some answers let it return. `Permits` is what a caller's `netPolicy`
admits; the guards of this package are narrower in their schemes (`permits_of_admits`), and the log
guard of did:webvh differs from it only in plaintext (`permits_iff_plaintext`), or, under the
default policy, only in the hosts (`permits_iff_hostListed`).
-/

namespace VtiDidcomm
open Js Effect

variable (pf : Platform)

/-- Whether `assertSafeEndpoint` accepts a URL. -/
def Admits (policy : EndpointPolicy) (url : JsString) : Prop :=
  ∃ u, assertSafeEndpoint pf url policy = .ok u

/-- Whether a URL is accepted under a caller's policy. -/
def Permits (P : NetPolicy) (url : JsString) : Prop := Admits pf { toNetPolicy := P } url

/-- A URL has a scheme of a policy. -/
def HasScheme (policy : EndpointPolicy) (u : Url) : Prop :=
  ∃ schemes, normalizeSchemes pf policy.schemes policy.allowInsecure = .ok schemes ∧
    u.protocol ∈ schemes

/-- A URL has no credentials and a host, a public one unless private hosts are allowed. -/
structure HasOpenHost (allowPrivate : Bool) (u : Url) : Prop where
  username : u.username = []
  password : u.password = []
  host : canonicalHost pf u.hostname ≠ []
  isPublic : allowPrivate = true ∨
    if startsWith u.hostname (js "[") || (parseIpv4 (canonicalHost pf u.hostname)).isSome
    then isBlockedIp (canonicalHost pf u.hostname) = false
    else isBlockedName (canonicalHost pf u.hostname) = false

/-- A URL's host is in the `allowHosts` of a policy, where there are any. -/
def ListsHost (P : NetPolicy) (u : Url) : Prop :=
  ∃ allowList, normalizeAllowHosts pf P.allowHosts = .ok allowList ∧
    ∀ rules, allowList = some rules → hostAllowed (canonicalHost pf u.hostname) rules = true

/-- Whether the host of a URL is listed by a policy. -/
def HostListed (P : NetPolicy) (url : JsString) : Prop :=
  ∃ u, pf.parseUrl url = some u ∧ ListsHost pf P u

/-- Whether a URL is a plaintext one. -/
def IsPlaintextUrl (url : JsString) : Prop := ∃ u, pf.parseUrl url = some u ∧ u.protocol = js "http:"

variable {pf}

/-! ## Guarded fetches -/

/-- A guarded fetch makes its request when the guard admits the URL. -/
lemma safe_netGuardedFetch_iff {φ : Request → Prop} {policy : EndpointPolicy}
    {input method : JsString} {body : Option JsString} :
    Prog.Safe φ (netGuardedFetch pf policy input method body).run ↔
      (Admits pf policy input → φ (.fetch input method body (js "manual"))) := by
  refine ⟨fun h ⟨u, hu⟩ => ?_, fun h => safe_netGuardedFetch fun u hu => h ⟨u, hu⟩⟩
  unfold netGuardedFetch at h
  have hsend := (Prog.safe_run_bind.mp h).2 u (returns_lift.mpr hu)
  exact (safe_send _).mp (Prog.safe_run_bind.mp hsend).1

/-- A guarded fetch of an admitted URL returns the response that is sent. -/
lemma returns_netGuardedFetch {policy : EndpointPolicy} {input method : JsString}
    {body : Option JsString} (h : Admits pf policy input) (text : JsString) :
    Prog.Returns (netGuardedFetch pf policy input method body).run
      (.ok { status := 200, opaqueRedirect := false, body := .ok text }) := by
  obtain ⟨u, hu⟩ := h
  unfold netGuardedFetch
  refine Prog.returns_run_bind.mpr ⟨u, returns_lift.mpr hu, Prog.returns_run_bind.mpr ?_⟩
  exact ⟨{ status := 200, opaqueRedirect := false, body := .ok text },
    Prog.returns_ask _ _, rfl⟩

/-- A policy that admits a URL gives a guarded fetch. -/
lemma guardedFetch_of_admits {policy : EndpointPolicy} {url : JsString}
    (h : Admits pf policy url) : guardedFetch pf policy = .ok (netGuardedFetch pf policy) := by
  obtain ⟨u, hu⟩ := h
  obtain ⟨schemes, allowList, hs, ha, -⟩ := assertSafeEndpoint_eq_ok.mp hu
  simp [guardedFetch, hs, ha, bind, Except.bind, pure, Except.pure]

/-- The fetch that a policy gives is the guarded one. -/
lemma guardedFetch_eq_ok {policy : EndpointPolicy}
    {fetch : JsString → JsString → Option JsString → Net Response}
    (h : guardedFetch pf policy = .ok fetch) : fetch = netGuardedFetch pf policy := by
  obtain ⟨_, -, h⟩ := bind_eq_ok.mp h
  obtain ⟨_, -, h⟩ := bind_eq_ok.mp h
  cases h
  rfl

/-! ## Schemes -/

/-- A scheme of the network in lower case is its own normal form. -/
lemma normalizeScheme_ascii {s : JsString} (hs : s.all (· < 0x80) = true)
    (hlower : s.map asciiLower = s) (hcolon : endsWith s (js ":") = true)
    (hmem : s ∈ networkSchemes) : normalizeScheme pf s = .ok s := by
  have hascii : ∀ c ∈ s, c < 0x80 := fun c hc => of_decide_eq_true (List.all_eq_true.mp hs c hc)
  simp [normalizeScheme, pf.toLowerCase_ascii s hascii, hlower, hcolon, hmem]

/-- `https:` is its own normal form. -/
lemma normalizeScheme_https : normalizeScheme pf (js "https:") = .ok (js "https:") :=
  normalizeScheme_ascii (by decide) (by decide) (by decide) (by decide)

/-- `wss:` is its own normal form. -/
lemma normalizeScheme_wss : normalizeScheme pf (js "wss:") = .ok (js "wss:") :=
  normalizeScheme_ascii (by decide) (by decide) (by decide) (by decide)

/-- What `https:` stands for. -/
lemma normalizeSchemes_https (insecure : Bool) :
    normalizeSchemes pf [js "https:"] insecure =
      .ok (js "https:" :: if insecure then [js "http:"] else []) := by
  have hplain : plaintextOf (js "https:") = some (js "http:") := by decide
  cases insecure <;>
    simp [normalizeSchemes, normalizeScheme_https, hplain, bind, Except.bind, pure, Except.pure]

/-- What `wss:` stands for. -/
lemma normalizeSchemes_wss (insecure : Bool) :
    normalizeSchemes pf [js "wss:"] insecure =
      .ok (js "wss:" :: if insecure then [js "ws:"] else []) := by
  have hplain : plaintextOf (js "wss:") = some (js "ws:") := by decide
  cases insecure <;>
    simp [normalizeSchemes, normalizeScheme_wss, hplain, bind, Except.bind, pure, Except.pure]

/-- What the two stand for. -/
lemma normalizeSchemes_default (insecure : Bool) :
    normalizeSchemes pf [js "https:", js "wss:"] insecure =
      .ok (if insecure then [js "https:", js "http:", js "wss:", js "ws:"]
        else [js "https:", js "wss:"]) := by
  have hplain : plaintextOf (js "https:") = some (js "http:") := by decide
  have hplain' : plaintextOf (js "wss:") = some (js "ws:") := by decide
  cases insecure <;>
    simp [normalizeSchemes, normalizeScheme_https, normalizeScheme_wss, hplain, hplain', bind,
      Except.bind, pure, Except.pure]

/-- The schemes under `https:`. -/
lemma hasScheme_https {policy : EndpointPolicy} {u : Url} (h : policy.schemes = [js "https:"]) :
    HasScheme pf policy u ↔
      u.protocol = js "https:" ∨ u.protocol = js "http:" ∧ policy.allowInsecure = true := by
  unfold HasScheme
  rw [h, normalizeSchemes_https]
  cases policy.allowInsecure <;> simp

/-- The schemes under `wss:`. -/
lemma hasScheme_wss {policy : EndpointPolicy} {u : Url} (h : policy.schemes = [js "wss:"]) :
    HasScheme pf policy u ↔
      u.protocol = js "wss:" ∨ u.protocol = js "ws:" ∧ policy.allowInsecure = true := by
  unfold HasScheme
  rw [h, normalizeSchemes_wss]
  cases policy.allowInsecure <;> simp

/-- The schemes of a policy that names none. -/
lemma hasScheme_default {P : NetPolicy} {u : Url} :
    HasScheme pf { toNetPolicy := P } u ↔ u.protocol = js "https:" ∨ u.protocol = js "wss:" ∨
      (u.protocol = js "http:" ∨ u.protocol = js "ws:") ∧ P.allowInsecure = true := by
  unfold HasScheme
  dsimp only
  rw [normalizeSchemes_default]
  cases P.allowInsecure with
  | false => simp
  | true =>
    simp only [if_true, Except.ok.injEq, exists_eq_left', List.mem_cons, List.not_mem_nil, and_true]
    tauto

/-! ## Policies compared -/

/-- A policy admits a URL for its scheme, its host, and where the host is listed. -/
lemma admits_iff {policy : EndpointPolicy} {url : JsString} :
    Admits pf policy url ↔ ∃ u, pf.parseUrl url = some u ∧ HasScheme pf policy u ∧
      HasOpenHost pf policy.allowPrivate u ∧ ListsHost pf policy.toNetPolicy u := by
  unfold Admits
  simp only [assertSafeEndpoint_eq_ok, refusal_eq_none]
  constructor
  · rintro ⟨u, schemes, allowList, hs, ha, hu, hmem, huser, hpass, hhost, hpublic, hlisted⟩
    exact ⟨u, hu, ⟨schemes, hs, hmem⟩, ⟨huser, hpass, hhost, hpublic⟩, allowList, ha, hlisted⟩
  · rintro ⟨u, hu, ⟨schemes, hs, hmem⟩, ⟨huser, hpass, hhost, hpublic⟩, allowList, ha, hlisted⟩
    exact ⟨u, schemes, allowList, hs, ha, hu, hmem, huser, hpass, hhost, hpublic, hlisted⟩

/-- The host of a URL is open to whoever allows private hosts, if it is to someone who does not. -/
lemma HasOpenHost.mono {a b : Bool} {u : Url} (h : HasOpenHost pf a u) (hab : a = true → b = true) :
    HasOpenHost pf b u :=
  { h with isPublic := h.isPublic.imp_left hab }

/-- The guards of the endpoints a caller reaches are narrower than its policy. -/
lemma permits_of_admits {p : EndpointPolicy} {url : JsString}
    (hs : p.schemes = [js "https:"] ∨ p.schemes = [js "wss:"])
    (h : Admits pf p url) : Permits pf p.toNetPolicy url := by
  obtain ⟨u, hu, hscheme, hopen, hlisted⟩ := admits_iff.mp h
  refine admits_iff.mpr ⟨u, hu, hasScheme_default.mpr ?_, hopen, hlisted⟩
  obtain hs | hs := hs
  · rw [hasScheme_https hs] at hscheme
    tauto
  · rw [hasScheme_wss hs] at hscheme
    tauto

/-- What the default policy admits over https, a caller's policy admits when it lists the host. -/
lemma permits_iff_hostListed {P : NetPolicy} {policy : EndpointPolicy} {url : JsString}
    (hs : policy.schemes = [js "https:"]) (hi : policy.allowInsecure = false)
    (hp : policy.allowPrivate = false) (h : Admits pf policy url) :
    Permits pf P url ↔ HostListed pf P url := by
  obtain ⟨u, hu, hscheme, hopen, -⟩ := admits_iff.mp h
  constructor
  · intro hP
    obtain ⟨u', hu', -, -, hlisted⟩ := admits_iff.mp hP
    exact ⟨u', hu', hlisted⟩
  · rintro ⟨u', hu', hlisted⟩
    cases hu.symm.trans hu'
    have hhttps : u.protocol = js "https:" := by simpa [hasScheme_https hs, hi] using hscheme
    exact admits_iff.mpr ⟨u, hu, hasScheme_default.mpr (.inl hhttps),
      hopen.mono (by simp [hp]), hlisted⟩

/-- What a log guard with a caller's hosts admits, the caller's policy admits unless it is plaintext
that the policy does not allow. -/
lemma permits_iff_plaintext {P : NetPolicy} {policy : EndpointPolicy} {url : JsString}
    (hs : policy.schemes = [js "https:"]) (hp : policy.allowPrivate = P.allowPrivate)
    (hh : policy.allowHosts = P.allowHosts) (h : Admits pf policy url) :
    Permits pf P url ↔ (IsPlaintextUrl pf url → P.allowInsecure = true) := by
  obtain ⟨u, hu, hscheme, hopen, hlisted⟩ := admits_iff.mp h
  rw [hasScheme_https hs] at hscheme
  constructor
  · rintro hP ⟨u', hu', hhttp⟩
    obtain ⟨u'', hu'', hscheme', -⟩ := admits_iff.mp hP
    cases hu'.symm.trans hu''
    rw [hasScheme_default, hhttp] at hscheme'
    obtain hne | hne | ⟨-, hinsecure⟩ := hscheme'
    · exact absurd hne (by decide)
    · exact absurd hne (by decide)
    · exact hinsecure
  · intro hplain
    refine admits_iff.mpr ⟨u, hu, hasScheme_default.mpr ?_, hp ▸ hopen, ?_⟩
    · obtain hhttps | ⟨hhttp, -⟩ := hscheme
      · exact .inl hhttps
      · exact .inr (.inr ⟨.inl hhttp, hplain ⟨u, hu, hhttp⟩⟩)
    · unfold ListsHost at hlisted ⊢
      rwa [hh] at hlisted

end VtiDidcomm
