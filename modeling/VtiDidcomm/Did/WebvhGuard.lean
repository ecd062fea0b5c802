import Mathlib.Data.List.Dedup
import VtiDidcomm.Did.WebvhVerifier

/-!
# The did:webvh egress guard

What holds of every run of `resolve` and `resolveLog`, whatever identifier, log, witness file and
answers they meet: where the fetches go, that a redirect ends the resolution, and that the library
verifies a log only after every did:webvh that its proofs name has been vetted.

The log of `localhost` is fetched in plaintext whenever private hosts are allowed, also by a caller
whose policy does not admit plaintext (`resolve_dials_plaintext_localhost`).
-/

namespace VtiDidcomm.Webvh
open Js Effect

variable (pf : Platform)

/-! ## What is fetched -/

/-- The host an identifier names. -/
def LogHost (did host : JsString) : Prop :=
  ∃ scheme method scid first more remainder hostPart,
    split colon did = scheme :: method :: scid :: first :: more ∧
    pf.decodeURIComponent (join slash (first :: more)) = .ok remainder ∧
    pf.decodeURIComponent (splitHead slash remainder) = .ok hostPart ∧
    host = pf.toLowerCase (pf.normalizeNfc ((split colon hostPart).headD []))

/-- A URL is accepted under the caller's policy; for the host `localhost`, where private hosts are
allowed, under that policy with plaintext. -/
def AcceptsFetch (did : JsString) (P : NetPolicy) (url : JsString) : Prop :=
  Permits pf P url ∨
    (P.allowPrivate = true ∧ LogHost pf did (js "localhost") ∧
      Permits pf { P with allowInsecure := true } url)

/-- The scheme and authority of a URL. -/
def origin (u : Url) : JsString × JsString := (u.protocol, u.host)

/-- Whether a URL is of the network, and carries no credentials. -/
structure IsPlainHttp (u : Url) : Prop where
  protocol : u.protocol = js "https:" ∨ u.protocol = js "http:"
  username : u.username = []
  password : u.password = []

/-- The text of a URL's scheme and authority, up to its path. -/
def rootOf (u : Url) : JsString := u.protocol ++ js "//" ++ u.host

/-- What the URL standard says about the `href` of such a URL: it is the scheme, the authority and a
path from the root, and another text with this scheme and authority is a URL that has them too. -/
structure SerializesUrls : Prop where
  href : ∀ {s u}, pf.parseUrl s = some u → IsPlainHttp u → ∃ path, u.href = rootOf u ++ slash :: path
  reparse : ∀ {s u path v}, pf.parseUrl s = some u → IsPlainHttp u →
    pf.parseUrl (rootOf u ++ slash :: path) = some v → IsPlainHttp v ∧ origin v = origin u

/-- A fetch of a resolution: a guarded GET that does not follow redirects, of an accepted URL on the
origin of the identifier's log. -/
def IsGuardedFetch (did : JsString) (P : NetPolicy) (q : Request) : Prop :=
  ∃ logUrl url u, webvhLogUrl pf did P logLabel = .ok logUrl ∧
    q = .fetch url (js "GET") none (js "manual") ∧ AcceptsFetch pf did P url ∧
    pf.parseUrl url = some u ∧ origin u = origin logUrl

/-- A fetch was answered with a redirect. -/
def IsRedirect (response : Except JsError Response) : Prop :=
  ∃ resp, response = .ok resp ∧
    (resp.opaqueRedirect = true ∨ 300 ≤ resp.status ∧ resp.status < 400)

/-- An exchange that was a fetch answered with a redirect. -/
def Redirected (x : Query × Reply) : Prop := (∃ q, x.1 = .request q) ∧ IsRedirect x.2.response

/-! ## What is verified -/

/-- A proof of a log entry or a witness entry: its only one, or one of several. -/
inductive IsProofOf (entry proof : Json) : Prop where
  | single : entry.get (js "proof") = some proof → IsProofOf entry proof
  | listed {proofs} : entry.get (js "proof") = some (.arr proofs) → proof ∈ proofs →
    IsProofOf entry proof

/-- A verification method that a proof of the entries names. -/
def NamesMethod (entries : List Json) (vm : JsString) : Prop :=
  ∃ entry ∈ entries, ∃ proof, IsProofOf entry proof ∧
    proof.get (js "verificationMethod") = some (.str vm)

/-- Every did:webvh that a proof of the log or of the witness file names has a log URL under the
caller's policy. -/
def Vetted (P : NetPolicy) (log witnessProofs : List Json) : Prop :=
  ∀ vm, NamesMethod (log ++ witnessProofs) vm → startsWith vm (js "did:webvh:") = true →
    ∃ u, webvhLogUrl pf (splitHead hash vm) P vmLabel = .ok u

/-- An entry of the log has witnesses, in either shape of the parameter. -/
def DeclaresWitnesses (log : List Json) : Prop :=
  ∃ entry ∈ log, ∃ parameters w ws, entry.get (js "parameters") = some parameters ∧
    (parameters.get (js "witness") = some w ∧ w.get (js "witnesses") = some (.arr ws) ∨
      parameters.get (js "witnesses") = some (.arr ws)) ∧ ws ≠ []

variable {pf}

/-- The test for a non-empty array. -/
lemma isNonEmptyArray_iff {v : Option Json} :
    isNonEmptyArray v = true ↔ ∃ ws, v = some (.arr ws) ∧ ws ≠ [] := by
  cases v with
  | none => simp [isNonEmptyArray, Json.asArray]
  | some j => cases j <;> simp [isNonEmptyArray, Json.asArray]

/-- The test for declared witnesses. -/
lemma declaresWitnesses_iff {log : List Json} :
    declaresWitnesses log = true ↔ DeclaresWitnesses log := by
  simp only [declaresWitnesses, List.any_eq_true, Bool.or_eq_true, isNonEmptyArray_iff,
    DeclaresWitnesses, Option.bind_eq_some_iff]
  constructor
  · rintro ⟨entry, he, ⟨ws, ⟨w, ⟨p, hp, hw⟩, hws⟩, hne⟩ | ⟨ws, ⟨p, hp, hws⟩, hne⟩⟩
    · exact ⟨entry, he, p, w, ws, hp, .inl ⟨hw, hws⟩, hne⟩
    · exact ⟨entry, he, p, .null, ws, hp, .inr hws, hne⟩
  · rintro ⟨entry, he, p, w, ws, hp, ⟨hw, hws⟩ | hws, hne⟩
    · exact ⟨entry, he, .inl ⟨ws, ⟨w, ⟨p, hp, hw⟩, hws⟩, hne⟩⟩
    · exact ⟨entry, he, .inr ⟨ws, ⟨p, hp, hws⟩, hne⟩⟩

/-- What has a member is an object. -/
lemma get_eq_some {j v : Json} {key : JsString} (h : j.get key = some v) :
    ∃ members, j = .obj members := by
  cases j with
  | obj members => exact ⟨members, rfl⟩
  | _ => cases h

/-- The did:webvh method of a proof is among those of the entry. -/
lemma mem_proofMethods {entry proof : Json} {vm : JsString} (hp : IsProofOf entry proof)
    (hvm : proof.get (js "verificationMethod") = some (.str vm))
    (h : startsWith vm (js "did:webvh:") = true) : splitHead hash vm ∈ proofMethods entry := by
  unfold proofMethods
  rw [List.mem_filterMap]
  refine ⟨proof, ?_, by simp [hvm, Json.asString, h]⟩
  cases hp with
  | single hget =>
    -- a value with a member is an object: not an array, and truthy
    obtain ⟨members, rfl⟩ := get_eq_some hvm
    simp [hget, Json.asArray, Json.truthy]
  | listed hget hmem =>
    simpa [hget, Json.asArray] using hmem

/-- A loop that does not throw threw for no item. -/
lemma forM_eq_ok {α : Type} {f : α → Except JsError Unit} {l : List α}
    (h : l.forM f = .ok ()) : ∀ a ∈ l, f a = .ok () := by
  induction l with
  | nil => simp
  | cons b l ih =>
    obtain ⟨_, hb, hl⟩ := bind_eq_ok.mp h
    intro a ha
    rcases List.mem_cons.mp ha with rfl | ha
    · exact hb
    · exact ih hl a ha

/-- A log that passes the check is vetted. -/
lemma vetted_of_assert {P : NetPolicy} {log witnessProofs : List Json}
    (h : assertNestedVerificationMethods pf log witnessProofs P = .ok ()) :
    Vetted pf P log witnessProofs := by
  rintro vm ⟨entry, hentry, proof, hproof, hvm⟩ hwebvh
  have hmem : splitHead hash vm ∈ nestedWebvhVerificationMethods log witnessProofs := by
    rw [nestedWebvhVerificationMethods, List.mem_reverse, List.mem_dedup, List.mem_reverse,
      List.mem_flatMap]
    exact ⟨entry, hentry, mem_proofMethods hproof hvm hwebvh⟩
  obtain ⟨u, hu, -⟩ := bind_eq_ok.mp (forM_eq_ok h _ hmem)
  exact ⟨u, hu⟩

/-! ## Where the fetches go -/

/-- A log URL is one that `assertSafeEndpoint` accepted for the host that the identifier names. -/
lemma webvhLogUrl_host {did : JsString} {P : NetPolicy} {label : JsString} {u : Url}
    (h : webvhLogUrl pf did P label = .ok u) :
    ∃ host text, LogHost pf did host ∧
      assertSafeEndpoint pf text (logPolicy P label (isPlaintext P host)) = .ok u := by
  obtain ⟨_, _, _, _, hostText, name, port, hparts, hremainder, hhostText, hsplit, -, h⟩ :=
    webvhLogUrl_eq_ok h
  refine ⟨pf.toLowerCase (pf.normalizeNfc name), _, ?_, h⟩
  refine ⟨_, _, _, _, _, _, hostText, hparts, hremainder, hhostText, ?_⟩
  rw [hsplit]
  rfl

/-- A log URL is an `https:` URL, or an `http:` one where private hosts are allowed and either the
host is `localhost` or plaintext is allowed. -/
lemma logUrl_scheme {did : JsString} {P : NetPolicy} {label : JsString} {u : Url}
    (h : webvhLogUrl pf did P label = .ok u) :
    (∃ s, pf.parseUrl s = some u) ∧ IsPlainHttp u ∧
      (u.protocol = js "http:" → P.allowPrivate = true ∧
        (LogHost pf did (js "localhost") ∨ P.allowInsecure = true)) := by
  obtain ⟨host, text, hhost, hu⟩ := webvhLogUrl_host h
  obtain ⟨schemes, allowList, hs, -, hparse, hr⟩ := assertSafeEndpoint_eq_ok.mp hu
  obtain ⟨hmem, huser, hpass, -⟩ := refusal_eq_none.mp hr
  have hhas : HasScheme pf (logPolicy P label (isPlaintext P host)) u := ⟨schemes, hs, hmem⟩
  rw [hasScheme_https rfl] at hhas
  refine ⟨⟨text, hparse⟩, ⟨hhas.imp_right And.left, huser, hpass⟩, fun hhttp => ?_⟩
  rcases hhas with hhttps | ⟨-, hplain⟩
  · rw [hhttps] at hhttp
    exact absurd hhttp (by decide)
  · replace hplain : isPlaintext P host = true := hplain
    simp only [isPlaintext, Bool.and_eq_true, Bool.or_eq_true, decide_eq_true_eq] at hplain
    obtain ⟨hprivate, rfl | hinsecure⟩ := hplain
    · exact ⟨hprivate, .inl hhost⟩
    · exact ⟨hprivate, .inr hinsecure⟩

/-- A URL that is admitted is one a DID may be fetched from. -/
lemma acceptsFetch_of_admits {did url : JsString} {P : NetPolicy} {logUrl : Url}
    (hlog : webvhLogUrl pf did P logLabel = .ok logUrl)
    (h : Admits pf (fetchPolicy P logUrl) url) : AcceptsFetch pf did P url := by
  obtain ⟨-, -, hwhy⟩ := logUrl_scheme hlog
  by_cases hhttp : logUrl.protocol = js "http:"
  · obtain ⟨hprivate, hlocal | hinsecure⟩ := hwhy hhttp
    · refine .inr ⟨hprivate, hlocal, ?_⟩
      exact (permits_iff_plaintext (P := { P with allowInsecure := true }) rfl rfl rfl h).mpr
        fun _ => rfl
    · exact .inl ((permits_iff_plaintext (P := P) rfl rfl rfl h).mpr fun _ => hinsecure)
  · -- the guard admits no plaintext
    refine .inl ((permits_iff_plaintext (P := P) rfl rfl rfl h).mpr ?_)
    rintro ⟨u, hu, hplain⟩
    obtain ⟨u', hu', hscheme, -⟩ := admits_iff.mp h
    cases hu.symm.trans hu'
    rw [hasScheme_https rfl, hplain] at hscheme
    rcases hscheme with hne | ⟨-, hflag⟩
    · exact absurd hne (by decide)
    · exact absurd (of_decide_eq_true hflag) hhttp

/-- A suffix without the separator lies behind it. -/
lemma suffix_of_notMem {l pre post : JsString} {c : CodeUnit} (h : l <:+ pre ++ c :: post)
    (hc : c ∉ l) : l <:+ post := by
  obtain ⟨t, ht⟩ := h
  rcases List.append_eq_append_iff.mp ht with ⟨a, -, hl⟩ | ⟨a, -, hl⟩
  · exact absurd (by simp [hl]) hc
  · cases a with
    | nil => exact absurd (by simp [show l = c :: post from hl.symm]) hc
    | cons d a =>
      obtain ⟨-, hpost⟩ := List.cons.inj hl
      exact ⟨a, hpost.symm⟩

/-- The witness file is next to the log, under the same root. -/
lemma witnessUrl_eq_ok {logUrl url : Url} {path : JsString}
    (hhref : logUrl.href = rootOf logUrl ++ slash :: path)
    (h : witnessUrl pf logUrl = .ok url) :
    ∃ path', pf.parseUrl (rootOf logUrl ++ slash :: path') = some url := by
  unfold witnessUrl at h
  dsimp only at h
  split at h
  · rename_i v hparse
    cases h
    split at hparse
    · rename_i hends
      rw [endsWith, List.isSuffixOf_iff_suffix, hhref] at hends
      obtain ⟨stem, rfl⟩ := suffix_of_notMem hends (by decide)
      refine ⟨stem ++ js "did-witness.json", ?_⟩
      have hcut : sliceTo logUrl.href (logUrl.href.length - 9) = rootOf logUrl ++ slash :: stem := by
        rw [sliceTo, hhref]
        have hlen : (rootOf logUrl ++ slash :: (stem ++ js "did.jsonl")).length - 9 =
            (rootOf logUrl ++ slash :: stem).length := by
          have : (js "did.jsonl").length = 9 := by decide
          simp only [List.length_append, List.length_cons, this]
          omega
        rw [hlen, ← List.cons_append, ← List.append_assoc, List.take_left]
      rw [hcut] at hparse
      simpa using hparse
    · rw [hhref] at hparse
      exact ⟨path, hparse⟩
  · cases h

/-- What the guard of a resolution admits on the origin of the log is a guarded fetch. -/
lemma isGuardedFetch_of_admits {did : JsString} {P : NetPolicy} {logUrl url : Url} {s : JsString}
    (laws : SerializesUrls pf) (hlog : webvhLogUrl pf did P logLabel = .ok logUrl)
    (hparse : pf.parseUrl s = some url) (hplain : IsPlainHttp url)
    (horigin : origin url = origin logUrl) (h : Admits pf (fetchPolicy P logUrl) url.href) :
    IsGuardedFetch pf did P (getRequest url.href) := by
  obtain ⟨u, hu, -⟩ := admits_iff.mp h
  obtain ⟨path, hhref⟩ := laws.href hparse hplain
  have hsame := (laws.reparse hparse hplain (hhref ▸ hu)).2
  exact ⟨logUrl, url.href, u, hlog, rfl, acceptsFetch_of_admits hlog h, hu, hsame.trans horigin⟩

/-! ## The requests of a resolution -/

/-- What a resolution may ask for. -/
def IsGuardedQuery (pf : Platform) (did : JsString) (P : NetPolicy) : Query → Prop
  | .request q => IsGuardedFetch pf did P q
  | .verify log opts => Vetted pf P log opts.witnessProofs

/-- A check asks nothing. -/
lemma safe_lift_verifying {φ : Query → Prop} {α : Type} (r : Except JsError α) :
    Prog.Safe φ (Verifying.lift r).run := trivial

/-- A check returns what it returns. -/
lemma returns_lift_verifying {α : Type} {r s : Except JsError α} :
    Prog.Returns (Verifying.lift r).run s ↔ r = s := Iff.rfl

/-- The verifier is asked about the log. -/
lemma safe_resolveDIDFromLog {φ : Query → Prop} {log : List Json} {opts : LogOptions}
    (h : φ (.verify log opts)) : Prog.Safe φ (Verifying.resolveDIDFromLog log opts).run :=
  Prog.safe_bind.mpr ⟨(Prog.safe_ask _).mpr h, fun _ _ => trivial⟩

/-- `resolveVerified` has the log verified under the given options, for some version. -/
lemma safe_resolveVerified {φ : Query → Prop} {log : List Json} {opts : LogOptions}
    {time : Option Int} {requested : Option JsString}
    (h : ∀ versionNumber, φ (.verify log { opts with versionNumber })) :
    Prog.Safe φ (Verifying.resolveVerified pf log opts time requested).run := by
  refine Prog.safe_run_bind.mpr ⟨safe_resolveDIDFromLog (h opts.versionNumber), fun current _ => ?_⟩
  cases time with
  | none => exact safe_lift_verifying _
  | some time =>
    dsimp only
    split
    · exact safe_lift_verifying _
    · split
      · trivial
      · exact Prog.safe_run_bind.mpr
          ⟨safe_resolveDIDFromLog (h _), fun _ _ => safe_lift_verifying _⟩

/-- A resolution asks for guarded fetches, and for the verification of vetted logs. -/
lemma safe_verifying_resolve (laws : SerializesUrls pf) (did : JsString) (options : ResolveOptions) :
    Prog.Safe (IsGuardedQuery pf did (netPolicyOf options))
      (Verifying.resolve pf did options).run := by
  refine Prog.safe_run_bind.mpr ⟨safe_lift_verifying _, fun time _ => ?_⟩
  split
  · trivial
  refine Prog.safe_run_bind.mpr ⟨safe_lift_verifying _, fun logUrl hlog => ?_⟩
  replace hlog := returns_lift_verifying.mp hlog
  obtain ⟨⟨s, hparse⟩, hplain, -⟩ := logUrl_scheme hlog
  refine Prog.safe_run_bind.mpr ⟨safe_lift_verifying _, fun fetchGuarded hfetch => ?_⟩
  cases guardedFetch_eq_ok (returns_lift_verifying.mp hfetch)
  refine Prog.safe_run_bind.mpr ⟨Prog.safe_embed (safe_fetchBody.mpr fun h => ?_), fun text _ => ?_⟩
  · exact isGuardedFetch_of_admits laws hlog hparse hplain rfl h
  refine Prog.safe_run_bind.mpr ⟨safe_lift_verifying _, fun log _ => ?_⟩
  refine Prog.safe_run_bind.mpr ⟨Prog.safe_embed ?_, fun witnessProofs _ => ?_⟩
  · unfold suppliedWitnessProofs
    split
    · apply safe_fetchWitnessProofs.mpr
      intro url hurl h
      obtain ⟨path, hhref⟩ := laws.href hparse hplain
      obtain ⟨path', hurl⟩ := witnessUrl_eq_ok hhref hurl
      obtain ⟨hplain', horigin⟩ := laws.reparse hparse hplain hurl
      exact isGuardedFetch_of_admits laws hlog hurl hplain' horigin h
    · trivial
  refine Prog.safe_run_bind.mpr ⟨safe_lift_verifying _, fun _ hvetted => ?_⟩
  exact safe_resolveVerified fun _ => vetted_of_assert (returns_lift_verifying.mp hvetted)

/-- `resolveLog` asks only for the verification of its log, with its vetted proofs, of which there
are some when the log declares witnesses. -/
lemma safe_resolveLog (log : List Json) (options : ResolveLogOptions) :
    Prog.Safe (fun q => ∃ opts, q = .verify log opts ∧
        Vetted pf (netPolicyOf options.toResolveOptions) log opts.witnessProofs ∧
        (DeclaresWitnesses log → opts.witnessProofs ≠ []))
      (Verifying.resolveLog pf log options).run := by
  refine Prog.safe_run_bind.mpr ⟨safe_lift_verifying _, fun time _ => ?_⟩
  refine Prog.safe_run_bind.mpr ⟨safe_lift_verifying _, fun witnessProofs _ => ?_⟩
  split
  · trivial
  rename_i hsupplied
  refine Prog.safe_run_bind.mpr ⟨safe_lift_verifying _, fun _ hvetted => ?_⟩
  refine safe_resolveVerified fun _ => ⟨_, rfl, ?_, ?_⟩
  · exact vetted_of_assert (returns_lift_verifying.mp hvetted)
  · rintro hdeclares rfl
    exact hsupplied (by simp [declaresWitnesses_iff.mpr hdeclares])

/-! ## Redirects -/

/-- A guarded fetch refuses a redirect. -/
lemma failsOn_netGuardedFetch (policy : EndpointPolicy) (input method : JsString)
    (body : Option JsString) :
    Prog.FailsOn (fun x => IsRedirect x.2) (fun e => isBlockedError e = true)
      (netGuardedFetch pf policy input method body) := by
  apply Prog.FailsOn.bind (Prog.failsOn_pure _)
  intro parsed _
  rintro tr r ⟨x, rest, rfl, h⟩ ⟨y, hy, resp, hresp, hredirect⟩
  cases x with
  | error e =>
    obtain ⟨rfl, -⟩ := h
    rw [List.mem_singleton] at hy
    subst hy
    cases hresp
  | ok resp' =>
    replace h : Prog.Runs (ExceptT.run (if resp'.opaqueRedirect ||
        (300 ≤ resp'.status && resp'.status < 400) then throw _ else pure resp')) rest r := h
    split at h
    · obtain ⟨-, rfl⟩ := h
      exact ⟨_, rfl, rfl⟩
    · rename_i hn
      obtain ⟨rfl, -⟩ := h
      rw [List.mem_singleton] at hy
      subst hy
      cases hresp
      exact absurd (by simpa using hredirect) hn

/-- A refusal passes through `fetchBody`. -/
lemma failsOn_fetchBody (policy : EndpointPolicy) (url : Url) (label : JsString) :
    Prog.FailsOn (fun x => IsRedirect x.2) (fun e => isBlockedError e = true)
      (fetchBody (netGuardedFetch pf policy) url label) := by
  refine Prog.FailsOn.bind (Prog.FailsOn.tryCatch (failsOn_netGuardedFetch policy _ _ _) ?_ ?_) ?_
  · intro e he
    exact if_pos he
  · intro e
    split <;> exact Prog.failsOn_pure _
  · intro response _
    split
    · exact Prog.failsOn_pure _
    · exact Prog.failsOn_pure _

/-- A refusal of the witness file is thrown, where any other failure is no proofs. -/
lemma failsOn_suppliedWitnessProofs (policy : EndpointPolicy) (log : List Json) (logUrl : Url) :
    Prog.FailsOn (fun x => IsRedirect x.2) (fun e => isBlockedError e = true)
      (suppliedWitnessProofs pf (netGuardedFetch pf policy) log logUrl) := by
  unfold suppliedWitnessProofs
  split
  · refine Prog.FailsOn.bind (Prog.FailsOn.tryCatch ?_ ?_ ?_) ?_
    · exact Prog.FailsOn.bind (Prog.failsOn_pure _) fun url _ =>
        Prog.FailsOn.map some (failsOn_fetchBody policy url witnessLabel)
    · intro e he
      exact if_pos he
    · intro e
      split <;> exact Prog.failsOn_pure _
    · intro text _
      split <;> exact Prog.failsOn_pure _
  · exact Prog.failsOn_pure _

/-- What is fetched fails where the fetch does. -/
lemma failsOn_net {α : Type} {p : Net α} {ψ : JsError → Prop}
    (h : Prog.FailsOn (fun x => IsRedirect x.2) ψ p) :
    Prog.FailsOn Redirected (fun _ => True) (Verifying.net p) :=
  (h.mono fun _ _ => trivial).embed fun _ _ hx => hx.2

/-- A fetch of a resolution that is answered with a redirect makes it fail. -/
lemma failsOn_verifying_resolve (did : JsString) (options : ResolveOptions) :
    Prog.FailsOn Redirected (fun _ => True) (Verifying.resolve pf did options) := by
  apply Prog.FailsOn.bind (Prog.failsOn_pure _)
  intro time _
  split
  · exact Prog.failsOn_pure _
  apply Prog.FailsOn.bind (Prog.failsOn_pure _)
  intro logUrl _
  apply Prog.FailsOn.bind (Prog.failsOn_pure _)
  intro fetchGuarded hfetch
  cases guardedFetch_eq_ok (returns_lift_verifying.mp hfetch)
  apply Prog.FailsOn.bind (failsOn_net (failsOn_fetchBody _ _ _))
  intro text _
  apply Prog.FailsOn.bind (Prog.failsOn_pure _)
  intro log _
  apply Prog.FailsOn.bind (failsOn_net (failsOn_suppliedWitnessProofs _ _ _))
  intro proofs _
  apply Prog.FailsOn.bind (Prog.failsOn_pure _)
  intro _ _
  -- what is left fetches nothing
  refine Prog.failsOn_of_safe (φ := fun q => ∀ r, q ≠ .request r)
    (safe_resolveVerified fun _ _ => Query.noConfusion) ?_
  rintro x hx ⟨⟨q, hq⟩, -⟩
  exact hx q hq

/-! ## The guard -/

/-- Every run of `resolve` fetches only accepted URLs on the origin of the identifier's log, without
following redirects, and fails on a redirect; it fetches nothing when the identifier has no log URL.
`resolve` and `resolveLog` have a log verified only with every did:webvh its proofs name vetted, and
`resolveLog` not without witness proofs where the log declares witnesses. -/
theorem webvh_egress_guarded (laws : SerializesUrls pf) :
    (∀ did options tr r, Prog.Runs (Verifying.resolve pf did options).run tr r →
      (∀ x ∈ tr, IsGuardedQuery pf did (netPolicyOf options) x.1) ∧
      (∀ e, webvhLogUrl pf did (netPolicyOf options) logLabel = .error e →
        ∀ x ∈ tr, ∀ q, x.1 ≠ .request q) ∧
      ((∃ x ∈ tr, Redirected x) → ∃ e, r = .error e)) ∧
    (∀ log options tr r, Prog.Runs (Verifying.resolveLog pf log options).run tr r →
      ∀ x ∈ tr, ∃ opts, x.1 = .verify log opts ∧
        Vetted pf (netPolicyOf options.toResolveOptions) log opts.witnessProofs ∧
        (DeclaresWitnesses log → opts.witnessProofs ≠ [])) := by
  constructor
  · intro did options tr r h
    have hsafe := h.safe (safe_verifying_resolve laws did options)
    refine ⟨hsafe, ?_, fun hredirect => ?_⟩
    · intro e he x hx q hq
      have hfetch := hsafe x hx
      rw [hq] at hfetch
      obtain ⟨logUrl, url, u, hlog, -⟩ := hfetch
      rw [he] at hlog
      cases hlog
    · obtain ⟨e, -, he⟩ := failsOn_verifying_resolve did options tr r h hredirect
      exact ⟨e, he⟩
  · intro log options tr r h
    exact h.safe (safe_resolveLog log options)

/-! ## Runs -/

/-- The plain platform, for URLs with a path. -/
def rooted : Platform :=
  { Platform.plain with parseUrl := fun s => (plainUrl s).filter fun u => u.pathname ≠ [] }

/-- What is put together as a plain URL is read with its parts. -/
lemma plainUrl_append {pre host : JsString} (path : JsString) (hpre : colon ∉ pre)
    (hhost : slash ∉ host) (hne : host ≠ []) :
    plainUrl (pre ++ js "://" ++ (host ++ slash :: path)) = some
      { href := pre ++ js "://" ++ (host ++ slash :: path)
        protocol := pre ++ js ":"
        username := []
        password := []
        host := host
        hostname := host
        port := []
        pathname := slash :: path } := by
  have hidx : indexOfStr (js "://") (pre ++ js "://" ++ (host ++ slash :: path)) =
      some pre.length := indexOfStr_append _ hpre
  have hrest : sliceFrom (pre ++ js "://" ++ (host ++ slash :: path)) (pre.length + 3) =
      host ++ slash :: path := by
    have : pre.length + 3 = (pre ++ js "://").length := by
      rw [List.length_append]
      rfl
    rw [this, sliceFrom_append]
  have hscheme : sliceTo (pre ++ js "://" ++ (host ++ slash :: path)) pre.length = pre := by
    rw [List.append_assoc, sliceTo_append]
  have hhead : splitHead 0x2f (host ++ slash :: path) = host := splitHead_append_cons path hhost
  simp only [plainUrl, hidx, hrest, hscheme, hhead, if_neg hne, sliceFrom_append]

/-- What is read as a plain URL is put together from its parts. -/
lemma plainUrl_eq_some {s : JsString} {u : Url} (h : rooted.parseUrl s = some u) :
    ∃ pre path, s = pre ++ js "://" ++ (u.host ++ slash :: path) ∧ u.href = s ∧
      u.protocol = pre ++ js ":" ∧ slash ∉ u.host ∧ u.host ≠ [] := by
  obtain ⟨hplain, hpath⟩ := Option.filter_eq_some_iff.mp h
  unfold plainUrl at hplain
  split at hplain
  · cases hplain
  rename_i i hidx
  obtain ⟨pre, rest, rfl, rfl, -⟩ := indexOfStr_eq_some hidx
  have hrest : sliceFrom (pre ++ js "://" ++ rest) (pre.length + 3) = rest := by
    have : pre.length + 3 = (pre ++ js "://").length := by
      rw [List.length_append]
      rfl
    rw [this, sliceFrom_append]
  rw [hrest] at hplain
  dsimp only at hplain
  split at hplain
  · cases hplain
  rename_i hne
  cases hplain
  have hscheme : sliceTo (pre ++ js "://" ++ rest) pre.length = pre := by
    rw [List.append_assoc, sliceTo_append]
  cases hsplit : split slash rest with
  | nil => exact absurd hsplit (split_ne_nil _ _)
  | cons part parts =>
    have hhead : splitHead 0x2f rest = part := by
      rw [splitHead, show split 0x2f rest = part :: parts from hsplit]
      rfl
    cases parts with
    | nil =>
      obtain ⟨rfl, -⟩ := eq_of_split_singleton hsplit
      simp [hhead, sliceFrom] at hpath
    | cons next parts =>
      obtain ⟨path, rfl, hpart, -⟩ := eq_of_split_cons hsplit
      refine ⟨pre, path, ?_, rfl, by rw [hscheme], notMem_splitHead _ _, hne⟩
      dsimp only
      rw [hhead]

/-- The plain platform serializes its URLs as the standard says. -/
lemma serializesUrls_rooted : SerializesUrls rooted where
  href {s u} h hplain := by
    obtain ⟨pre, path, rfl, hhref, hproto, -⟩ := plainUrl_eq_some h
    refine ⟨path, ?_⟩
    rw [hhref, rootOf, hproto]
    simp only [List.append_assoc]
    rfl
  reparse {s u path v} h hplain hv := by
    obtain ⟨pre, -, -, -, hproto, hslash, hne⟩ := plainUrl_eq_some h
    have hpre : colon ∉ pre := by
      rcases hplain.protocol with hp | hp <;> rw [hproto] at hp
      · obtain rfl : pre = js "https" :=
          List.append_cancel_right (hp.trans (by decide : js "https:" = js "https" ++ js ":"))
        decide
      · obtain rfl : pre = js "http" :=
          List.append_cancel_right (hp.trans (by decide : js "http:" = js "http" ++ js ":"))
        decide
    have htext : rootOf u ++ slash :: path = pre ++ js "://" ++ (u.host ++ slash :: path) := by
      rw [rootOf, hproto]
      simp only [List.append_assoc]
      rfl
    obtain ⟨hparse, -⟩ := Option.filter_eq_some_iff.mp hv
    rw [htext, plainUrl_append path hpre hslash hne] at hparse
    cases hparse
    exact ⟨⟨hproto ▸ hplain.protocol, rfl, rfl⟩, by rw [origin, origin, hproto]⟩

/-- The log of `did:webvh:Qm:a.example` is answered with a redirect, and the resolution fails. -/
theorem webvh_egress_guarded_example :
    ∃ tr r, Prog.Runs (Verifying.resolve rooted (js "did:webvh:Qm:a.example") {}).run tr r ∧
      tr.map (fun x => x.1) =
        [.request (getRequest (js "https://a.example/.well-known/did.jsonl"))] ∧
      (∀ x ∈ tr, IsGuardedQuery rooted (js "did:webvh:Qm:a.example") {} x.1) ∧
      ∃ e, r = .error e := by
  let moved : Reply :=
    { response := .ok { status := 302, opaqueRedirect := false, body := .ok [] }
      result := .error (error []) }
  have hrun : ∃ r, Prog.Runs (Verifying.resolve rooted (js "did:webvh:Qm:a.example") {}).run
      [(.request (getRequest (js "https://a.example/.well-known/did.jsonl")), moved)] r :=
    ⟨_, moved, [], rfl, rfl, rfl⟩
  obtain ⟨r, hrun⟩ := hrun
  obtain ⟨hguarded, -, hfails⟩ := (webvh_egress_guarded serializesUrls_rooted).1 _ _ _ _ hrun
  refine ⟨_, r, hrun, rfl, hguarded, hfails ⟨_, List.mem_singleton.mpr rfl, ⟨_, rfl⟩, ?_⟩⟩
  exact ⟨_, rfl, .inr ⟨by decide, by decide⟩⟩

/-- A caller who allows private hosts but not plaintext has the log of `localhost` fetched in
plaintext. -/
theorem resolve_dials_plaintext_localhost :
    ¬ ∀ did options tr r, Prog.Runs (Verifying.resolve rooted did options).run tr r →
      ∀ q a, (.request q, a) ∈ tr → Permits rooted (netPolicyOf options) q.url := by
  intro h
  let gone : Reply := { response := .error (error []), result := .error (error []) }
  have hrun : ∃ r, Prog.Runs (Verifying.resolve rooted (js "did:webvh:Qm:localhost")
      { netPolicy := some { allowPrivate := true } }).run
      [(.request (getRequest (js "http://localhost/.well-known/did.jsonl")), gone)] r :=
    ⟨_, gone, [], rfl, rfl, rfl⟩
  obtain ⟨r, hrun⟩ := hrun
  obtain ⟨u, hu, hscheme, -⟩ := admits_iff.mp (h _ _ _ _ hrun _ _ (List.mem_singleton.mpr rfl))
  rw [hasScheme_default] at hscheme
  have hhttp : u.protocol = js "http:" := by
    have : rooted.parseUrl (js "http://localhost/.well-known/did.jsonl") = some _ := rfl
    cases this.symm.trans hu
    rfl
  rw [hhttp] at hscheme
  revert hscheme
  decide

end VtiDidcomm.Webvh
