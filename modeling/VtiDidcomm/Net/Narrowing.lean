import VtiDidcomm.Net.IpText
import VtiDidcomm.Net.Permits

/-!
# The egress policy only narrows

`Narrower P Q`: every setting of `P` is at most as wide as that of `Q`. What `P` accepts `Q` accepts
(`Narrower.accepts`), and what a policy without `allowPrivate` accepts has a public host, whatever
else it sets (`public_of_accepts`).
-/

namespace VtiDidcomm
open Js

variable (pf : Platform)

/-- The settings of `P` are at most as wide as those of `Q`, schemes up to case and a final colon. -/
structure Narrower (P Q : EndpointPolicy) : Prop where
  schemes : ∀ s ∈ P.schemes, ∃ s' ∈ Q.schemes, normalizeScheme pf s' = normalizeScheme pf s
  allowInsecure : P.allowInsecure = true → Q.allowInsecure = true
  allowPrivate : P.allowPrivate = true → Q.allowPrivate = true
  allowHosts : ∀ q, Q.allowHosts = some q → ∃ p, P.allowHosts = some p ∧ ∀ entry ∈ p, entry ∈ q

/-- A policy no call refuses as malformed. -/
structure WellFormed (P : EndpointPolicy) : Prop where
  schemes : ∃ list, normalizeSchemes pf P.schemes P.allowInsecure = .ok list
  allowHosts : ∃ list, normalizeAllowHosts pf P.allowHosts = .ok list

/-- An `allowHosts` entry names a host, or a parent domain of it. -/
inductive EntryMatches (entry host : JsString) : Prop where
  | exactly : normalizeAllowHost pf entry = .ok (.exact host) → EntryMatches entry host
  | subdomain (label base : JsString) : normalizeAllowHost pf entry = .ok (.suffix (dot :: base)) →
      label ≠ [] → host = label ++ dot :: base → EntryMatches entry host

/-- An IP address in a text form. -/
def IsIpLiteral (host : JsString) : Prop := (parseIpv4 host).isSome ∨ (parseIpv6 host).isSome

/-- A public IP literal, or a name of two labels or more that is not local-only. -/
structure IsPublicHost (host : JsString) : Prop where
  literal : IsIpLiteral host → isBlockedIp host = false
  labels : ¬ IsIpLiteral host → dot ∈ host
  name : ¬ IsIpLiteral host → ∀ suffix ∈ blockedNameSuffixes, ¬ suffix <:+ host

/-- The host name of a parsed URL as the URL standard serializes it: ASCII, and a `:` only inside
brackets. -/
structure IsHostname (hostname : JsString) : Prop where
  ascii : ∀ c ∈ hostname, c < 0x80
  bracketed : colon ∈ hostname → startsWith hostname (js "[") = true

variable {pf}

/-! ## Schemes and hosts of a wider policy -/

/-- The schemes a policy accepts: those it lists, and their plaintext forms if it allows them. -/
lemma mem_normalizeSchemes {schemes list : List JsString} {insecure : Bool}
    (h : normalizeSchemes pf schemes insecure = .ok list) (t : JsString) :
    t ∈ list ↔ ∃ raw ∈ schemes, ∃ s, normalizeScheme pf raw = .ok s ∧
      (t = s ∨ insecure = true ∧ plaintextOf s = some t) := by
  unfold normalizeSchemes at h
  split at h
  · cases h
  obtain ⟨normal, hnormal, h⟩ := bind_eq_ok.mp h
  cases h
  simp only [List.mem_flatMap, mem_of_mapM_eq_ok hnormal, List.mem_cons]
  constructor
  · rintro ⟨s, ⟨raw, hraw, hs⟩, rfl | hplain⟩
    · exact ⟨raw, hraw, t, hs, .inl rfl⟩
    · cases insecure with
      | false => simp at hplain
      | true => exact ⟨raw, hraw, s, hs, .inr ⟨rfl, by simpa using hplain⟩⟩
  · rintro ⟨raw, hraw, s, hs, ht⟩
    refine ⟨s, ⟨raw, hraw, hs⟩, ht.imp_right ?_⟩
    rintro ⟨hinsecure, hplain⟩
    simp [hinsecure, hplain]

/-- A scheme under the narrower policy is one under the wider. -/
lemma Narrower.hasScheme {P Q : EndpointPolicy} {u : Url} (h : Narrower pf P Q)
    (hQ : WellFormed pf Q) (hP : HasScheme pf P u) : HasScheme pf Q u := by
  obtain ⟨listP, hlistP, hmem⟩ := hP
  obtain ⟨listQ, hlistQ⟩ := hQ.schemes
  refine ⟨listQ, hlistQ, (mem_normalizeSchemes hlistQ _).mpr ?_⟩
  obtain ⟨raw, hraw, s, hs, ht⟩ := (mem_normalizeSchemes hlistP _).mp hmem
  obtain ⟨raw', hraw', heq⟩ := h.schemes raw hraw
  exact ⟨raw', hraw', s, heq.trans hs, ht.imp_right fun hp => ⟨h.allowInsecure hp.1, hp.2⟩⟩

/-- The rules of a list of entries. -/
lemma mem_normalizeAllowHosts {entries : List JsString} {allowList : Option (List HostRule)}
    (h : normalizeAllowHosts pf (some entries) = .ok allowList) :
    ∃ rules, allowList = some rules ∧
      ∀ rule, rule ∈ rules ↔ ∃ entry ∈ entries, normalizeAllowHost pf entry = .ok rule := by
  unfold normalizeAllowHosts at h
  cases hm : entries.mapM (normalizeAllowHost pf) with
  | error e => simp [hm, Functor.map, Except.map] at h
  | ok rules =>
    simp only [hm, Functor.map, Except.map, Except.ok.injEq] at h
    exact ⟨rules, h.symm, mem_of_mapM_eq_ok hm⟩

/-- A host listed under the narrower policy is listed under the wider. -/
lemma Narrower.listsHost {P Q : EndpointPolicy} {u : Url} (h : Narrower pf P Q)
    (hQ : WellFormed pf Q) (hP : ListsHost pf P.toNetPolicy u) : ListsHost pf Q.toNetPolicy u := by
  obtain ⟨allowQ, hallowQ⟩ := hQ.allowHosts
  refine ⟨allowQ, hallowQ, ?_⟩
  rintro rulesQ rfl
  cases hq : Q.allowHosts with
  | none =>
    rw [hq] at hallowQ
    cases hallowQ
  | some q =>
    -- a rule of `P` that admits the host is a rule of `Q`
    obtain ⟨p, hp, hsub⟩ := h.allowHosts q hq
    rw [hq] at hallowQ
    obtain ⟨rules, hrules, hmemQ⟩ := mem_normalizeAllowHosts hallowQ
    cases hrules
    obtain ⟨allowP, hallowP, hlisted⟩ := hP
    rw [hp] at hallowP
    obtain ⟨rulesP, hrulesP, hmemP⟩ := mem_normalizeAllowHosts hallowP
    obtain ⟨rule, hrule, hadmits⟩ := List.any_eq_true.mp (hlisted rulesP hrulesP)
    obtain ⟨entry, hentry, hnorm⟩ := (hmemP rule).mp hrule
    exact List.any_eq_true.mpr ⟨rule, (hmemQ rule).mpr ⟨entry, hsub entry hentry, hnorm⟩, hadmits⟩

/-- A URL accepted under a policy, part by part. -/
lemma accepts_iff {policy : EndpointPolicy} {url : JsString} {u : Url} :
    assertSafeEndpoint pf url policy = .ok u ↔ pf.parseUrl url = some u ∧ HasScheme pf policy u ∧
      HasOpenHost pf policy.allowPrivate u ∧ ListsHost pf policy.toNetPolicy u := by
  constructor
  · intro h
    obtain ⟨u', hu', rest⟩ := admits_iff.mp ⟨u, h⟩
    obtain ⟨-, -, -, -, hu, -⟩ := assertSafeEndpoint_eq_ok.mp h
    cases hu.symm.trans hu'
    exact ⟨hu', rest⟩
  · rintro ⟨hu, rest⟩
    obtain ⟨u', h⟩ := admits_iff.mpr ⟨u, hu, rest⟩
    obtain ⟨-, -, -, -, hu', -⟩ := assertSafeEndpoint_eq_ok.mp h
    cases hu.symm.trans hu'
    exact h

/-- A URL accepted under the narrower policy is accepted under the wider. -/
lemma Narrower.accepts {P Q : EndpointPolicy} {url : JsString} {u : Url} (h : Narrower pf P Q)
    (hQ : WellFormed pf Q) (hP : assertSafeEndpoint pf url P = .ok u) :
    assertSafeEndpoint pf url Q = .ok u := by
  obtain ⟨hu, hscheme, hopen, hlisted⟩ := accepts_iff.mp hP
  exact accepts_iff.mpr ⟨hu, h.hasScheme hQ hscheme, hopen.mono h.allowPrivate,
    h.listsHost hQ hlisted⟩

/-! ## The hosts of a policy without `allowPrivate` -/

/-- Only a colon is lowered to a colon. -/
lemma asciiLower_eq_colon {c : CodeUnit} (h : asciiLower c = colon) : c = colon := by
  unfold asciiLower at h
  split at h
  · rename_i hc
    simp only [Bool.and_eq_true, decide_eq_true_eq, UInt16.le_iff_toNat_le] at hc
    have hn := congrArg UInt16.toNat h
    rw [UInt16.toNat_add] at hn
    simp only [UInt16.reduceToNat, colon] at hc hn
    omega
  · exact h

/-- Canonicalizing a host adds no `:`. -/
lemma colon_notMem_canonicalHost {hostname : JsString} (h : IsHostname hostname)
    (hc : colon ∉ hostname) : colon ∉ canonicalHost pf hostname := by
  have hlower : colon ∉ pf.toLowerCase hostname := by
    rw [pf.toLowerCase_ascii hostname h.ascii]
    intro hm
    obtain ⟨c, hmem, heq⟩ := List.mem_map.mp hm
    exact hc (asciiLower_eq_colon heq ▸ hmem)
  unfold canonicalHost
  dsimp only
  split
  · exact fun hm => hlower (List.mem_of_mem_drop (List.mem_of_mem_dropLast hm))
  · exact fun hm => hlower ((List.rdropWhile_prefix _ _).subset hm)

/-- Only an IP literal is not blocked as one. -/
lemma isIpLiteral_of_not_blocked {host : JsString} (h : isBlockedIp host = false) :
    IsIpLiteral host := by
  unfold isBlockedIp at h
  split at h
  · rename_i v4 hv4
    exact .inl (by simp [hv4])
  split at h
  · rename_i v6 hv6
    exact .inr (by simp [hv6])
  · cases h

/-- The host of an open URL is public. -/
lemma HasOpenHost.isPublicHost {u : Url} (h : HasOpenHost pf false u) (hh : IsHostname u.hostname) :
    IsPublicHost (canonicalHost pf u.hostname) := by
  have hpublic := h.isPublic.resolve_left Bool.false_ne_true
  split at hpublic
  · have hlit := isIpLiteral_of_not_blocked hpublic
    exact ⟨fun _ => hpublic, fun hn => absurd hlit hn, fun hn => absurd hlit hn⟩
  · rename_i hname
    simp only [Bool.or_eq_true, not_or, Bool.not_eq_true] at hname
    have hcolon : colon ∉ u.hostname := fun hm => by simp [hh.bracketed hm] at hname
    have hlit : ¬ IsIpLiteral (canonicalHost pf u.hostname) := by
      rintro (h4 | h6)
      · simp [hname.2] at h4
      · simp [parseIpv6_of_noColon (colon_notMem_canonicalHost hh hcolon)] at h6
    simp only [isBlockedName, Bool.or_eq_false_iff, Bool.not_eq_false', List.any_eq_false] at hpublic
    refine ⟨fun hl => absurd hl hlit, fun _ => includes_iff.mp hpublic.1, fun _ suffix hs hsuf => ?_⟩
    exact hpublic.2 suffix hs (List.isSuffixOf_iff_suffix.mpr hsuf)

/-- A rule of a parent domain starts with its dot. -/
lemma suffix_of_normalizeAllowHost {entry s : JsString}
    (h : normalizeAllowHost pf entry = .ok (.suffix s)) : ∃ base, s = dot :: base := by
  unfold normalizeAllowHost at h
  dsimp only at h
  generalize (if startsWith (pf.toLowerCase (trim entry)) (js "*.") then
    sliceFrom (pf.toLowerCase (trim entry)) 2 else pf.toLowerCase (trim entry)) = name at h
  split at h
  · cases h
  split at h
  · cases h
  split at h
  · cases h
  split at h
  · cases h
    exact ⟨_, rfl⟩
  · cases h

/-- A listed host matches an entry, exactly or as a proper subdomain. -/
lemma ListsHost.entryMatches {P : NetPolicy} {u : Url} {entries : List JsString}
    (h : ListsHost pf P u) (he : P.allowHosts = some entries) :
    ∃ entry ∈ entries, EntryMatches pf entry (canonicalHost pf u.hostname) := by
  obtain ⟨allowList, hnorm, hlisted⟩ := h
  rw [he] at hnorm
  obtain ⟨rules, rfl, hmem⟩ := mem_normalizeAllowHosts hnorm
  obtain ⟨rule, hrule, hadmits⟩ := List.any_eq_true.mp (hlisted rules rfl)
  obtain ⟨entry, hentry, hok⟩ := (hmem rule).mp hrule
  refine ⟨entry, hentry, ?_⟩
  cases rule with
  | exact host =>
    rw [of_decide_eq_true hadmits]
    exact .exactly hok
  | suffix s =>
    obtain ⟨base, rfl⟩ := suffix_of_normalizeAllowHost hok
    simp only [HostRule.admits, Bool.and_eq_true, decide_eq_true_eq] at hadmits
    obtain ⟨label, hlabel⟩ := List.isSuffixOf_iff_suffix.mp hadmits.2
    refine .subdomain label base hok ?_ hlabel.symm
    rintro rfl
    have hlen := hadmits.1
    rw [← hlabel] at hlen
    simp at hlen

/-- The egress policy only narrows: a wider policy accepts whatever a narrower one does, and no
setting but `allowPrivate` lets a URL through whose host is not public. -/
theorem egress_policy_narrows (pf : Platform) :
    (∀ (P Q : EndpointPolicy) (url : JsString) (u : Url), Narrower pf P Q → WellFormed pf Q →
      assertSafeEndpoint pf url P = .ok u → assertSafeEndpoint pf url Q = .ok u) ∧
    (∀ (P : EndpointPolicy) (url : JsString) (u : Url), P.allowPrivate = false →
      assertSafeEndpoint pf url P = .ok u → IsHostname u.hostname →
      IsPublicHost (canonicalHost pf u.hostname) ∧ u.username = [] ∧ u.password = [] ∧
        ∀ entries, P.allowHosts = some entries →
          ∃ entry ∈ entries, EntryMatches pf entry (canonicalHost pf u.hostname)) := by
  constructor
  · intro P Q url u hPQ hQ hP
    exact hPQ.accepts hQ hP
  · intro P url u hprivate hP hhost
    obtain ⟨-, -, hopen, hlisted⟩ := accepts_iff.mp hP
    rw [hprivate] at hopen
    exact ⟨hopen.isPublicHost hhost, hopen.username, hopen.password,
      fun entries he => hlisted.entryMatches he⟩

theorem egress_policy_narrows_example :
    ∃ u, assertSafeEndpoint Platform.plain (js "https://api.example.com/x")
        { allowHosts := some [js "*.example.com"], schemes := [js "https:"] } = .ok u ∧
      assertSafeEndpoint Platform.plain (js "https://api.example.com/x") {} = .ok u ∧
      IsPublicHost (canonicalHost Platform.plain u.hostname) ∧ u.username = [] ∧ u.password = [] := by
  obtain ⟨hnarrow, hpublic⟩ := egress_policy_narrows Platform.plain
  have hok : ∃ u, assertSafeEndpoint Platform.plain (js "https://api.example.com/x")
      { allowHosts := some [js "*.example.com"], schemes := [js "https:"] } = .ok u ∧
      u.hostname = js "api.example.com" := ⟨_, rfl, rfl⟩
  obtain ⟨u, hu, hname⟩ := hok
  have hhost : IsHostname u.hostname := by
    rw [hname]
    exact ⟨fun c hc => of_decide_eq_true (List.all_eq_true.mp
      (show (js "api.example.com").all (· < 0x80) = true by decide) c hc), fun hc => absurd hc (by decide)⟩
  obtain ⟨hpub, huser, hpass, -⟩ := hpublic _ _ u rfl hu hhost
  have hnarrower : Narrower Platform.plain
      { allowHosts := some [js "*.example.com"], schemes := [js "https:"] } {} := by
    refine ⟨?_, id, id, fun q hq => by cases hq⟩
    intro s hs
    rw [List.mem_singleton.mp hs]
    exact ⟨js "https:", by decide, rfl⟩
  exact ⟨u, hu, hnarrow _ {} _ u hnarrower ⟨⟨_, rfl⟩, ⟨_, rfl⟩⟩ hu, hpub, huser, hpass⟩

end VtiDidcomm
