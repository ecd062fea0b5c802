import VtiDidcomm.Did.Scid

/-!
# References without their `src`

What `stripScidSrc` keeps. It looks for the first `?` of the whole reference, so a locator written
in a fragment is taken for the reference's own; `LocatorInFragment` says when that happens, and
everywhere else stripping is idempotent and keeps the fragment.
-/

namespace VtiDidcomm
open Js

/-- The fragment of a reference, from its first `#` on. -/
def fragment (r : JsString) : JsString := (cutHash r).2

/-- The first `?` of `s` starts a `src` locator. -/
def HasLocator (s : JsString) : Prop :=
  ∃ pre src rest, s = pre ++ question :: (js "src=" ++ src ++ rest) ∧ question ∉ pre ∧ IsSrc src ∧
    IsFragment rest

/-- A did:scid reference with a `src` locator in its fragment, and before the fragment either no
query or a locator of its own. -/
structure LocatorInFragment (r : JsString) : Prop where
  scid : startsWith r scidPrefix = true
  locator : HasLocator (fragment r)
  query : question ∉ splitHead hash r ∨ HasLocator (splitHead hash r)

/-! ## Cutting a reference at its first `#` -/

/-- The part before the fragment is cut off. -/
lemma splitHead_append_fragment {query rest : JsString} (hq : hash ∉ query) (hf : IsFragment rest) :
    splitHead hash (query ++ rest) = query := by
  rcases hf with rfl | ⟨g, rfl⟩
  · rw [List.append_nil]
    exact splitHead_of_notMem hq
  · exact splitHead_append_cons g hq

/-- The fragment is what follows it. -/
lemma fragment_append {query rest : JsString} (hq : hash ∉ query) (hf : IsFragment rest) :
    fragment (query ++ rest) = rest := by
  rw [fragment, cutHash_append hq hf]

/-- A reference is put together from the two. -/
lemma splitHead_append_fragment_self (r : JsString) :
    splitHead hash r ++ fragment r = r ∧ IsFragment (fragment r) := by
  obtain ⟨e, hn, hf⟩ := cutHash_spec r
  have hhead : splitHead hash r = (cutHash r).1 := by
    conv_lhs => rw [e]
    exact splitHead_append_fragment hn hf
  exact ⟨by rw [hhead, fragment, ← e], hf⟩

/-! ## Which locator is stripped -/

/-- A reference carries a `src` exactly when it is a did:scid whose first `?` starts a locator. -/
lemma carries_src_iff {u : JsString} :
    (∃ src, scidSrc u = some src) ↔ startsWith u scidPrefix = true ∧ HasLocator u := by
  constructor
  · rintro ⟨src, h⟩
    obtain ⟨did, rest, hs⟩ := scidSrc_eq_some.mp h
    refine ⟨?_, did, src, rest, hs.eq, hs.noQuery, ⟨hs.nonempty, hs.noAmp, hs.noHash⟩,
      hs.isFragment⟩
    rw [hs.eq, startsWith_iff]
    exact (startsWith_iff.mp hs.scid).trans (List.prefix_append _ _)
  · rintro ⟨hscid, did, src, rest, rfl, hq, hsrc, hf⟩
    have hdid : startsWith did scidPrefix = true := by
      have := startsWith_splitHead (c := question) hscid (by decide)
      rwa [splitHead_append_cons _ hq] at this
    exact ⟨src, scidSrc_eq_some.mpr ⟨did, rest, rfl, hdid, hq, hsrc.nonempty, hsrc.noAmp,
      hsrc.noHash, hf⟩⟩

/-- Only a reference that carries a `src` is changed. -/
lemma stripScidSrc_eq_self_iff {u : JsString} : stripScidSrc u = u ↔ scidSrc u = none := by
  rcases stripScidSrc_cases u with ⟨e, hn⟩ | ⟨did, src, rest, h, e⟩
  · exact ⟨fun _ => hn, fun _ => e⟩
  · constructor
    · intro hself
      have hlen := congrArg List.length (e.symm.trans hself)
      rw [h.eq] at hlen
      simp only [List.length_append, List.length_cons] at hlen
      omega
    · intro hnone
      rw [scidSrc_eq_some.mpr ⟨did, rest, h⟩] at hnone
      cases hnone

/-- A reference that is not changed carries no locator. -/
lemma stripScidSrc_eq_self {u : JsString} :
    stripScidSrc u = u ↔ ¬ (startsWith u scidPrefix = true ∧ HasLocator u) := by
  rw [stripScidSrc_eq_self_iff, ← carries_src_iff, Option.eq_none_iff_forall_ne_some, not_exists]

/-- A part without a query has no locator. -/
lemma hasLocator_append {pre s : JsString} (hq : question ∉ pre) :
    HasLocator (pre ++ s) ↔ HasLocator s := by
  constructor
  · rintro ⟨pre', src, rest, e, hq', hsrc, hf⟩
    have h : pre <+: pre' := by
      refine List.prefix_of_prefix_length_le (List.prefix_append pre s)
        (e ▸ List.prefix_append _ _) ?_
      by_contra hlt
      -- otherwise the `?` after `pre'` stands inside `pre`
      have hat : (pre ++ s)[pre'.length]? = some question := by simp [e]
      rw [List.getElem?_append_left (by omega)] at hat
      exact hq (List.mem_of_getElem? hat)
    obtain ⟨mid, rfl⟩ := h
    rw [List.append_assoc] at e
    simp only [List.mem_append, not_or] at hq'
    exact ⟨mid, src, rest, List.append_cancel_left e, hq'.2, hsrc, hf⟩
  · rintro ⟨pre', src, rest, rfl, hq', hsrc, hf⟩
    refine ⟨pre ++ pre', src, rest, by simp, ?_, hsrc, hf⟩
    simp only [List.mem_append, not_or]
    exact ⟨hq, hq'⟩

/-- A locator that ends before the fragment is the locator of the whole reference. -/
lemma HasLocator.append {base f : JsString} (h : HasLocator base) (hh : hash ∉ base)
    (hf : IsFragment f) : HasLocator (base ++ f) := by
  obtain ⟨pre, src, rest, rfl, hq, hsrc, hrest⟩ := h
  rcases hrest with rfl | ⟨g, rfl⟩
  · exact ⟨pre, src, f, by simp, hq, hsrc, hf⟩
  · exact absurd (by simp) hh

/-- A locator in a fragment is read as the reference's own. -/
lemma LocatorInFragment.carries_src {r : JsString} (h : LocatorInFragment r) :
    ∃ src, scidSrc r = some src := by
  obtain ⟨e, hf⟩ := splitHead_append_fragment_self r
  refine carries_src_iff.mpr ⟨h.scid, ?_⟩
  rw [← e]
  rcases h.query with hq | hl
  · exact (hasLocator_append hq).mpr h.locator
  · exact hl.append (notMem_splitHead hash r) hf

/-- A `src` before the first `#`: it is removed, and the fragment stays. -/
lemma SrcShape.own {r did src f : JsString} (h : SrcShape r did src f) (hh : hash ∉ did) :
    fragment r = f ∧ fragment (stripScidSrc r) = f ∧
      (scidSrc (stripScidSrc r) = none ↔ ¬ LocatorInFragment r) := by
  have hbase : hash ∉ did ++ question :: (js "src=" ++ src) := by
    simp only [List.mem_append, List.mem_cons, not_or]
    exact ⟨hh, by decide, by decide, h.noHash⟩
  have e : r = (did ++ question :: (js "src=" ++ src)) ++ f := by simp [h.eq]
  have hfrag : fragment r = f := by
    rw [e]
    exact fragment_append hbase h.isFragment
  refine ⟨hfrag, ?_, ?_⟩
  · rw [h.strip]
    exact fragment_append hh h.isFragment
  · have hscid : startsWith (stripScidSrc r) scidPrefix = true := by
      rw [h.strip, startsWith_iff]
      exact (startsWith_iff.mp h.scid).trans (List.prefix_append _ _)
    -- the DID URL before its fragment has a locator, whatever the fragment holds
    have hown : HasLocator (splitHead hash r) := by
      rw [e, splitHead_append_fragment hbase h.isFragment]
      exact ⟨did, src, [], by simp, h.noQuery, ⟨h.nonempty, h.noAmp, h.noHash⟩, .inl rfl⟩
    rw [Option.eq_none_iff_forall_ne_some, ← not_exists, not_iff_not, carries_src_iff, h.strip,
      hasLocator_append h.noQuery]
    rw [h.strip] at hscid
    constructor
    · rintro ⟨-, hloc⟩
      refine ⟨(carries_src_iff.mp ⟨src, scidSrc_eq_some.mpr ⟨did, f, h⟩⟩).1, ?_, .inr hown⟩
      rwa [hfrag]
    · intro hdirty
      exact ⟨hscid, hfrag ▸ hdirty.locator⟩

/-- A `src` after the first `#`: removing it changes the fragment. -/
lemma SrcShape.inFragment {r did src f : JsString} (h : SrcShape r did src f) (hh : hash ∈ did) :
    fragment (stripScidSrc r) ≠ fragment r ∧ LocatorInFragment r := by
  obtain ⟨base, g, rfl, hbase⟩ := List.eq_append_cons_of_mem hh
  have hq := h.noQuery
  simp only [List.mem_append, List.mem_cons, not_or] at hq
  have e : r = base ++ (hash :: (g ++ question :: (js "src=" ++ src ++ f))) := by
    rw [h.eq]
    simp
  have hfrag : fragment r = hash :: (g ++ question :: (js "src=" ++ src ++ f)) := by
    rw [e]
    exact fragment_append hbase (.inr ⟨_, rfl⟩)
  have hstrip : fragment (stripScidSrc r) = hash :: (g ++ f) := by
    rw [h.strip, List.append_assoc]
    exact fragment_append hbase (.inr ⟨_, rfl⟩)
  constructor
  · rw [hfrag, hstrip]
    intro heq
    have hlen := congrArg List.length heq
    simp only [List.length_append, List.length_cons] at hlen
    omega
  · refine ⟨(carries_src_iff.mp ⟨src, scidSrc_eq_some.mpr ⟨_, f, h⟩⟩).1, ?_, .inl ?_⟩
    · rw [hfrag]
      refine ⟨hash :: g, src, f, by simp, ?_, ⟨h.nonempty, h.noAmp, h.noHash⟩, h.isFragment⟩
      simp only [List.mem_cons, not_or]
      exact hq.2
    · rw [e, splitHead_append_cons _ hbase]
      exact hq.1

/-! ## What stripping keeps -/

/-- Stripping keeps the fragment and leaves nothing to strip, unless a locator stands in the
fragment. -/
lemma strip_of_noLocator {r : JsString} (h : ¬ LocatorInFragment r) :
    stripScidSrc (stripScidSrc r) = stripScidSrc r ∧ fragment (stripScidSrc r) = fragment r := by
  rcases stripScidSrc_cases r with ⟨e, -⟩ | ⟨did, src, f, hs, -⟩
  · rw [e, e]
    exact ⟨rfl, rfl⟩
  · by_cases hh : hash ∈ did
    · exact absurd (hs.inFragment hh).2 h
    · obtain ⟨hr, hstrip, hnone⟩ := hs.own hh
      exact ⟨stripScidSrc_eq_self_iff.mpr (hnone.mpr h), hstrip.trans hr.symm⟩

/-- A locator in the fragment breaks one of the two. -/
lemma noLocator_of_strip {r : JsString} (hidem : stripScidSrc (stripScidSrc r) = stripScidSrc r)
    (hfrag : fragment (stripScidSrc r) = fragment r) : ¬ LocatorInFragment r := by
  intro h
  obtain ⟨src, hsrc⟩ := h.carries_src
  obtain ⟨did, f, hs⟩ := scidSrc_eq_some.mp hsrc
  by_cases hh : hash ∈ did
  · exact (hs.inFragment hh).1 hfrag
  · exact ((hs.own hh).2.2.mp (stripScidSrc_eq_self_iff.mp hidem)) h

/-! ## The identity of a reference -/

/-- A reference without a fragment keeps a locator that is before the fragment of a longer one. -/
lemma hasLocator_of_append {base f : JsString} (h : HasLocator (base ++ f)) (hq : question ∈ base)
    (hh : hash ∉ base) (hf : IsFragment f) : HasLocator base := by
  obtain ⟨pre, src, rest, e, hpre, hsrc, hrest⟩ := h
  have hnh : hash ∉ question :: (js "src=" ++ src) := by
    simp only [List.mem_cons, List.mem_append, not_or]
    exact ⟨by decide, by decide, hsrc.noHash⟩
  -- the `?` of the locator is the first one, so it stands in the base
  have hprefix : pre <+: base := by
    refine List.prefix_of_prefix_length_le (e ▸ List.prefix_append _ _) (List.prefix_append base f) ?_
    by_contra hlt
    have hsub : base <+: pre :=
      List.prefix_of_prefix_length_le (List.prefix_append base f) (e ▸ List.prefix_append _ _)
        (by omega)
    exact hpre (hsub.subset hq)
  obtain ⟨mid, rfl⟩ := hprefix
  rw [List.append_assoc] at e
  have e' : mid ++ f = question :: (js "src=" ++ src) ++ rest := by
    simpa using List.append_cancel_left e
  have hmid : hash ∉ mid := fun hm => hh (List.mem_append_right pre hm)
  -- both sides are cut at their first `#`
  have hcut := (splitHead_append_fragment hmid hf).symm.trans
    ((congrArg (splitHead hash) e').trans (splitHead_append_fragment hnh hrest))
  exact ⟨pre, src, [], by rw [hcut]; simp, hpre, hsrc, .inl rfl⟩

/-- The identity of a reference stands before the fragment of its stripped form. -/
lemma splitHead_stripScidSrc (r : JsString) : splitHead hash (stripScidSrc r) = scidIdentity r := by
  obtain ⟨e, hf⟩ := splitHead_append_fragment_self r
  have hh := notMem_splitHead hash r
  rcases stripScidSrc_cases r with ⟨hself, -⟩ | ⟨did, src, f, hs, hstrip⟩
  · -- nothing is stripped, so nothing is stripped of the head
    rw [hself, scidIdentity, eq_comm, stripScidSrc_eq_self]
    rintro ⟨hscid, hl⟩
    refine stripScidSrc_eq_self.mp hself ⟨?_, e ▸ hl.append hh hf⟩
    rw [startsWith_iff] at hscid ⊢
    exact hscid.trans (splitHead_isPrefix hash r)
  · rw [hstrip]
    by_cases hd : hash ∈ did
    · -- the locator is in the fragment
      obtain ⟨base, g, rfl, hbase⟩ := List.eq_append_cons_of_mem hd
      have hq : question ∉ base := fun hq => hs.noQuery (List.mem_append_left _ hq)
      have hhead : splitHead hash r = base := by
        rw [hs.eq, List.append_assoc]
        exact splitHead_append_cons _ hbase
      rw [scidIdentity, hhead, stripScidSrc_of_noQuery hq, List.append_assoc]
      exact splitHead_append_cons _ hbase
    · have hbase : hash ∉ did ++ question :: (js "src=" ++ src) := by
        simp only [List.mem_append, List.mem_cons, not_or]
        exact ⟨hd, by decide, by decide, hs.noHash⟩
      have hhead : splitHead hash r = did ++ question :: (js "src=" ++ src) := by
        rw [hs.eq]
        simpa using splitHead_append_fragment hbase hs.isFragment
      have hshape : SrcShape (did ++ question :: (js "src=" ++ src)) did src [] :=
        ⟨by simp, hs.scid, hs.noQuery, hs.nonempty, hs.noAmp, hs.noHash, .inl rfl⟩
      rw [splitHead_append_fragment hd hs.isFragment, scidIdentity, hhead, hshape.strip,
        List.append_nil]

/-- References that name the same thing have one identity. -/
lemma scidIdentity_congr {a b : JsString} (h : sameReference a b = true) :
    scidIdentity a = scidIdentity b := by
  rw [← splitHead_stripScidSrc, sameReference_iff.mp h, splitHead_stripScidSrc]

/-- A fragment without a locator stays when the DID URL before it is stripped. -/
lemma stripScidSrc_append {base f : JsString} (hh : hash ∉ base) (hf : IsFragment f)
    (hloc : ¬ LocatorInFragment (stripScidSrc base ++ f)) :
    stripScidSrc (base ++ f) = stripScidSrc base ++ f := by
  rcases stripScidSrc_cases base with ⟨hself, -⟩ | ⟨did, src, rest, hs, hstrip⟩
  · rw [hself] at hloc ⊢
    rw [stripScidSrc_eq_self]
    rintro ⟨hscid, hl⟩
    have hbase : startsWith base scidPrefix = true := by
      have := startsWith_splitHead (c := hash) hscid (by decide)
      rwa [splitHead_append_fragment hh hf] at this
    by_cases hq : question ∈ base
    · exact stripScidSrc_eq_self.mp hself ⟨hbase, hasLocator_of_append hl hq hh hf⟩
    · refine hloc ⟨hscid, ?_, .inl ?_⟩
      · rw [fragment_append hh hf]
        exact (hasLocator_append hq).mp hl
      · rwa [splitHead_append_fragment hh hf]
  · obtain rfl := hs.fragment_nil hh
    have hshape : SrcShape (base ++ f) did src f :=
      ⟨by simp [hs.eq], hs.scid, hs.noQuery, hs.nonempty, hs.noAmp, hs.noHash, hf⟩
    rw [hshape.strip, hstrip, List.append_nil]

/-- `stripScidSrc` is idempotent and only removes the locator, exactly on the references without a
locator in their fragment; among those, references that name the same thing have one fragment. -/
theorem stripScidSrc_keeps_fragment_iff (r : JsString) :
    (stripScidSrc (stripScidSrc r) = stripScidSrc r ∧ fragment (stripScidSrc r) = fragment r ∧
        sameReference r (stripScidSrc r) = true ∧
        ∀ b, ¬ LocatorInFragment b → sameReference r b = true → fragment r = fragment b) ↔
      ¬ LocatorInFragment r := by
  constructor
  · rintro ⟨hidem, hfrag, -, -⟩
    exact noLocator_of_strip hidem hfrag
  · intro hr
    obtain ⟨hidem, hfrag⟩ := strip_of_noLocator hr
    refine ⟨hidem, hfrag, sameReference_iff.mpr hidem.symm, ?_⟩
    intro b hb hsame
    have e := sameReference_iff.mp hsame
    calc fragment r = fragment (stripScidSrc r) := hfrag.symm
      _ = fragment (stripScidSrc b) := by rw [e]
      _ = fragment b := (strip_of_noLocator hb).2

/-- A key id that carries a locator before and inside its fragment is not its own stripped form, and
a locator inside the fragment makes two key ids one. -/
theorem stripScidSrc_merges_fragments :
    stripScidSrc (stripScidSrc (js "did:scid:vh:1:Qm?src=a#k?src=b")) ≠
        stripScidSrc (js "did:scid:vh:1:Qm?src=a#k?src=b") ∧
      sameReference (js "did:scid:vh:1:Qm?src=a#k?src=b")
        (stripScidSrc (js "did:scid:vh:1:Qm?src=a#k?src=b")) = false ∧
      fragment (stripScidSrc (js "did:scid:vh:1:Qm#k?src=a")) ≠
        fragment (js "did:scid:vh:1:Qm#k?src=a") ∧
      sameReference (js "did:scid:vh:1:Qm#k?src=a") (js "did:scid:vh:1:Qm#k") = true ∧
      fragment (js "did:scid:vh:1:Qm#k?src=a") ≠ fragment (js "did:scid:vh:1:Qm#k") := by
  decide

end VtiDidcomm
