import VtiDidcomm.Js.String

/-!
# The did:scid `src` locator

The string functions of `did-scid.js` and the identity functions of `unpack.js` over them:
`splitSrc`, `stripScidSrc`, `scidSrc`, `withScidSrc`, `sameReference`, `scidIdentity`, `didOfKid`,
`identityOfKid`. `splitSrc_eq_some` is the shape of a DID URL that carries a `src`; the lemmas after
it read everything off that shape.
-/

namespace VtiDidcomm
open Js

/-- `"#"` -/
def hash : CodeUnit := 0x23
/-- `"?"` -/
def question : CodeUnit := 0x3f
/-- `"&"` -/
def ampersand : CodeUnit := 0x26
/-- `"/"` -/
def slash : CodeUnit := 0x2f
/-- `":"` -/
def colon : CodeUnit := 0x3a

/-- `PREFIX` -/
def scidPrefix : JsString := js "did:scid:"
/-- `VH_PREFIX` -/
def vhPrefix : JsString := js "did:scid:vh:1:"
/-- `WEBVH_PREFIX` -/
def webvhPrefix : JsString := js "did:webvh:"

/-- What stands before the first `#` of `rest`, and what stands from it on. -/
def cutHash (rest : JsString) : JsString × JsString :=
  match indexOf rest hash with
  | none => (rest, [])
  | some h => (sliceTo rest h, sliceFrom rest h)

/-- The DID, `src` and fragment of a did:scid DID URL whose only query parameter is `src`. The
fragment keeps its leading `#`. -/
def splitSrc (didUrl : JsString) : Option (JsString × JsString × JsString) :=
  if !startsWith didUrl scidPrefix then none
  else
    match indexOf didUrl question with
    | none => none
    | some q =>
      let did := sliceTo didUrl q
      let rest := sliceFrom didUrl (q + 1)
      let query := (cutHash rest).1
      let fragment := (cutHash rest).2
      if !startsWith query (js "src=") then none
      else
        let src := sliceFrom query 4
        if src = [] || includes src ampersand then none else some (did, src, fragment)

/-- Removes the `src` locator from a did:scid DID URL, keeping any fragment. -/
def stripScidSrc (didUrl : JsString) : JsString :=
  match splitSrc didUrl with
  | some (did, _, fragment) => did ++ fragment
  | none => didUrl

/-- The `src` locator of a did:scid DID URL, if it carries one. -/
def scidSrc (didUrl : JsString) : Option JsString :=
  (splitSrc didUrl).map fun parts => parts.2.1

/-- Gives a bare did:scid reference the locator `src`, before any fragment. -/
def withScidSrc (reference src : JsString) : JsString :=
  if !startsWith reference scidPrefix || includes reference question || includes reference slash then
    reference
  else
    match indexOf reference hash with
    | none => reference ++ js "?src=" ++ src
    | some h => sliceTo reference h ++ js "?src=" ++ src ++ sliceFrom reference h

/-- Whether two references name the same thing, ignoring a did:scid `src`. -/
def sameReference (a b : JsString) : Bool := a = b || stripScidSrc a = stripScidSrc b

/-- The identity a reference names: no fragment, and no did:scid `src`. -/
def scidIdentity (reference : JsString) : JsString := stripScidSrc (splitHead hash reference)

/-- The DID a key id belongs to: the DID URL with its fragment removed. -/
def didOfKid (kid : JsString) : JsString := splitHead hash kid

/-- The identity a key id belongs to. -/
def identityOfKid (kid : JsString) : JsString := scidIdentity kid

/-! ## The shape of a `src`-bearing DID URL -/

/-- A fragment is empty or starts with its `#`. -/
def IsFragment (f : JsString) : Prop := f = [] ∨ ∃ g, f = hash :: g

/-- `u` is `did?src=<src><fragment>` with nothing in `did` or `src` that would split it elsewhere. -/
structure SrcShape (u did src fragment : JsString) : Prop where
  eq : u = did ++ question :: (js "src=" ++ src ++ fragment)
  scid : startsWith did scidPrefix = true
  noQuery : question ∉ did
  nonempty : src ≠ []
  noAmp : ampersand ∉ src
  noHash : hash ∉ src
  isFragment : IsFragment fragment

/-- A text is cut at its first `#`. -/
lemma cutHash_spec (rest : JsString) :
    rest = (cutHash rest).1 ++ (cutHash rest).2 ∧ hash ∉ (cutHash rest).1 ∧
      IsFragment (cutHash rest).2 := by
  cases h : indexOf rest hash with
  | none => simpa [cutHash, h, IsFragment] using indexOf_eq_none.mp h
  | some i =>
    obtain ⟨pre, post, rfl, hn, rfl⟩ := indexOf_eq_some.mp h
    simp only [cutHash, h, sliceTo_append, sliceFrom_append]
    exact ⟨trivial, hn, .inr ⟨post, rfl⟩⟩

/-- The cut is where the fragment starts. -/
lemma cutHash_append {query fragment : JsString} (hq : hash ∉ query) (hf : IsFragment fragment) :
    cutHash (query ++ fragment) = (query, fragment) := by
  obtain rfl | ⟨g, rfl⟩ := hf
  · simp [cutHash, indexOf_eq_none.mpr hq]
  · simp [cutHash, indexOf_append hq]

/-- `splitSrc` succeeds exactly on the strings of that shape. -/
lemma splitSrc_eq_some {u did src fragment : JsString} :
    splitSrc u = some (did, src, fragment) ↔ SrcShape u did src fragment := by
  constructor
  · intro h
    unfold splitSrc at h
    split at h
    · cases h
    rename_i hpre
    -- the DID ends at the first `?`, and the `src` at the fragment
    split at h
    · cases h
    rename_i q hq
    obtain ⟨d, rest, rfl, hd, rfl⟩ := indexOf_eq_some.mp hq
    simp only [sliceTo_append, sliceFrom_append_cons] at h
    obtain ⟨e, hnq, hfrag⟩ := cutHash_spec rest
    split at h
    · cases h
    rename_i hsrc
    split at h
    · cases h
    rename_i hamp
    simp only [Option.some.injEq, Prod.mk.injEq] at h
    obtain ⟨rfl, rfl, rfl⟩ := h
    simp only [Bool.not_eq_true', Bool.not_eq_false, Bool.or_eq_true, decide_eq_true_eq, not_or,
      Bool.not_eq_true, includes_eq_false] at hpre hsrc hamp
    obtain ⟨t, ht⟩ := startsWith_iff.mp hsrc
    have hdrop : sliceFrom (cutHash rest).1 4 = t := by
      rw [← ht]; exact sliceFrom_append (js "src=") t
    refine ⟨?_, ?_, hd, hamp.1, hamp.2, ?_, hfrag⟩
    · rw [hdrop, ht, ← e]
    · have := startsWith_splitHead (c := question) hpre (by decide)
      rwa [splitHead_append_cons _ hd] at this
    · intro hmem
      exact hnq (List.mem_of_mem_drop hmem)
  · rintro ⟨rfl, hscid, hd, hne, hamp, hh, hfrag⟩
    have hpre : startsWith (did ++ question :: (js "src=" ++ src ++ fragment)) scidPrefix = true := by
      rw [startsWith_iff] at hscid ⊢
      exact hscid.trans (List.prefix_append _ _)
    have hnq : hash ∉ js "src=" ++ src := by
      simp only [List.mem_append, not_or]
      exact ⟨by decide, hh⟩
    have hdrop : sliceFrom (js "src=" ++ src) 4 = src := sliceFrom_append (js "src=") src
    simp [splitSrc, hpre, indexOf_append hd, -List.append_assoc, cutHash_append hnq hfrag, hdrop, hne,
      includes_eq_false.mpr hamp]

/-! ## What the operations do to that shape -/

/-- Stripping a locator leaves the DID and the fragment. -/
lemma SrcShape.strip {u did src fragment : JsString} (h : SrcShape u did src fragment) :
    stripScidSrc u = did ++ fragment := by
  simp [stripScidSrc, splitSrc_eq_some.mpr h]

/-- A `src` found in a DID URL comes with the rest of the shape. -/
lemma scidSrc_eq_some {u src : JsString} :
    scidSrc u = some src ↔ ∃ did fragment, SrcShape u did src fragment := by
  constructor
  · intro h
    obtain ⟨⟨did, s, fragment⟩, hs, rfl⟩ := Option.map_eq_some_iff.mp h
    exact ⟨did, fragment, splitSrc_eq_some.mp hs⟩
  · rintro ⟨did, fragment, h⟩
    simp [scidSrc, splitSrc_eq_some.mpr h]

/-- Without a query there is nothing to strip. -/
lemma stripScidSrc_of_noQuery {u : JsString} (h : question ∉ u) : stripScidSrc u = u := by
  unfold stripScidSrc
  split
  · rename_i hs
    rw [(splitSrc_eq_some.mp hs).eq] at h
    exact absurd (by simp) h
  · rfl

/-- Stripping either leaves a string alone or drops the `src` from its shape. -/
lemma stripScidSrc_cases (u : JsString) :
    (stripScidSrc u = u ∧ scidSrc u = none) ∨
      ∃ did src fragment, SrcShape u did src fragment ∧ stripScidSrc u = did ++ fragment := by
  cases h : splitSrc u with
  | none => exact .inl ⟨by simp [stripScidSrc, h], by simp [scidSrc, h]⟩
  | some parts =>
    obtain ⟨did, src, fragment⟩ := parts
    have hs := splitSrc_eq_some.mp h
    exact .inr ⟨did, src, fragment, hs, hs.strip⟩

/-- A reference without a `#` has no fragment. -/
lemma SrcShape.fragment_nil {u did src fragment : JsString} (h : SrcShape u did src fragment)
    (hu : hash ∉ u) : fragment = [] := by
  obtain rfl | ⟨f, rfl⟩ := h.isFragment
  · rfl
  · rw [h.eq] at hu
    exact absurd (by simp) hu

/-- The identity is a prefix of the reference. -/
lemma scidIdentity_isPrefix (r : JsString) : scidIdentity r <+: r := by
  refine List.IsPrefix.trans ?_ (splitHead_isPrefix hash r)
  obtain ⟨e, -⟩ | ⟨did, src, fragment, h, e⟩ := stripScidSrc_cases (splitHead hash r)
  · rw [scidIdentity, e]
  · have hf := h.fragment_nil (notMem_splitHead hash r)
    subst hf
    rw [scidIdentity, e, List.append_nil]
    conv_rhs => rw [h.eq]
    exact List.prefix_append _ _

/-- An identity has no fragment. -/
lemma hash_notMem_scidIdentity (r : JsString) : hash ∉ scidIdentity r := by
  obtain ⟨e, -⟩ | ⟨did, src, fragment, h, e⟩ := stripScidSrc_cases (splitHead hash r)
  · rw [scidIdentity, e]
    exact notMem_splitHead hash r
  · have hf := h.fragment_nil (notMem_splitHead hash r)
    have hu := notMem_splitHead hash r
    rw [h.eq] at hu
    subst hf
    rw [scidIdentity, e, List.append_nil]
    intro hm
    exact hu (List.mem_append_left _ hm)

/-- A prefix with neither `#` nor `?` passes from a reference to its identity. -/
lemma startsWith_scidIdentity {r p : JsString} (h : startsWith r p = true) (hh : hash ∉ p)
    (hq : question ∉ p) : startsWith (scidIdentity r) p = true := by
  have hhead := startsWith_splitHead h hh
  obtain ⟨e, -⟩ | ⟨did, src, fragment, hs, e⟩ := stripScidSrc_cases (splitHead hash r)
  · rwa [scidIdentity, e]
  · have hdid : startsWith did p = true := by
      have := startsWith_splitHead (c := question) hhead hq
      rwa [hs.eq, splitHead_append_cons _ hs.noQuery] at this
    rw [scidIdentity, e]
    rw [startsWith_iff] at hdid ⊢
    exact hdid.trans (List.prefix_append _ _)

/-- Stripping a reference without a fragment leaves nothing to strip. -/
lemma scidIdentity_idem (r : JsString) : scidIdentity (scidIdentity r) = scidIdentity r := by
  have hh := hash_notMem_scidIdentity r
  rw [scidIdentity, splitHead_of_notMem hh]
  obtain ⟨e, hn⟩ | ⟨did, src, fragment, h, e⟩ := stripScidSrc_cases (splitHead hash r)
  · rw [scidIdentity, e, e]
  · have hf := h.fragment_nil (notMem_splitHead hash r)
    subst hf
    rw [scidIdentity, e, List.append_nil]
    exact stripScidSrc_of_noQuery h.noQuery

/-- A reference starts as its identity does. -/
lemma startsWith_of_scidIdentity {r p : JsString} (h : startsWith (scidIdentity r) p = true) :
    startsWith r p = true := by
  rw [startsWith_iff] at h ⊢
  exact h.trans (scidIdentity_isPrefix r)

/-- A reference is the same as itself. -/
lemma sameReference_refl (r : JsString) : sameReference r r = true := by simp [sameReference]

/-- References are the same when they are stripped to one text. -/
lemma sameReference_iff {a b : JsString} :
    sameReference a b = true ↔ stripScidSrc a = stripScidSrc b := by
  simp only [sameReference, Bool.or_eq_true, decide_eq_true_eq, or_iff_right_iff_imp]
  rintro rfl
  rfl

/-- A `src` that `scidSrc` can return: what `withScidSrc` may write without changing the shape. -/
structure IsSrc (src : JsString) : Prop where
  nonempty : src ≠ []
  noAmp : ampersand ∉ src
  noHash : hash ∉ src

/-- A locator that is read is one that can be written. -/
lemma isSrc_of_scidSrc {u src : JsString} (h : scidSrc u = some src) : IsSrc src := by
  obtain ⟨did, fragment, hs⟩ := scidSrc_eq_some.mp h
  exact ⟨hs.nonempty, hs.noAmp, hs.noHash⟩

/-- `withScidSrc` either returns the reference or gives it the shape with that `src`. -/
lemma withScidSrc_cases (r : JsString) {src : JsString} (h : IsSrc src) :
    withScidSrc r src = r ∨
      ∃ did fragment, r = did ++ fragment ∧ hash ∉ did ∧
        SrcShape (withScidSrc r src) did src fragment := by
  unfold withScidSrc
  split
  · exact .inl rfl
  rename_i hc
  simp only [Bool.or_eq_true, Bool.not_eq_true', not_or, Bool.not_eq_false, Bool.not_eq_true,
    includes_eq_false] at hc
  obtain ⟨⟨hscid, hq⟩, -⟩ := hc
  right
  cases hi : indexOf r hash with
  | none =>
    refine ⟨r, [], by simp, indexOf_eq_none.mp hi, ?_⟩
    exact ⟨by simp [show js "?src=" = question :: js "src=" from rfl], hscid, hq, h.nonempty,
      h.noAmp, h.noHash, .inl rfl⟩
  | some i =>
    obtain ⟨pre, post, rfl, hn, rfl⟩ := indexOf_eq_some.mp hi
    have hscid' : startsWith pre scidPrefix = true := by
      have := startsWith_splitHead (c := hash) hscid (by decide)
      rwa [splitHead_append_cons _ hn] at this
    simp only [List.mem_append, not_or] at hq
    refine ⟨pre, hash :: post, rfl, hn, ?_⟩
    exact ⟨by simp [show js "?src=" = question :: js "src=" from rfl], hscid', hq.1, h.nonempty,
      h.noAmp, h.noHash, .inr ⟨post, rfl⟩⟩

/-- Writing a locator keeps the reference. -/
lemma sameReference_withScidSrc (r : JsString) {src : JsString} (h : IsSrc src) :
    sameReference (withScidSrc r src) r = true := by
  obtain e | ⟨did, fragment, e, hd, hs⟩ := withScidSrc_cases r h
  · rw [e]
    exact sameReference_refl r
  · have hq : question ∉ r := by
      intro hq
      have : withScidSrc r src = r := by
        simp [withScidSrc, includes_iff.mpr hq]
      have hlen := congrArg List.length hs.eq
      rw [this, e] at hlen
      simp only [List.length_append, List.length_cons] at hlen
      omega
    rw [sameReference_iff, hs.strip, stripScidSrc_of_noQuery hq, e]

/-- Writing a locator keeps the identity. -/
lemma scidIdentity_withScidSrc (r : JsString) {src : JsString} (h : IsSrc src) :
    scidIdentity (withScidSrc r src) = scidIdentity r := by
  obtain e | ⟨did, fragment, e, hd, hs⟩ := withScidSrc_cases r h
  · rw [e]
  · have hcut : splitHead hash (withScidSrc r src) = did ++ question :: (js "src=" ++ src) := by
      have hnh : hash ∉ did ++ question :: (js "src=" ++ src) := by
        simp only [List.mem_append, List.mem_cons, not_or]
        exact ⟨hd, by decide, by decide, h.noHash⟩
      rw [hs.eq]
      obtain rfl | ⟨f, rfl⟩ := hs.isFragment
      · rw [List.append_nil]
        exact splitHead_of_notMem hnh
      · have := splitHead_append_cons f hnh
        simpa using this
    have hr : splitHead hash r = did := by
      rw [e]
      obtain rfl | ⟨f, rfl⟩ := hs.isFragment
      · rw [List.append_nil]; exact splitHead_of_notMem hd
      · exact splitHead_append_cons f hd
    have hshape : SrcShape (did ++ question :: (js "src=" ++ src)) did src [] :=
      ⟨by simp, hs.scid, hs.noQuery, hs.nonempty, hs.noAmp, hs.noHash, .inl rfl⟩
    rw [scidIdentity, hcut, hshape.strip, scidIdentity, hr, stripScidSrc_of_noQuery hs.noQuery,
      List.append_nil]

end VtiDidcomm
