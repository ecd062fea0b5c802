import VtiDidcomm.Did.ScidResolve

/-!
# did:webvh DIDs as did:scid DID URLs, and back

`webvhToScidDidUrl` writes every `:` of the location as `/`; `scidToWebvhDid` reads a `src` back as
a location. A location comes back as it was exactly when no part of it is empty and its host does
not start with `%` (`webvhLocation_replaceAll`).
-/

namespace VtiDidcomm
open Js

/-- `did:webvh:<scid>:<host>[:<segment>…]` -/
def webvhDidOf (scid host : JsString) (segments : List JsString) : JsString :=
  webvhPrefix ++ scid ++ colon :: (host ++ segments.flatMap (colon :: ·))

/-- What a DID URL can carry as its SCID. -/
structure IsScid (scid : JsString) : Prop where
  nonempty : scid ≠ []
  noColon : colon ∉ scid
  noSlash : slash ∉ scid
  noQuery : question ∉ scid
  noHash : hash ∉ scid

/-- A part of a did:webvh DID: not empty, and without `:`, `/`, `?`, `#` and `&`. -/
structure IsPart (part : JsString) : Prop extends IsScid part where
  noAmp : ampersand ∉ part

/-- `scidToWebvhDid(webvhToScidDidUrl(w))` -/
def thereAndBack (w : JsString) : Option JsString := (webvhToScidDidUrl w).bind scidToWebvhDid

/-- The text of a `src`, its scheme and trailing slashes removed. -/
def sourceBody (source : JsString) : JsString :=
  trimEnd (if startsWith source (js "https://") then sliceFrom source 8
    else if startsWith source (js "http://") then sliceFrom source 7
    else source) slash

/-- The host and port of a `src`. -/
def sourceHost (source : JsString) : JsString :=
  match indexOf (sourceBody source) slash with
  | none => sourceBody source
  | some i => sliceTo (sourceBody source) i

/-- The path of a `src`. -/
def sourcePath (source : JsString) : JsString :=
  match indexOf (sourceBody source) slash with
  | none => []
  | some i => trimEnd (sliceFrom (sourceBody source) (i + 1)) slash

/-- The `src` of a DID URL: what follows its first `?src=`. -/
def sourceText (u : JsString) : JsString :=
  match indexOfStr (js "?src=") u with
  | none => []
  | some i => sliceFrom u (i + 5)

/-- The path of `source` has nothing between two of its separators `/` and `:`, or nothing before
the first or after the last of them. -/
def HasEmptyPart (source : JsString) : Prop :=
  sourcePath source ≠ [] ∧ [] ∈ (split colon (sourcePath source)).flatMap (split slash)

/-! ## The parts of a location -/

/-- A location is made of the host and the path. -/
lemma webvhLocation_parts (source : JsString) :
    webvhLocation source = match webvhHost (sourceHost source) with
      | none => none
      | some host =>
        if host = [] || startsWith host (js "%") then none
        else (webvhPath (sourcePath source)).map (host ++ ·) := rfl

/-- A host without a port is kept. -/
lemma webvhHost_of_noColon {host : JsString} (h : colon ∉ host) : webvhHost host = some host := by
  simp [webvhHost, indexOf_eq_none.mpr h]

/-- A port text is digits, so an encoded host holds no `:` and nothing else that was not in it. -/
lemma webvhHost_eq_some {host h : JsString} (e : webvhHost host = some h) :
    colon ∉ h ∧ ∀ c, c ∉ host → c ∉ js "%3A" → c ∉ h := by
  unfold webvhHost at e
  split at e
  · rename_i hn
    cases e
    exact ⟨indexOf_eq_none.mp hn, fun c hc _ => hc⟩
  · rename_i i hi
    obtain ⟨pre, port, rfl, hpre, rfl⟩ := indexOf_eq_some.mp hi
    simp only [sliceTo_append, sliceFrom_append_cons] at e
    split at e
    · cases e
    rename_i hport
    cases e
    simp only [Bool.or_eq_true, Bool.not_eq_true', not_or, Bool.not_eq_false] at hport
    have hdigits : ∀ c ∈ portDigits port, isDigit c = true :=
      List.all_eq_true.mp (Bool.and_eq_true_iff.mp hport.1).2
    have hcolon : colon ∉ port := by
      intro hm
      unfold portDigits at hdigits
      split at hdigits
      · rename_i hplus
        obtain ⟨t, rfl⟩ := startsWith_iff.mp hplus
        rw [show js "+" = [0x2B] from rfl] at hm hdigits
        rcases List.mem_cons.mp hm with hc | ht
        · exact absurd hc (by decide)
        · exact absurd (hdigits colon ht) (by decide)
      · exact absurd (hdigits colon hm) (by decide)
    constructor
    · simp only [List.mem_append, not_or]
      exact ⟨⟨hpre, by decide⟩, hcolon⟩
    · intro c hc hlit
      simp only [List.mem_append, List.mem_cons, not_or] at hc ⊢
      exact ⟨⟨hc.1, hlit⟩, hc.2.2⟩

/-- A path that is taken has no empty segment. -/
lemma webvhPath_eq_some {path p : JsString} (e : webvhPath path = some p) :
    (path = [] ∧ p = []) ∨
      (path ≠ [] ∧ [] ∉ split slash path ∧ p = colon :: replaceAll path slash colon) := by
  unfold webvhPath at e
  split at e
  · rename_i hp
    cases e
    exact .inl ⟨hp, rfl⟩
  rename_i hp
  split at e
  · cases e
  rename_i hseg
  cases e
  refine .inr ⟨hp, fun hm => hseg ?_, rfl⟩
  exact List.any_eq_true.mpr ⟨[], hm, by simp⟩

/-- A location that a `src` gives: its host, and its path when there is one. -/
lemma webvhLocation_eq_some {source location : JsString} (e : webvhLocation source = some location) :
    ∃ host, webvhHost (sourceHost source) = some host ∧ host ≠ [] ∧
      startsWith host (js "%") = false ∧
      ((sourcePath source = [] ∧ location = host) ∨
        (sourcePath source ≠ [] ∧ [] ∉ split slash (sourcePath source) ∧
          location = host ++ colon :: replaceAll (sourcePath source) slash colon)) := by
  rw [webvhLocation_parts] at e
  split at e
  · cases e
  rename_i host hhost
  split at e
  · cases e
  rename_i hc
  simp only [Bool.or_eq_true, decide_eq_true_eq, not_or, Bool.not_eq_true] at hc
  obtain ⟨p, hp, rfl⟩ := Option.map_eq_some_iff.mp e
  refine ⟨host, hhost, hc.1, hc.2, ?_⟩
  rcases webvhPath_eq_some hp with ⟨hnil, rfl⟩ | ⟨hne, hseg, rfl⟩
  · exact .inl ⟨hnil, by simp⟩
  · exact .inr ⟨hne, hseg, rfl⟩

/-! ## Where the characters of a location come from -/

/-- What does not occur in a source does not occur in its body. -/
lemma notMem_sourceBody {source : JsString} {c : CodeUnit} (h : c ∉ source) :
    c ∉ sourceBody source := by
  intro hm
  have hm' := (List.rdropWhile_prefix _ _).subset hm
  split at hm'
  · exact h (List.mem_of_mem_drop hm')
  split at hm'
  · exact h (List.mem_of_mem_drop hm')
  · exact h hm'

/-- What does not occur in a source does not occur in its host. -/
lemma notMem_sourceHost {source : JsString} {c : CodeUnit} (h : c ∉ source) :
    c ∉ sourceHost source := by
  unfold sourceHost
  split
  · exact notMem_sourceBody h
  · exact fun hm => notMem_sourceBody h (List.mem_of_mem_take hm)

/-- What does not occur in a source does not occur in its path. -/
lemma notMem_sourcePath {source : JsString} {c : CodeUnit} (h : c ∉ source) :
    c ∉ sourcePath source := by
  unfold sourcePath
  split
  · exact List.not_mem_nil
  · exact fun hm => notMem_sourceBody h
      (List.mem_of_mem_drop ((List.rdropWhile_prefix _ _).subset hm))

/-- The host ends at the first slash. -/
lemma slash_notMem_sourceHost (source : JsString) : slash ∉ sourceHost source := by
  unfold sourceHost
  split
  · rename_i hn
    exact indexOf_eq_none.mp hn
  · rename_i i hi
    obtain ⟨pre, post, e, hpre, rfl⟩ := indexOf_eq_some.mp hi
    rw [e, sliceTo_append]
    exact hpre

/-- A location holds no `/`, and no other character its `src` does not hold, but those of `%3A`. -/
lemma notMem_webvhLocation {source location : JsString} (e : webvhLocation source = some location) :
    slash ∉ location ∧
      ∀ c, c ∉ source → c ∉ js "%3A" → c ≠ colon → c ∉ location := by
  obtain ⟨host, hhost, -, -, ⟨-, rfl⟩ | ⟨-, -, rfl⟩⟩ := webvhLocation_eq_some e
  · have hchars := (webvhHost_eq_some hhost).2
    exact ⟨hchars slash (slash_notMem_sourceHost source) (by decide),
      fun c hc hlit _ => hchars c (notMem_sourceHost hc) hlit⟩
  · have hchars := (webvhHost_eq_some hhost).2
    constructor
    · simp only [List.mem_append, List.mem_cons, not_or]
      refine ⟨hchars slash (slash_notMem_sourceHost source) (by decide), by decide, ?_⟩
      intro hm
      obtain ⟨u, -, hu⟩ := List.mem_map.mp hm
      split at hu
      · exact absurd hu (by decide)
      · contradiction
    · intro c hc hlit hne
      simp only [List.mem_append, List.mem_cons, not_or]
      exact ⟨hchars c (notMem_sourceHost hc) hlit, hne,
        notMem_replaceAll (notMem_sourcePath hc) hne⟩

/-! ## A location written as a `src` and read back -/

/-- A text starts with a percent sign when its host does. -/
lemma startsWith_percent_append {host : JsString} (rest : JsString) (h : host ≠ []) :
    startsWith (host ++ rest) (js "%") = startsWith host (js "%") := by
  cases host with
  | nil => exact absurd rfl h
  | cons c host =>
    rw [show js "%" = [0x25] from rfl]
    simp [startsWith, List.isPrefixOf]

/-- The parts of a location. -/
lemma split_location {host path : JsString} (hhost : colon ∉ host) :
    split colon (host ++ colon :: replaceAll path slash colon)
      = host :: (split colon path).flatMap (split slash) := by
  rw [split_append_cons _ hhost, split_replaceAll]

/-- A source without a scheme is its own body, without the slashes at its end. -/
lemma sourceBody_of_noColon {source : JsString} (h : colon ∉ source) :
    sourceBody source = trimEnd source slash := by
  have hscheme (p : JsString) (hp : colon ∈ p) : startsWith source p = false := by
    rw [Bool.eq_false_iff]
    intro hs
    exact h ((startsWith_iff.mp hs).subset hp)
  rw [sourceBody, hscheme (js "https://") (by decide), hscheme (js "http://") (by decide)]
  simp

/-- A host alone is the location that it is written as. -/
lemma webvhLocation_host {host : JsString} (hcolon : colon ∉ host) (hslash : slash ∉ host)
    (hne : host ≠ []) (hpct : startsWith host (js "%") = false) :
    webvhLocation host = some host := by
  have hbody : sourceBody host = host := by
    rw [sourceBody_of_noColon hcolon, trimEnd_of_notMem hslash]
  have hi : indexOf host slash = none := indexOf_eq_none.mpr hslash
  have hhost : sourceHost host = host := by simp [sourceHost, hbody, hi]
  have hpath : sourcePath host = [] := by simp [sourcePath, hbody, hi]
  rw [webvhLocation_parts, hhost, hpath, webvhHost_of_noColon hcolon]
  simp [hne, hpct, webvhPath]

/-- A host and the segments of a path behind it, none of them empty. -/
lemma webvhLocation_path {host path : JsString} (hcolon : colon ∉ host ++ slash :: path)
    (hslash : slash ∉ host) (hne : host ≠ []) (hsegments : [] ∉ split slash path)
    (hpct : startsWith host (js "%") = false) :
    webvhLocation (host ++ slash :: path) =
      some (host ++ colon :: replaceAll path slash colon) := by
  have hbody : sourceBody (host ++ slash :: path) = host ++ slash :: path := by
    rw [sourceBody_of_noColon hcolon, trimEnd_of_split]
    rw [split_append_cons _ hslash, List.mem_cons, not_or]
    exact ⟨Ne.symm hne, hsegments⟩
  have hi : indexOf (host ++ slash :: path) slash = some host.length := indexOf_append hslash
  have hhost : sourceHost (host ++ slash :: path) = host := by simp [sourceHost, hbody, hi]
  have hpath : sourcePath (host ++ slash :: path) = path := by
    simp [sourcePath, hbody, hi, trimEnd_of_split hsegments]
  have hhostColon : colon ∉ host := fun hm => hcolon (List.mem_append_left _ hm)
  have hpathNe : path ≠ [] := by
    rintro rfl
    exact hsegments (by simp [split])
  have hpathEq : webvhPath path = some (colon :: replaceAll path slash colon) := by
    rw [webvhPath, if_neg hpathNe, if_neg]
    intro hany
    obtain ⟨seg, hm, hseg⟩ := List.any_eq_true.mp hany
    exact hsegments (of_decide_eq_true hseg ▸ hm)
  rw [webvhLocation_parts, hhost, hpath, webvhHost_of_noColon hhostColon]
  simp [hne, hpct, hpathEq]

/-- A location comes back from its `src` exactly when none of its parts is empty and its host does
not start with `%`. -/
lemma webvhLocation_replaceAll {location : JsString} (hs : slash ∉ location) :
    webvhLocation (replaceAll location colon slash) = some location ↔
      [] ∉ split colon location ∧ startsWith location (js "%") = false := by
  have hcolon : colon ∉ replaceAll location colon slash := by
    intro hm
    obtain ⟨u, -, hu⟩ := List.mem_map.mp hm
    split at hu
    · exact absurd hu (by decide)
    · contradiction
  have hparts : split slash (replaceAll location colon slash) = split colon location := by
    rw [split_replaceAll, split_of_notMem hs]
    simp
  have hback : replaceAll (replaceAll location colon slash) slash colon = location :=
    replaceAll_replaceAll hs
  generalize hsrc : replaceAll location colon slash = source at hcolon hparts hback ⊢
  constructor
  · intro e
    obtain ⟨host, hhost, hne, hpct, hcase⟩ := webvhLocation_eq_some e
    have hhc := (webvhHost_eq_some hhost).1
    rcases hcase with ⟨-, rfl⟩ | ⟨hpath, hseg, rfl⟩
    · rw [split_of_notMem hhc]
      exact ⟨by simpa using Ne.symm hne, hpct⟩
    · rw [split_location hhc, split_of_notMem (notMem_sourcePath hcolon),
        startsWith_percent_append _ hne]
      refine ⟨?_, hpct⟩
      simp only [List.flatMap_cons, List.flatMap_nil, List.append_nil, List.mem_cons, not_or]
      exact ⟨Ne.symm hne, hseg⟩
  · rintro ⟨hparts', hpct⟩
    rw [← hparts] at hparts'
    -- the source has a path behind its host or not
    cases hi : indexOf source slash with
    | none =>
      have hslash := indexOf_eq_none.mp hi
      have hself : source = location := by rw [← hback, replaceAll_of_notMem hslash]
      subst hself
      rw [split_of_notMem hslash, List.mem_singleton] at hparts'
      exact webvhLocation_host hcolon hslash (Ne.symm hparts') hpct
    | some i =>
      obtain ⟨host, path, rfl, hslash, rfl⟩ := indexOf_eq_some.mp hi
      rw [split_append_cons _ hslash, List.mem_cons, not_or] at hparts'
      have hloc : location = host ++ colon :: replaceAll path slash colon := by
        rw [← hback, replaceAll, List.map_append, List.map_cons, ← replaceAll, ← replaceAll,
          replaceAll_of_notMem hslash]
        simp
      rw [hloc, startsWith_percent_append _ (Ne.symm hparts'.1)] at hpct
      rw [hloc]
      exact webvhLocation_path hcolon hslash (Ne.symm hparts'.1) hparts'.2 hpct

/-! ## The two mappings -/

/-- The did:webvh identifier of a did:scid URL. -/
lemma scidToWebvhDid_eq {scid source : JsString} (h : IsScid scid) (hsq : question ∉ source)
    (hsh : hash ∉ source) (hsa : ampersand ∉ source) :
    scidToWebvhDid (vhPrefix ++ scid ++ js "?src=" ++ source)
      = (webvhLocation source).map fun location => webvhPrefix ++ scid ++ colon :: location := by
  have hpre : startsWith (vhPrefix ++ scid ++ js "?src=" ++ source) vhPrefix = true := by
    rw [List.append_assoc, List.append_assoc]
    exact startsWith_append _ _
  have hslice : sliceFrom (vhPrefix ++ scid ++ js "?src=" ++ source) vhPrefix.length
      = scid ++ js "?src=" ++ source := by
    rw [List.append_assoc, List.append_assoc, sliceFrom_append, List.append_assoc]
  have hcut : cutHash (scid ++ js "?src=" ++ source) = (scid ++ js "?src=" ++ source, []) := by
    rw [cutHash, indexOf_eq_none.mpr]
    simp only [List.mem_append, not_or]
    exact ⟨⟨h.noHash, by decide⟩, hsh⟩
  have hmark : indexOfStr (js "?src=") (scid ++ js "?src=" ++ source) = some scid.length :=
    indexOfStr_append source h.noQuery
  obtain ⟨hscid, hsrc⟩ := slice_src scid source
  have hok : (scid = [] || scid.any (· ∈ [colon, slash, question]) ||
      source.any (· ∈ [ampersand, question])) = false := by
    simp only [Bool.or_eq_false_iff, decide_eq_false_iff_not, List.any_eq_false,
      decide_eq_true_eq]
    refine ⟨⟨h.nonempty, fun c hm hc' => ?_⟩, fun c hm hc' => ?_⟩
    · simp only [List.mem_cons, List.not_mem_nil, or_false] at hc'
      rcases hc' with rfl | rfl | rfl
      · exact h.noColon hm
      · exact h.noSlash hm
      · exact h.noQuery hm
    · simp only [List.mem_cons, List.not_mem_nil, or_false] at hc'
      rcases hc' with rfl | rfl
      · exact hsa hm
      · exact hsq hm
  simp only [scidToWebvhDid, hpre, hslice, hcut, hmark, hscid, hsrc, hok, Bool.not_true,
    Bool.false_eq_true, if_false, List.append_nil]

/-- The reference a DID URL without fragment is read as. -/
lemma scidToWebvhDid_eq_some {u w : JsString} (hu : hash ∉ u) (e : scidToWebvhDid u = some w) :
    ∃ scid source location, u = vhPrefix ++ scid ++ js "?src=" ++ source ∧ IsScid scid ∧
      question ∉ source ∧ hash ∉ source ∧ ampersand ∉ source ∧
      webvhLocation source = some location ∧ w = webvhPrefix ++ scid ++ colon :: location := by
  have hshape : ∃ scid source, u = vhPrefix ++ scid ++ js "?src=" ++ source ∧
      question ∉ scid ∧ question ∉ source ∧ ampersand ∉ source := by
    unfold scidToWebvhDid at e
    split at e
    · cases e
    rename_i hpre
    obtain ⟨rest, rfl⟩ := startsWith_iff.mp (by simpa using hpre)
    have hr : hash ∉ rest := fun hm => hu (List.mem_append_right _ hm)
    simp only [sliceFrom_append, cutHash, indexOf_eq_none.mpr hr] at e
    split at e
    · cases e
    rename_i marker hmark
    obtain ⟨scid, source, rfl, rfl, -⟩ := indexOfStr_eq_some hmark
    split at e
    · cases e
    rename_i hok
    obtain ⟨hscid, hsrc⟩ := slice_src scid source
    rw [hscid, hsrc] at hok
    simp only [Bool.or_eq_true, decide_eq_true_eq, List.any_eq_true, not_or, not_exists,
      not_and] at hok
    exact ⟨scid, source, by simp, fun hm => hok.1.2 _ hm (by simp),
      fun hm => hok.2 _ hm (by simp), fun hm => hok.2 _ hm (by simp)⟩
  obtain ⟨scid, source, rfl, hq, hsq, hsa⟩ := hshape
  simp only [List.mem_append, not_or] at hu
  obtain ⟨hne, hc, hs, -, -⟩ := scidToWebvhDid_bare hu.1.1.2 e
  have hscid : IsScid scid := ⟨hne, hc, hs, hq, hu.1.1.2⟩
  rw [scidToWebvhDid_eq hscid hsq hu.2 hsa] at e
  obtain ⟨location, hloc, rfl⟩ := Option.map_eq_some_iff.mp e
  exact ⟨scid, source, location, rfl, hscid, hsq, hu.2, hsa, hloc, rfl⟩

/-- The DID URL of a did:webvh DID leads back to it exactly when its location comes back. -/
lemma scidToWebvhDid_replaceAll_iff {scid location : JsString} (hscid : IsScid scid)
    (hs : slash ∉ location) (hq : question ∉ location) (hh : hash ∉ location)
    (ha : ampersand ∉ location) :
    scidToWebvhDid (vhPrefix ++ scid ++ js "?src=" ++ replaceAll location colon slash)
        = some (webvhPrefix ++ scid ++ colon :: location) ↔
      [] ∉ split colon location ∧ startsWith location (js "%") = false := by
  rw [scidToWebvhDid_eq hscid (notMem_replaceAll hq (by decide)) (notMem_replaceAll hh (by decide))
    (notMem_replaceAll ha (by decide)), ← webvhLocation_replaceAll hs]
  constructor
  · intro e
    obtain ⟨location', hloc, e'⟩ := Option.map_eq_some_iff.mp e
    rw [hloc, (List.cons.inj (List.append_cancel_left e')).2]
  · intro e
    rw [e]
    rfl

/-- The way there and back over the did:scid URL. -/
lemma thereAndBack_eq {scid location : JsString} (h : colon ∉ scid) :
    thereAndBack (webvhPrefix ++ scid ++ colon :: location)
      = scidToWebvhDid (vhPrefix ++ scid ++ js "?src=" ++ replaceAll location colon slash) := by
  rw [thereAndBack, webvhToScidDidUrl_eq h]
  rfl

/-- The `src` recorded for a log is its location, every `:` written as `/`. -/
lemma scidOutcome_source {requested : JsString} {result : Resolution} {o : ScidOutcome}
    {scid location : JsString} (e : scidOutcome requested result = .ok o)
    (hid : webvhIdOf result.didDocument = some (webvhPrefix ++ scid ++ colon :: location))
    (hc : colon ∉ scid) (hq : question ∉ scid) (hql : question ∉ location) :
    o.source = replaceAll location colon slash := by
  have hsplit : splitStr (js "?src=") (vhPrefix ++ scid ++ js "?src=" ++
      replaceAll location colon slash) = [vhPrefix ++ scid, replaceAll location colon slash] := by
    refine splitStr_append (c := question) ?_ (notMem_replaceAll hql (by decide))
    simp only [List.mem_append, not_or]
    exact ⟨by decide, hq⟩
  unfold scidOutcome at e
  dsimp only at e
  split at e
  · cases e
  · cases hd : toScidDidDocument result.didDocument with
    | error err => simp [hd, bind, Except.bind] at e
    | ok doc =>
      simp only [hd, bind, Except.bind, pure, Except.pure, Except.ok.injEq] at e
      subst e
      rw [hid, Option.getD_some, webvhToScidDidUrl_eq hc, Option.getD_some, hsplit]
      rfl

/-- A location read from a `src` never starts with `%`, and has an empty part only in its path. -/
lemma webvhLocation_comes_back_iff {source location : JsString}
    (e : webvhLocation source = some location) :
    ([] ∉ split colon location ∧ startsWith location (js "%") = false) ↔ ¬ HasEmptyPart source := by
  obtain ⟨host, hhost, hne, hpct, ⟨hpath, rfl⟩ | ⟨hpath, -, rfl⟩⟩ := webvhLocation_eq_some e
  · rw [split_of_notMem (webvhHost_eq_some hhost).1]
    simp [HasEmptyPart, hpath, hpct, Ne.symm hne]
  · rw [split_location (webvhHost_eq_some hhost).1, startsWith_percent_append _ hne]
    simp only [HasEmptyPart, hpct, and_true, List.mem_cons, not_or, not_and]
    exact ⟨fun h _ => h.2, fun h => ⟨Ne.symm hne, h hpath⟩⟩

/-- The source of a did:scid URL. -/
lemma sourceText_eq {scid : JsString} (source : JsString) (h : question ∉ scid) :
    sourceText (vhPrefix ++ scid ++ js "?src=" ++ source) = source := by
  have hq : question ∉ vhPrefix ++ scid := by
    simp only [List.mem_append, not_or]
    exact ⟨by decide, h⟩
  have hmark : indexOfStr (js "?src=") (vhPrefix ++ scid ++ js "?src=" ++ source)
      = some (vhPrefix ++ scid).length := indexOfStr_append source hq
  rw [sourceText, hmark]
  exact (slice_src (vhPrefix ++ scid) source).2

/-! ## The round trip -/

/-- The parts of a did:webvh location. -/
lemma split_webvhDidOf {host : JsString} {segments : List JsString}
    (h : ∀ part ∈ host :: segments, IsPart part) :
    split colon (host ++ segments.flatMap (colon :: ·)) = host :: segments := by
  induction segments generalizing host with
  | nil => simpa using split_of_notMem (h host (by simp)).noColon
  | cons segment segments ih =>
    rw [List.flatMap_cons, List.cons_append, split_append_cons _ (h host (by simp)).noColon,
      ih fun part hm => h part (List.mem_cons_of_mem _ hm)]

/-- What occurs in no part does not occur in the location. -/
lemma notMem_location {host : JsString} {segments : List JsString} {c : CodeUnit} (hc : c ≠ colon)
    (h : ∀ part ∈ host :: segments, c ∉ part) : c ∉ host ++ segments.flatMap (colon :: ·) := by
  simp only [List.mem_append, List.mem_flatMap, List.mem_cons, not_or, not_exists, not_and]
  exact ⟨h host (by simp), fun segment hm => ⟨hc, h segment (by simp [hm])⟩⟩

/-- A did:webvh DID and its did:scid DID URL lead back to each other exactly when the host does not
start with `%`; a did:webvh DID read from a DID URL comes back exactly when the path of its `src`
has no empty part; and the source recorded for a verified log leads back to that log's DID exactly
when the location has neither. -/
theorem webvh_round_trip_iff (scid host : JsString) (segments : List JsString) (u w : JsString)
    (requested : JsString) (result : Resolution) (o : ScidOutcome) (location : JsString) :
    ((∀ part ∈ scid :: host :: segments, IsPart part) →
      (thereAndBack (webvhDidOf scid host segments) = some (webvhDidOf scid host segments) ↔
        startsWith host (js "%") = false)) ∧
    (hash ∉ u → scidToWebvhDid u = some w →
      (thereAndBack w = some w ↔ ¬ HasEmptyPart (sourceText u))) ∧
    (IsScid scid →
      slash ∉ location → question ∉ location → hash ∉ location → ampersand ∉ location →
      webvhIdOf result.didDocument = some (webvhPrefix ++ scid ++ colon :: location) →
      scidOutcome requested result = .ok o →
      (scidToWebvhDid (vhPrefix ++ scid ++ js "?src=" ++ o.source)
          = some (webvhPrefix ++ scid ++ colon :: location) ↔
        [] ∉ split colon location ∧ startsWith location (js "%") = false)) := by
  refine ⟨?_, ?_, ?_⟩
  · intro h
    have hscid := h scid (by simp)
    have hparts : ∀ part ∈ host :: segments, IsPart part :=
      fun part hm => h part (List.mem_cons_of_mem _ hm)
    have hhost := hparts host (by simp)
    rw [webvhDidOf, thereAndBack_eq hscid.noColon, scidToWebvhDid_replaceAll_iff hscid.toIsScid
      (notMem_location (by decide) fun part hm => (hparts part hm).noSlash)
      (notMem_location (by decide) fun part hm => (hparts part hm).noQuery)
      (notMem_location (by decide) fun part hm => (hparts part hm).noHash)
      (notMem_location (by decide) fun part hm => (hparts part hm).noAmp),
      split_webvhDidOf hparts, startsWith_percent_append _ hhost.nonempty]
    exact and_iff_right fun hm => (hparts [] hm).nonempty rfl
  · intro hu e
    obtain ⟨scid, source, location, rfl, hscid, hq, hh, ha, hloc, rfl⟩ :=
      scidToWebvhDid_eq_some hu e
    obtain ⟨hs, hchars⟩ := notMem_webvhLocation hloc
    rw [thereAndBack_eq hscid.noColon, scidToWebvhDid_replaceAll_iff hscid hs
      (hchars _ hq (by decide) (by decide)) (hchars _ hh (by decide) (by decide))
      (hchars _ ha (by decide) (by decide)), webvhLocation_comes_back_iff hloc,
      sourceText_eq source hscid.noQuery]
  · intro hscid hs hq hh ha hid ho
    rw [scidOutcome_source ho hid hscid.noColon hscid.noQuery hq,
      scidToWebvhDid_replaceAll_iff hscid hs hq hh ha]

/-- A DID whose host is percent-encoded from its first character, a path with two colons in a row,
and a path that ends in a colon: none leads back. -/
theorem webvh_round_trip_fails :
    thereAndBack (webvhDidOf (js "Qm") (js "%C3%A9cole.example") []) = none ∧
      scidToWebvhDid (js "did:scid:vh:1:Qm?src=a.example/b::c") =
        some (js "did:webvh:Qm:a.example:b::c") ∧
      thereAndBack (js "did:webvh:Qm:a.example:b::c") = none ∧
      scidToWebvhDid (js "did:scid:vh:1:Qm?src=a.example/b:") = some (js "did:webvh:Qm:a.example:b:") ∧
      thereAndBack (js "did:webvh:Qm:a.example:b:") = some (js "did:webvh:Qm:a.example:b") := by
  decide

/-- The resolution of a log whose DID is `did:webvh:Qm:example.com:alice`. -/
def aliceResult : Resolution :=
  { didDocument := some (.obj [(js "id", .str (js "did:webvh:Qm:example.com:alice"))])
    didResolutionMetadata := none
    didDocumentMetadata := none }

theorem webvh_round_trip_example :
    (thereAndBack (webvhDidOf (js "acme") (js "localhost%3A8000") [js "path"])
        = some (webvhDidOf (js "acme") (js "localhost%3A8000") [js "path"]) ↔
      startsWith (js "localhost%3A8000") (js "%") = false) ∧
    (thereAndBack (js "did:webvh:abc:localhost%3A8000:path")
        = some (js "did:webvh:abc:localhost%3A8000:path") ↔
      ¬ HasEmptyPart (sourceText (js "did:scid:vh:1:abc?src=https://localhost:8000/path/"))) ∧
    ∃ o, scidOutcome (js "did:webvh:Qm:example.com:alice") aliceResult = .ok o ∧
      (scidToWebvhDid (vhPrefix ++ js "Qm" ++ js "?src=" ++ o.source)
          = some (webvhPrefix ++ js "Qm" ++ colon :: js "example.com:alice") ↔
        [] ∉ split colon (js "example.com:alice") ∧
          startsWith (js "example.com:alice") (js "%") = false) := by
  have hok : ∃ o, scidOutcome (js "did:webvh:Qm:example.com:alice") aliceResult = .ok o := ⟨_, rfl⟩
  obtain ⟨o, ho⟩ := hok
  obtain ⟨hdid, hurl, -⟩ := webvh_round_trip_iff (js "acme") (js "localhost%3A8000") [js "path"]
    (js "did:scid:vh:1:abc?src=https://localhost:8000/path/")
    (js "did:webvh:abc:localhost%3A8000:path") [] aliceResult o []
  obtain ⟨-, -, hlog⟩ := webvh_round_trip_iff (js "Qm") [] [] [] []
    (js "did:webvh:Qm:example.com:alice") aliceResult o (js "example.com:alice")
  refine ⟨hdid ?_, hurl (by decide) (by decide), o, ho, ?_⟩
  · intro part hm
    simp only [List.mem_cons, List.not_mem_nil, or_false] at hm
    rcases hm with rfl | rfl | rfl
    all_goals
      exact ⟨⟨by decide, by decide, by decide, by decide, by decide⟩, by decide⟩
  · exact hlog ⟨by decide, by decide, by decide, by decide, by decide⟩ (by decide) (by decide)
      (by decide) (by decide) rfl ho

end VtiDidcomm
