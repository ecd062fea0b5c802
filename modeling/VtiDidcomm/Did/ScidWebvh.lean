import VtiDidcomm.Did.Basic
import VtiDidcomm.Did.Scid

/-!
# did:scid and did:webvh

The two mappings of `did-scid.js` between a did:scid DID URL and the did:webvh DID of its log
(`scidToWebvhDid`, `webvhToScidDidUrl`), and the rewriting of a verified log's document as the
did:scid's own (`toScidDidDocument`). `scidToWebvhDid_bare` is what the source binding rests on: the
SCID of the did:webvh DID is the SCID of the identity, whatever the `src` says.
-/

namespace VtiDidcomm
open Js

/-- The digits of a port text, its optional `+` removed. -/
def portDigits (port : JsString) : JsString :=
  if startsWith port (js "+") then sliceFrom port 1 else port

/-- `/^\+?\d+$/.test(port)` -/
def isPortText (port : JsString) : Bool := portDigits port != [] && (portDigits port).all isDigit

/-- `Number(port)` of such a text. -/
def portNumber (port : JsString) : Nat := digitsValue (portDigits port)

/-- The host part of a `src`, a literal port encoded as `%3A`. -/
def webvhHost (host : JsString) : Option JsString :=
  match indexOf host colon with
  | none => some host
  | some c =>
    let port := sliceFrom host (c + 1)
    if !isPortText port || 65535 < portNumber port then none
    else some (sliceTo host c ++ js "%3A" ++ port)

/-- The path part of a `src` as did:webvh segments, empty when there is no path. -/
def webvhPath (path : JsString) : Option JsString :=
  if path = [] then some []
  else if (split slash path).any (· = []) then none
  else some (colon :: replaceAll path slash colon)

/-- A `src` as the `<host>[:<segment>…]` of a did:webvh DID. -/
def webvhLocation (source : JsString) : Option JsString :=
  let src :=
    if startsWith source (js "https://") then sliceFrom source 8
    else if startsWith source (js "http://") then sliceFrom source 7
    else source
  let src := trimEnd src slash
  let host := match indexOf src slash with
    | none => src
    | some i => sliceTo src i
  let path := match indexOf src slash with
    | none => []
    | some i => trimEnd (sliceFrom src (i + 1)) slash
  match webvhHost host with
  | none => none
  | some host =>
    if host = [] || startsWith host (js "%") then none
    else (webvhPath path).map (host ++ ·)

/-- The did:webvh form of a `did:scid:vh:1:<scid>?src=<source>` DID URL, its fragment carried
across. -/
def scidToWebvhDid (id : JsString) : Option JsString :=
  if !startsWith id vhPrefix then none
  else
    let rest := (cutHash (sliceFrom id vhPrefix.length)).1
    let fragment := (cutHash (sliceFrom id vhPrefix.length)).2
    match indexOfStr (js "?src=") rest with
    | none => none
    | some marker =>
      let scid := sliceTo rest marker
      let src := sliceFrom rest (marker + 5)
      if scid = [] || scid.any (· ∈ [colon, slash, question]) ||
          src.any (· ∈ [ampersand, question]) then none
      else (webvhLocation src).map fun location =>
        webvhPrefix ++ scid ++ colon :: location ++ fragment

/-- The `did:scid:vh:1:<scid>?src=<source>` DID URL of a did:webvh DID. -/
def webvhToScidDidUrl (webvhDid : JsString) : Option JsString :=
  if !startsWith webvhDid webvhPrefix then none
  else
    let rest := sliceFrom webvhDid webvhPrefix.length
    match indexOf rest colon with
    | none => none
    | some c =>
      some (vhPrefix ++ sliceTo rest c ++ js "?src=" ++ replaceAll (sliceFrom rest (c + 1)) colon slash)

/-- A string of the document: the DID itself and its fragments move under the did:scid DID. -/
def rewriteString (webvhDid scidDid value : JsString) : JsString :=
  if value = webvhDid then scidDid
  else if startsWith value (webvhDid ++ [hash]) then scidDid ++ sliceFrom value webvhDid.length
  else value

mutual
/-- `rewrite` of a document value, at every nesting depth. -/
def rewrite (webvhDid scidDid : JsString) : Json → Json
  | .str value => .str (rewriteString webvhDid scidDid value)
  | .arr items => .arr (rewriteItems webvhDid scidDid items)
  | .obj members => .obj (rewriteMembers webvhDid scidDid members)
  | value => value
/-- `rewrite` of each item. -/
def rewriteItems (webvhDid scidDid : JsString) : List Json → List Json
  | [] => []
  | j :: items => rewrite webvhDid scidDid j :: rewriteItems webvhDid scidDid items
/-- `rewrite` of each member's value. -/
def rewriteMembers (webvhDid scidDid : JsString) : List (JsString × Json) → List (JsString × Json)
  | [] => []
  | (k, j) :: members =>
    (k, rewrite webvhDid scidDid j) :: rewriteMembers webvhDid scidDid members
end

/-- Whether an item is the string `s`. -/
def isStr (s : JsString) : Json → Bool
  | .str t => t = s
  | _ => false

/-- `aliases`: the controller's entries but the bare did:scid. -/
def keptAliases (scidDid : JsString) : Option Json → Except JsError (List Json)
  | none | some .null => .ok []
  | some (.arr items) => .ok (items.filter fun entry => !isStr scidDid entry)
  | some _ => .error (error (js "did:scid: alsoKnownAs is not an array"))

/-- `if (!aliases.includes(entry)) aliases.push(entry)` -/
def addAlias (aliases : List Json) (entry : JsString) : List Json :=
  if aliases.any (isStr entry) then aliases else aliases ++ [.str entry]

/-- `doc[key] = value` on an object's members. -/
def setMember (key : JsString) (value : Json) : List (JsString × Json) → List (JsString × Json)
  | [] => [(key, value)]
  | (k, v) :: members =>
    if k = key then (k, value) :: members else (k, v) :: setMember key value members

/-- The did:webvh id a document carries. -/
def webvhIdOf (state : Option Json) : Option JsString :=
  match Json.asString (state.bind (·.get (js "id"))) with
  | some id => if startsWith id webvhPrefix then some id else none
  | none => none

/-- A did:webvh DID document as the document of its did:scid DID. -/
def toScidDidDocument (state : Option Json) : Except JsError Json :=
  match webvhIdOf state, state with
  | some webvhDid, some (.obj members) =>
    match webvhToScidDidUrl webvhDid with
    | none => .error (error (js "did:scid: " ++ webvhDid ++ js " has no SCID and host to convert"))
    | some scidUrl =>
      match indexOfStr (js "?src=") scidUrl with
      | none => .error (error (js "did:scid: " ++ webvhDid ++ js " has no SCID and host to convert"))
      | some marker => do
        let scidDid := sliceTo scidUrl marker
        let doc := rewriteMembers webvhDid scidDid members
        let aliases ← keptAliases scidDid (Json.lookup (js "alsoKnownAs") members)
        let aliases := addAlias (addAlias aliases scidUrl) webvhDid
        return .obj (setMember (js "alsoKnownAs") (.arr aliases) doc)
  | _, _ => .error (error (js "did:scid: couldn't find a did:webvh id attribute"))

/-! ## The SCID of the mapped DID -/

/-- What stands before and behind a `?src=` that was found. -/
lemma slice_src (pre post : JsString) :
    sliceTo (pre ++ js "?src=" ++ post) pre.length = pre ∧
      sliceFrom (pre ++ js "?src=" ++ post) (pre.length + 5) = post := by
  constructor
  · rw [List.append_assoc, sliceTo_append]
  · have hlen : pre.length + 5 = (pre ++ js "?src=").length := by
      rw [List.length_append]
      rfl
    rw [hlen, sliceFrom_append]

/-- The marker has its `?` in front only. -/
lemma srcMarker_getElem {n : Nat} (h : 0 < n) (h5 : n < (js "?src=").length) :
    (js "?src=")[n]? ≠ some question := by
  match n, h, h5 with
  | 1, _, _ | 2, _, _ | 3, _, _ | 4, _, _ => decide

/-- The first `?src=` of `scid?src=<src>` is the one written after the SCID, when what follows it
holds no `?`. -/
lemma srcMarker_unique {scid src pre post : JsString}
    (e : scid ++ js "?src=" ++ src = pre ++ js "?src=" ++ post) (hle : pre.length ≤ scid.length)
    (hpost : question ∉ post) : pre = scid ∧ post = src := by
  have hlen : pre.length = scid.length := by
    by_contra hne
    have hlt : pre.length < scid.length := by omega
    have hat : (scid ++ js "?src=" ++ src)[scid.length]? = some question := by
      rw [List.append_assoc, List.getElem?_append_right (le_refl _), Nat.sub_self]
      rfl
    rw [e, List.append_assoc, List.getElem?_append_right hle] at hat
    by_cases h5 : scid.length - pre.length < (js "?src=").length
    · rw [List.getElem?_append_left h5] at hat
      exact srcMarker_getElem (by omega) h5 hat
    · rw [List.getElem?_append_right (by omega)] at hat
      exact hpost (List.mem_of_getElem? hat)
  rw [List.append_assoc, List.append_assoc] at e
  obtain ⟨e1, e2⟩ := List.append_inj e hlen.symm
  exact ⟨e1.symm, (List.append_cancel_left e2).symm⟩

/-- The did:webvh DID of `did:scid:vh:1:<scid>?src=<src>` carries that SCID, whatever `src` holds. -/
lemma scidToWebvhDid_bare {scid src w : JsString} (hs : hash ∉ scid)
    (h : scidToWebvhDid (vhPrefix ++ scid ++ js "?src=" ++ src) = some w) :
    scid ≠ [] ∧ colon ∉ scid ∧ slash ∉ scid ∧ question ∉ scid ∧
      ∃ location, w = webvhPrefix ++ scid ++ colon :: location := by
  obtain ⟨e, hnh, hfrag⟩ := cutHash_spec src
  have hcut : cutHash (scid ++ js "?src=" ++ src)
      = (scid ++ js "?src=" ++ (cutHash src).1, (cutHash src).2) := by
    conv_lhs => rw [e, ← List.append_assoc]
    apply cutHash_append _ hfrag
    simp only [List.mem_append, not_or]
    exact ⟨⟨hs, by decide⟩, hnh⟩
  have hslice : sliceFrom (vhPrefix ++ scid ++ js "?src=" ++ src) vhPrefix.length
      = scid ++ js "?src=" ++ src := by
    rw [List.append_assoc, List.append_assoc, sliceFrom_append, List.append_assoc]
  have hpre : startsWith (vhPrefix ++ scid ++ js "?src=" ++ src) vhPrefix = true := by
    rw [List.append_assoc, List.append_assoc]
    exact startsWith_append _ _
  simp only [scidToWebvhDid, hpre, hslice, hcut, Bool.not_true, Bool.false_eq_true, if_false] at h
  split at h
  · cases h
  rename_i marker hmarker
  obtain ⟨i, hi, hle⟩ := indexOfStr_le (js "?src=") scid (cutHash src).1
  rw [hi, Option.some.injEq] at hmarker
  subst hmarker
  obtain ⟨pre, post, e', rfl, -⟩ := indexOfStr_eq_some hi
  obtain ⟨hscid, hsrc⟩ := slice_src pre post
  rw [e', hscid, hsrc] at h
  split at h
  · cases h
  rename_i hc
  simp only [Bool.or_eq_true, decide_eq_true_eq, List.any_eq_true, not_or, not_exists,
    not_and] at hc
  obtain ⟨⟨hne, hbad⟩, hbad'⟩ := hc
  have hq : question ∉ post := fun hm => hbad' _ hm (by simp)
  obtain ⟨rfl, -⟩ := srcMarker_unique e' hle hq
  obtain ⟨location, -, rfl⟩ := Option.map_eq_some_iff.mp h
  refine ⟨hne, fun hm => hbad _ hm (by simp), fun hm => hbad _ hm (by simp),
    fun hm => hbad _ hm (by simp), location ++ (cutHash src).2, by simp⟩

/-- The parts of a did:webvh identifier. -/
lemma split_webvh {scid location : JsString} (h : colon ∉ scid) :
    split colon (webvhPrefix ++ scid ++ colon :: location)
      = js "did" :: js "webvh" :: scid :: split colon location := by
  have e : webvhPrefix ++ scid ++ colon :: location
      = js "did" ++ colon :: (js "webvh" ++ colon :: (scid ++ colon :: location)) := by
    simp only [List.append_assoc]
    rfl
  rw [e, split_append_cons _ (by decide), split_append_cons _ (by decide),
    split_append_cons _ h]

/-! ## The id of the rewritten document -/

@[simp] lemma lookup_rewriteMembers (webvhDid scidDid key : JsString)
    (members : List (JsString × Json)) :
    Json.lookup key (rewriteMembers webvhDid scidDid members)
      = (Json.lookup key members).map (rewrite webvhDid scidDid) := by
  induction members with
  | nil => rfl
  | cons m members ih =>
    obtain ⟨k, j⟩ := m
    simp only [rewriteMembers, Json.lookup]
    split
    · rfl
    · exact ih

/-- Setting a member leaves the others. -/
lemma lookup_setMember_ne {key k : JsString} (value : Json) (members : List (JsString × Json))
    (h : k ≠ key) : Json.lookup k (setMember key value members) = Json.lookup k members := by
  induction members with
  | nil => simp [setMember, Json.lookup, Ne.symm h]
  | cons m members ih =>
    obtain ⟨k', v⟩ := m
    by_cases hk : k' = key
    · subst hk
      simp [setMember, Json.lookup, Ne.symm h]
    · simp only [setMember, hk, if_false, Json.lookup]
      split
      · rfl
      · exact ih

/-- A did:webvh identifier as a did:scid URL. -/
lemma webvhToScidDidUrl_eq {scid location : JsString} (h : colon ∉ scid) :
    webvhToScidDidUrl (webvhPrefix ++ scid ++ colon :: location)
      = some (vhPrefix ++ scid ++ js "?src=" ++ replaceAll location colon slash) := by
  have hpre : startsWith (webvhPrefix ++ scid ++ colon :: location) webvhPrefix = true := by
    rw [List.append_assoc]
    exact startsWith_append _ _
  have hslice : sliceFrom (webvhPrefix ++ scid ++ colon :: location) webvhPrefix.length
      = scid ++ colon :: location := by
    rw [List.append_assoc, sliceFrom_append]
  simp only [webvhToScidDidUrl, hpre, hslice, indexOf_append h, sliceTo_append,
    sliceFrom_append_cons, Bool.not_true, Bool.false_eq_true, if_false]

/-- The document of a log whose id carries `scid` has the bare did:scid as its id. -/
lemma toScidDidDocument_id {state : Option Json} {doc : Json} {scid location : JsString}
    (hc : colon ∉ scid) (hq : question ∉ scid)
    (hid : state.bind (·.get (js "id")) = some (.str (webvhPrefix ++ scid ++ colon :: location)))
    (h : toScidDidDocument state = .ok doc) :
    doc.get (js "id") = some (.str (vhPrefix ++ scid)) := by
  have hpre : startsWith (webvhPrefix ++ scid ++ colon :: location) webvhPrefix = true := by
    rw [List.append_assoc]
    exact startsWith_append _ _
  have hweb : webvhIdOf state = some (webvhPrefix ++ scid ++ colon :: location) := by
    simp [webvhIdOf, hid, Json.asString, -List.append_assoc, hpre]
  have hobj : ∃ members, state = some (.obj members) := by
    cases state with
    | none => simp at hid
    | some j => cases j <;> simp_all [Json.get]
  obtain ⟨members, rfl⟩ := hobj
  have hlook : Json.lookup (js "id") members
      = some (.str (webvhPrefix ++ scid ++ colon :: location)) := by
    simpa using hid
  -- the marker is the first `?` of the DID URL, right after the SCID
  have hnotMem : question ∉ vhPrefix ++ scid := by
    rw [List.mem_append, not_or]
    exact ⟨by decide, hq⟩
  have hmark : indexOfStr (js "?src=") (vhPrefix ++ scid ++ js "?src=" ++
      replaceAll location colon slash) = some (vhPrefix ++ scid).length :=
    indexOfStr_append _ hnotMem
  simp only [toScidDidDocument, hweb, webvhToScidDidUrl_eq hc, hmark] at h
  rw [(slice_src (vhPrefix ++ scid) _).1] at h
  cases ha : keptAliases (vhPrefix ++ scid) (Json.lookup (js "alsoKnownAs") members) with
  | error err => simp [ha, bind, Except.bind] at h
  | ok aliases =>
    simp only [ha, bind, Except.bind, pure, Except.pure, Except.ok.injEq] at h
    subst h
    rw [Json.get_obj, lookup_setMember_ne _ _ (by decide), lookup_rewriteMembers, hlook]
    simp [rewrite, rewriteString]

end VtiDidcomm
