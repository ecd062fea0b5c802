import VtiDidcomm.Did.ScidWebvh
import VtiDidcomm.Did.SourceBook
import VtiDidcomm.Did.Webvh

/-!
# did:scid resolution

`resolveWith`: the did:webvh DID of the log (`webvhTarget`), the verified resolution of that log,
and what is made of it: the did:scid's own document, offered to the source book unless it is a past
version (`settle`). The identity resolved is the one asked for, whatever `src` or book entry was
used.
-/

namespace VtiDidcomm
open Js Effect

/-- `"-"` -/
def dash : CodeUnit := 0x2d

/-- The did:webvh DID whose log `resolveWith` fetches. `bookSource` is what the book holds. -/
def webvhTarget (did : JsString) (bookSource : Option JsString) : Except JsError JsString :=
  if !startsWith did scidPrefix then
    .error (error (js "did:scid resolve: identifier must start with \"did:scid:\""))
  else if !startsWith did vhPrefix then
    .error (error (js "did:scid resolve: only the vh:1 format is supported"))
  else
    let bare := scidIdentity did
    let src := ((scidSrc did).orElse fun _ => bookSource).getD []
    if src = [] then
      .error (error (js "did:scid resolve: no source is known for " ++ bare ++
        js "; resolve it once with its ?src= DID URL"))
    else
      match scidToWebvhDid (bare ++ js "?src=" ++ src) with
      | none => .error (error (js "did:scid resolve: " ++ Json.quote (sliceTo did 120) ++
          js " is not a usable did:scid:vh:1 DID URL"))
      | some webvhDid => .ok webvhDid

/-- What a verified log says about a did:scid: its resolution, and what is offered to the book. -/
structure ScidOutcome where
  source : JsString
  versionNumber : Nat
  versionId : JsString
  resolution : Resolution

/-- `result.didDocumentMetadata ?? {}` -/
def metadataOf (result : Resolution) : Json :=
  if Json.isNullish result.didDocumentMetadata then .obj []
  else result.didDocumentMetadata.getD .null

/-- `{ ...meta, webvhDid: logDid, scidSource: source }` -/
def scidMetadata (metadata : Json) (logDid source : JsString) : Json :=
  let members := match metadata with
    | .obj members => members
    | _ => []
  .obj (setMember (js "scidSource") (.str source) (setMember (js "webvhDid") (.str logDid) members))

/-- The version number of a version id: what stands before its first `-`. -/
def versionNumberOf (versionId : JsString) : Nat := (parseInt (splitHead dash versionId)).getD 0

/-- `String(meta.versionId ?? "")` -/
def versionIdOf (metadata : Json) : JsString :=
  if Json.isNullish (metadata.get (js "versionId")) then []
  else Json.toStrOpt (metadata.get (js "versionId"))

/-- The did:scid reading of a verified did:webvh resolution. -/
def scidOutcome (webvhDid : JsString) (result : Resolution) : Except JsError ScidOutcome := do
  let metadata := metadataOf result
  if Json.truthy (metadata.get (js "deactivated")) then
    throw (error (js "did:scid resolve failed: " ++ webvhDid ++ js " has been deactivated"))
  let document ← toScidDidDocument result.didDocument
  let logDid := (webvhIdOf result.didDocument).getD []
  let source := (splitStr (js "?src=") ((webvhToScidDidUrl logDid).getD [])).getD 1 []
  return {
    source := source
    versionNumber := versionNumberOf (versionIdOf metadata)
    versionId := versionIdOf metadata
    resolution :=
      { didDocument := some document
        didResolutionMetadata := result.didResolutionMetadata
        didDocumentMetadata := some (scidMetadata metadata logDid source) } }

/-- What `resolveWith` returns once the log has resolved, and the book it leaves. -/
def settle (did : JsString) (options : ResolveOptions) (webvhDid : JsString)
    (book : Option (SourceBook Nat)) (result : Resolution) :
    Except JsError Resolution × Option (SourceBook Nat) :=
  match scidOutcome webvhDid result, book with
  | .error e, book => (.error e, book)
  | .ok outcome, none => (.ok outcome.resolution, none)
  | .ok outcome, some book =>
    if options.versionTime.isSome then (.ok outcome.resolution, some book)
    else
      let accepted := book.accept (scidIdentity did) outcome.source outcome.versionNumber
        outcome.versionId
      (accepted.1.map fun _ => outcome.resolution, some accepted.2)

variable (pf : Platform) (verify : Webvh.LogVerifier)

/-- `resolveWith`. Other resolutions may use the book while the log is fetched: `book` is what it
holds at the call, `resumed` what it holds when the log has resolved. -/
def resolveWith (did : JsString) (options : ResolveOptions) (book resumed : Option (SourceBook Nat)) :
    Net (Except JsError Resolution × Option (SourceBook Nat)) := do
  let webvhDid ← Net.lift (webvhTarget did (book.bind (·.source (scidIdentity did))))
  let result ← Webvh.resolve pf verify webvhDid options
  return settle did options webvhDid resumed result

/-! ## The SCID of the log -/

/-- The SCID the log is verified against is the SCID of the identity. -/
lemma webvhTarget_eq_ok {did w : JsString} {bookSource : Option JsString}
    (h : webvhTarget did bookSource = .ok w) :
    ∃ scid location, scidIdentity did = vhPrefix ++ scid ∧
      w = webvhPrefix ++ scid ++ colon :: location ∧
      scid ≠ [] ∧ colon ∉ scid ∧ slash ∉ scid ∧ question ∉ scid ∧ hash ∉ scid := by
  unfold webvhTarget at h
  split at h
  · cases h
  split at h
  · cases h
  rename_i hvh
  dsimp only at h
  split at h
  · cases h
  split at h
  · cases h
  rename_i webvhDid hw
  cases h
  have hpre : startsWith (scidIdentity did) vhPrefix = true :=
    startsWith_scidIdentity (by simpa using hvh) (by decide) (by decide)
  obtain ⟨scid, hscid⟩ := startsWith_iff.mp hpre
  have hh : hash ∉ scid := by
    have := hash_notMem_scidIdentity did
    rw [← hscid, List.mem_append, not_or] at this
    exact this.2
  rw [← hscid] at hw
  obtain ⟨hne, hc, hs, hq, location, rfl⟩ := scidToWebvhDid_bare hh hw
  exact ⟨scid, location, hscid.symm, rfl, hne, hc, hs, hq, hh⟩

/-- The SCID `resolve` verifies a did:webvh DID's log against. -/
lemma expectedScid_webvh {scid location : JsString} (h : colon ∉ scid) :
    Webvh.expectedScid (webvhPrefix ++ scid ++ colon :: location) = some scid := by
  simp [Webvh.expectedScid, split_webvh h, -List.append_assoc]

/-! ## The document -/

/-- A did:webvh id carries a SCID: it is the third colon-separated part, and a host follows it. -/
def CarriesScid (id scid : JsString) : Prop :=
  (split colon id)[2]? = some scid ∧ 4 ≤ (split colon id).length

/-- A did:webvh id that carries a SCID is that SCID followed by a location. -/
lemma CarriesScid.eq {id scid : JsString} (h : CarriesScid id scid)
    (hpre : startsWith id webvhPrefix = true) :
    ∃ location, id = webvhPrefix ++ scid ++ colon :: location := by
  obtain ⟨rest, rfl⟩ := startsWith_iff.mp hpre
  obtain ⟨h2, hlen⟩ := h
  have hsplit : split colon (webvhPrefix ++ rest) = js "did" :: js "webvh" :: split colon rest := by
    rw [show webvhPrefix ++ rest = js "did" ++ colon :: (js "webvh" ++ colon :: rest) from rfl,
      split_append_cons _ (by decide), split_append_cons _ (by decide)]
  rw [hsplit] at h2 hlen
  match hr : split colon rest with
  | [] => exact absurd hr (split_ne_nil colon rest)
  | [part] => simp [hr] at hlen
  | part :: next :: parts =>
    obtain ⟨post, rfl, -, -⟩ := eq_of_split_cons hr
    rw [hr] at h2
    cases h2
    exact ⟨post, by simp⟩

/-- A did:scid outcome is the rewritten document of the log. -/
lemma scidOutcome_eq_ok {webvhDid : JsString} {result : Resolution} {o : ScidOutcome}
    (h : scidOutcome webvhDid result = .ok o) :
    ∃ doc, toScidDidDocument result.didDocument = .ok doc ∧ o.resolution.didDocument = some doc := by
  unfold scidOutcome at h
  dsimp only at h
  split at h
  · cases h
  · cases hd : toScidDidDocument result.didDocument with
    | error e => simp [hd, bind, Except.bind] at h
    | ok doc =>
      simp only [hd, bind, Except.bind, pure, Except.pure, Except.ok.injEq] at h
      subst h
      exact ⟨doc, rfl, rfl⟩

/-- What is returned is the outcome of the log's document. -/
lemma settle_eq_ok {did webvhDid : JsString} {options : ResolveOptions}
    {book book' : Option (SourceBook Nat)} {result r : Resolution}
    (h : settle did options webvhDid book result = (.ok r, book')) :
    ∃ o, scidOutcome webvhDid result = .ok o ∧ r = o.resolution := by
  unfold settle at h
  split at h
  · cases h
  · rename_i o ho
    cases h
    exact ⟨o, ho, rfl⟩
  · rename_i o b ho
    refine ⟨o, ho, ?_⟩
    split at h
    · cases h
      rfl
    · simp only [Prod.mk.injEq] at h
      cases ha : (b.accept (scidIdentity did) o.source o.versionNumber o.versionId).1 with
      | error e =>
        rw [ha] at h
        cases h.1
      | ok u =>
        rw [ha] at h
        cases h.1
        rfl

/-- What `settle` does with a book on a current resolution: it throws and leaves the book, or
accepts the outcome of the log. -/
lemma settle_book (did webvhDid : JsString) {options : ResolveOptions} (b : SourceBook Nat)
    (result : Resolution) (hv : options.versionTime = none) :
    (∃ e, settle did options webvhDid (some b) result = (.error e, some b)) ∨
      ∃ o, scidOutcome webvhDid result = .ok o ∧
        SourceBook.isBehind (b.version (scidIdentity did)) o.versionNumber o.versionId = false ∧
        settle did options webvhDid (some b) result = (.ok o.resolution,
          some (b.accept (scidIdentity did) o.source o.versionNumber o.versionId).2) := by
  unfold settle
  split
  · exact .inl ⟨_, rfl⟩
  · contradiction
  · rename_i o b' ho hb
    cases hb
    rw [if_neg (by simp [hv])]
    dsimp only
    obtain ⟨-, ⟨e, he⟩, hsame⟩ | ⟨hb, hok, -⟩ :=
      b.accept_cases (scidIdentity did) o.source o.versionNumber o.versionId
    · rw [he, hsame]
      exact .inl ⟨e, rfl⟩
    · rw [hok]
      rw [scidIdentity_idem] at hb
      exact .inr ⟨o, ho, hb, rfl⟩

/-- A document that is turned into a did:scid document has a did:webvh id. -/
lemma webvhIdOf_of_toScidDidDocument {state : Option Json} {doc : Json}
    (h : toScidDidDocument state = .ok doc) :
    ∃ id, webvhIdOf state = some id ∧ startsWith id webvhPrefix = true ∧
      state.bind (·.get (js "id")) = some (.str id) := by
  cases hid : webvhIdOf state with
  | none => simp [toScidDidDocument, hid] at h
  | some id =>
    refine ⟨id, rfl, ?_⟩
    unfold webvhIdOf at hid
    split at hid
    · rename_i id' hstr
      split at hid
      · rename_i hpre
        cases hid
        exact ⟨hpre, Json.asString_eq_some.mp hstr⟩
      · cases hid
    · cases hid

/-- did:scid resolution is bound to the SCID: the log is verified against the SCID of the identity
asked for, and the document returned is that identity's, for every source. -/
theorem resolveWith_bound_to_scid (did : JsString) (options : ResolveOptions)
    (book resumed : Option (SourceBook Nat)) :
    (∀ w, webvhTarget did (book.bind (·.source (scidIdentity did))) = .ok w →
      ∃ scid, scidIdentity did = vhPrefix ++ scid ∧ Webvh.expectedScid w = some scid ∧
        scid ≠ [] ∧ colon ∉ scid ∧ slash ∉ scid ∧ question ∉ scid ∧ hash ∉ scid) ∧
    ∀ r book', Prog.Returns (resolveWith pf verify did options book resumed).run (.ok (.ok r, book')) →
      (∀ log opts result scid id, verify log opts = .ok result → opts.scid = some scid →
        webvhIdOf result.doc = some id → CarriesScid id scid) →
      ∃ doc, r.didDocument = some doc ∧ doc.get (js "id") = some (.str (scidIdentity did)) := by
  constructor
  · intro w hw
    obtain ⟨scid, location, hid, rfl, hne, hc, hs, hq, hh⟩ := webvhTarget_eq_ok hw
    exact ⟨scid, hid, expectedScid_webvh hc, hne, hc, hs, hq, hh⟩
  · intro r book' hr hlog
    unfold resolveWith at hr
    obtain ⟨w, hw, hr⟩ := Prog.returns_run_bind.mp hr
    obtain ⟨result, hres, hr⟩ := Prog.returns_run_bind.mp hr
    obtain ⟨scid, location, hid, rfl, -, hc, -, hq, -⟩ := webvhTarget_eq_ok (returns_lift.mp hw)
    obtain ⟨log, opts, lr, hscid, hv, hdoc⟩ := Webvh.returns_resolve hres
    rw [expectedScid_webvh hc] at hscid
    have hset : settle did options _ resumed result = (.ok r, book') := Except.ok.inj hr
    obtain ⟨o, ho, rfl⟩ := settle_eq_ok hset
    obtain ⟨doc, hdoc', hod⟩ := scidOutcome_eq_ok ho
    refine ⟨doc, hod, ?_⟩
    obtain ⟨id, hweb, hpre, hget⟩ := webvhIdOf_of_toScidDidDocument hdoc'
    have hcar : CarriesScid id scid := hlog log opts lr scid id hv hscid (hdoc ▸ hweb)
    obtain ⟨loc, rfl⟩ := hcar.eq hpre
    rw [hid]
    exact toScidDidDocument_id hc hq hget hdoc'

/-- A verifier that knows one log: the first version of `did:webvh:QmScid:example.com`. -/
def oneLogVerifier : Webvh.LogVerifier := fun _ opts =>
  if opts.scid = some (js "QmScid") then
    .ok
      { did := some (js "did:webvh:QmScid:example.com")
        doc := some (.obj [(js "id", .str (js "did:webvh:QmScid:example.com"))])
        meta' := some (.obj [(js "versionId", .str (js "1-Qm"))]) }
  else .error (error (js "SCID mismatch"))

theorem resolveWith_bound_to_scid_example :
    ∃ r book', Prog.Returns (resolveWith Platform.plain oneLogVerifier
        (js "did:scid:vh:1:QmScid?src=example.com#key-1") {} none none).run (.ok (.ok r, book')) ∧
      ∃ doc, r.didDocument = some doc ∧
        doc.get (js "id") = some (.str (js "did:scid:vh:1:QmScid")) := by
  have hret : ∃ r, Prog.Returns (resolveWith Platform.plain oneLogVerifier
      (js "did:scid:vh:1:QmScid?src=example.com#key-1") {} none none).run (.ok (.ok r, none)) :=
    ⟨_, .ok { status := 200, opaqueRedirect := false, body := .ok (js "\x7b\x7d") }, rfl⟩
  obtain ⟨r, hr⟩ := hret
  refine ⟨r, none, hr, (resolveWith_bound_to_scid Platform.plain oneLogVerifier _ {} none none).2 r
    none hr ?_⟩
  intro log opts result scid id hv hs hid
  rw [oneLogVerifier, hs] at hv
  split at hv
  · rename_i hscid
    cases hscid
    cases hv
    cases hid
    exact ⟨rfl, by decide⟩
  · cases hv

end VtiDidcomm
