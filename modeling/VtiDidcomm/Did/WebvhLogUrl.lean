import VtiDidcomm.Did.WebvhGuard
import VtiDidcomm.Js.HttpUrl

/-!
# The log URL of an identifier

What URL `webvhLogUrl` builds, down to the text that the URL parser reads. The identifier is decoded
as a whole and its host once more, and the parts are joined to a text again: where no decoded part
holds a code point that ends the part in a URL, the host, the port and the path of the URL are the
decoded parts of the identifier (`log_url_dials_identifier`).
-/

namespace VtiDidcomm.Webvh
open Js HttpUrl

/-! ## What the runtime promises -/

/-- The path percent-encode set, in which not every runtime has `^`. -/
def IsPathSet (pathSet : List UInt8) : Prop :=
  pathSet = [0x20, 0x22, 0x23, 0x3C, 0x3E, 0x3F, 0x60, 0x7B, 0x7D] ∨
    pathSet = [0x20, 0x22, 0x23, 0x3C, 0x3E, 0x3F, 0x5E, 0x60, 0x7B, 0x7D]

/-- A code point that no part of an authority can hold. -/
def IsDelimiter (c : CodeUnit) : Prop := c = colon ∨ ¬ IsAuthorityChar c

/-- What is documented about the functions that a log URL is built and parsed with. -/
structure UrlLaws (pf : Platform) (hostParser : JsString → Option JsString) (pathSet : List UInt8) :
    Prop where
  isPathSet : IsPathSet pathSet
  /-- `new URL` is the URL parser. -/
  parse : ∀ {protocol : JsString} (rest), protocol = js "https:" ∨ protocol = js "http:" →
    pf.parseUrl (protocol ++ rest) = HttpUrl.parse hostParser pathSet protocol rest
  /-- A host with a `[` is an IPv6 address. -/
  brackets : ∀ {s name}, hostParser s = some name → 0x5B ∈ s → 2 ≤ s.count colon
  /-- Neither NFC nor the lowercase mapping makes a delimiter, or nothing of something. -/
  normalize : ∀ {s : JsString} {c}, c ∈ pf.toLowerCase (pf.normalizeNfc s) → IsDelimiter c → c ∈ s
  normalize_ne_nil : ∀ {s : JsString}, s ≠ [] → pf.toLowerCase (pf.normalizeNfc s) ≠ []
  /-- A slash is no part of an escape. -/
  decode : ∀ {a b t : JsString}, pf.decodeURIComponent (a ++ slash :: b) = .ok t →
    ∃ a' b', pf.decodeURIComponent a = .ok a' ∧ pf.decodeURIComponent b = .ok b' ∧
      t = a' ++ slash :: b'

/-! ## Joining and splitting -/

/-- One part is joined to itself. -/
lemma join_singleton (c : CodeUnit) (part : JsString) : join c [part] = part := by
  simp [join]

/-- Parts are joined by the separator. -/
lemma join_cons (c : CodeUnit) (part next : JsString) (parts : List JsString) :
    join c (part :: next :: parts) = part ++ c :: join c (next :: parts) := by
  simp [join, List.intercalate_cons_cons]

/-- Parts joined with the separator in front of each. -/
lemma cons_join (c : CodeUnit) {parts : List JsString} (h : parts ≠ []) :
    c :: join c parts = parts.flatMap (c :: ·) := by
  induction parts with
  | nil => exact absurd rfl h
  | cons part parts ih =>
    cases parts with
    | nil => simp [join]
    | cons next parts =>
      rw [join_cons, List.flatMap_cons, ← ih (by simp)]
      rfl

/-- A text that is joined is split into the parts of its parts. -/
lemma split_join (c : CodeUnit) {parts : List JsString} (h : parts ≠ []) :
    split c (join c parts) = parts.flatMap (split c) := by
  induction parts with
  | nil => exact absurd rfl h
  | cons part parts ih =>
    cases parts with
    | nil => simp [join]
    | cons next parts => rw [join_cons, split_append, ih (by simp), ← List.flatMap_cons]

/-- A text is empty only if its first part is. -/
lemma join_ne_nil (c : CodeUnit) {part : JsString} (parts : List JsString) (h : part ≠ []) :
    join c (part :: parts) ≠ [] := by
  cases parts with
  | nil => rwa [join_singleton]
  | cons next parts =>
    rw [join_cons]
    intro hnil
    exact h (List.append_eq_nil_iff.mp hnil).1

/-! ## The text of a log URL -/

/-- A host with a port, where there is one. -/
def authorityText (host : JsString) : Option JsString → JsString
  | some port => if port = [] then host else host ++ colon :: port
  | none => host

/-- The path segments of the log: those of the identifier that are not empty, or `.well-known`, and
the log's name. -/
def logSegments (path : List JsString) : List JsString :=
  let named := path.filter (· ≠ [])
  (if named = [] then [js ".well-known"] else named) ++ [js "did.jsonl"]

/-- The text of a log's URL. -/
lemma logFileUrl_eq (plaintext : Bool) (host : JsString) (port : Option JsString)
    (path : List JsString) :
    logFileUrl plaintext host port path = (if plaintext then js "http:" else js "https:") ++
      slash :: slash :: (authorityText host port ++ (logSegments path).flatMap (slash :: ·)) := by
  have hscheme : (if plaintext then js "http" else js "https") ++ js "://" =
      (if plaintext then js "http:" else js "https:") ++ [slash, slash] := by
    cases plaintext <;> rfl
  unfold logFileUrl logSegments
  dsimp only
  rw [hscheme]
  generalize hnamed : path.filter (fun part => decide (part ≠ [])) = named
  cases named with
  | nil =>
    cases port <;> simp [join, authorityText] <;> rfl
  | cons part parts =>
    have hpart : part ≠ [] := by
      have hmem : part ∈ path.filter fun part => decide (part ≠ []) := by
        rw [hnamed]
        exact List.mem_cons_self
      exact of_decide_eq_true (List.mem_filter.mp hmem).2
    rw [if_neg (join_ne_nil slash parts hpart), if_neg (join_ne_nil slash parts hpart),
      if_neg (List.cons_ne_nil part parts), cons_join slash (List.cons_ne_nil part parts),
      List.flatMap_append]
    cases port <;> simp [authorityText] <;> rfl

/-! ## Decoding part by part -/

variable {pf : Platform} {hostParser : JsString → Option JsString} {pathSet : List UInt8}

/-- No escape reaches over a slash: the parts of an identifier are decoded each for itself. -/
lemma decode_join (laws : UrlLaws pf hostParser pathSet) {first remainder : JsString}
    {more : List JsString}
    (h : pf.decodeURIComponent (join slash (first :: more)) = .ok remainder) :
    ∃ host path, pf.decodeURIComponent first = .ok host ∧
      List.Forall₂ (fun s t => pf.decodeURIComponent s = .ok t) more path ∧
      remainder = join slash (host :: path) := by
  induction more generalizing first remainder with
  | nil =>
    rw [join_singleton] at h
    exact ⟨remainder, [], h, .nil, (join_singleton slash remainder).symm⟩
  | cons next more ih =>
    rw [join_cons] at h
    obtain ⟨host, rest, hhost, hrest, rfl⟩ := laws.decode h
    obtain ⟨part, path, hpart, hpath, rfl⟩ := ih hrest
    exact ⟨host, part :: path, hhost, .cons hpart hpath, (join_cons slash host part path).symm⟩

/-! ## The authority -/

/-- A text whose code points all stay in the authority of a URL. -/
def StaysInAuthority (s : JsString) : Prop := ∀ c ∈ s, IsAuthorityChar c

instance (s : JsString) : Decidable (StaysInAuthority s) := List.decidableBAll IsAuthorityChar s

/-- A name with a port behind it, where there is one. -/
def withPort (name : JsString) (port : Option JsString) : JsString :=
  name ++ port.elim [] (colon :: ·)

/-- A host with at most one colon is a name and a port. -/
lemma eq_withPort_of_split {s name : JsString} {port : Option JsString}
    (h : split colon s = name :: port.toList) :
    s = withPort name port ∧ colon ∉ name ∧ ∀ p ∈ port, colon ∉ p := by
  cases port with
  | none =>
    obtain ⟨rfl, hname⟩ := eq_of_split_singleton h
    exact ⟨(List.append_nil s).symm, hname, by simp⟩
  | some p =>
    obtain ⟨post, rfl, hname, hpost⟩ := eq_of_split_cons h
    obtain ⟨rfl, hport⟩ := eq_of_split_singleton hpost
    refine ⟨rfl, hname, ?_⟩
    intro q hq
    cases hq
    exact hport

/-- The name and the port stay in the authority when the host does. -/
lemma staysInAuthority_withPort {name : JsString} {port : Option JsString}
    (h : StaysInAuthority (withPort name port)) :
    StaysInAuthority name ∧ ∀ p ∈ port, StaysInAuthority p := by
  constructor
  · intro c hc
    exact h c (List.mem_append_left _ hc)
  · intro p hp c hc
    cases hp
    exact h c (List.mem_append_right name (List.mem_cons_of_mem colon hc))

/-- The authority has at most one colon. -/
lemma count_authorityText {host : JsString} {port : Option JsString} (hhost : colon ∉ host)
    (hport : ∀ p ∈ port, colon ∉ p) : (authorityText host port).count colon ≤ 1 := by
  cases port with
  | none =>
    rw [authorityText, List.count_eq_zero.mpr hhost]
    exact Nat.zero_le 1
  | some p =>
    rw [authorityText]
    split
    · rw [List.count_eq_zero.mpr hhost]
      exact Nat.zero_le 1
    · rw [List.count_append, List.count_cons_self, List.count_eq_zero.mpr hhost,
        List.count_eq_zero.mpr (hport p rfl)]

/-- The URL parser cuts an authority where it was joined. -/
lemma cutPort_authorityText (laws : UrlLaws pf hostParser pathSet) {host name : JsString}
    {port : Option JsString} (hhost : colon ∉ host) (hport : ∀ p ∈ port, colon ∉ p)
    (h : hostParser (cutPort false (authorityText host port)).1 = some name) :
    (cutPort false (authorityText host port)).1 = host ∧ ∀ protocol,
      parsePort protocol (cutPort false (authorityText host port)).2 = parsePort protocol port := by
  cases port with
  | none =>
    rw [authorityText, cutPort_of_notMem hhost]
    exact ⟨rfl, fun _ => rfl⟩
  | some p =>
    -- an address in brackets would need two colons, and there is one at most
    have hbrackets : 0x5B ∉ (cutPort false (authorityText host (some p))).1 := by
      intro hmem
      have htwo := laws.brackets h hmem
      have hle := (cutPort_isPrefix false (authorityText host (some p))).sublist.count_le colon
      have hone := count_authorityText hhost hport
      omega
    rw [authorityText] at hbrackets ⊢
    by_cases hp : p = []
    · rw [if_pos hp, cutPort_of_notMem hhost, hp]
      exact ⟨rfl, fun _ => rfl⟩
    · rw [if_neg hp] at hbrackets ⊢
      rw [show colon = 0x3A from rfl, cutPort_append hhost hbrackets]
      exact ⟨rfl, fun _ => rfl⟩

/-! ## The path -/

/-- A code point that stays in the path segment it is written in. -/
def IsPathChar (c : CodeUnit) : Prop :=
  endsPath c = false ∧ c ≠ 0x5C ∧ isTabOrNewline c = false

instance : DecidablePred IsPathChar := fun _ => inferInstanceAs (Decidable (_ ∧ _))

/-- A text whose code points all stay in the path of a URL, and whose segments keep their places. -/
structure StaysInPath (s : JsString) : Prop where
  chars : ∀ c ∈ s, IsPathChar c
  segments : ∀ t ∈ split slash s, IsPlainSegment t

instance (s : JsString) : Decidable (StaysInPath s) :=
  have := List.decidableBAll IsPathChar s
  have := List.decidableBAll IsPlainSegment (split slash s)
  decidable_of_iff ((∀ c ∈ s, IsPathChar c) ∧ ∀ t ∈ split slash s, IsPlainSegment t)
    ⟨fun h => ⟨h.1, h.2⟩, fun h => ⟨h.chars, h.segments⟩⟩

/-- The path of the log of an identifier: what is named in its path, percent-encoded, and the log. -/
def logPath (pathSet : List UInt8) (path : List JsString) : JsString :=
  let named := (path.flatMap (split slash)).filter (· ≠ [])
  (if named = [] then js "/.well-known"
    else named.flatMap fun s => slash :: percentEncode pathSet s) ++ js "/did.jsonl"

/-- The path is made of the segments, percent-encoded. -/
lemma logPath_eq (h : IsPathSet pathSet) (path : List JsString) :
    logPath pathSet path = (logSegments (path.flatMap (split slash))).flatMap
      fun s => slash :: percentEncode pathSet s := by
  have hname : slash :: percentEncode pathSet (js "did.jsonl") = js "/did.jsonl" := by
    cases h with
    | inl h => rw [h]; decide
    | inr h => rw [h]; decide
  have hwellKnown : slash :: percentEncode pathSet (js ".well-known") = js "/.well-known" := by
    cases h with
    | inl h => rw [h]; decide
    | inr h => rw [h]; decide
  unfold logPath logSegments
  dsimp only
  rw [List.flatMap_append, List.flatMap_singleton, hname]
  split
  · rw [List.flatMap_singleton, hwellKnown]
  · rfl

/-- The text of a log's path starts with a slash and ends in a letter. -/
lemma exists_logSegments (path : List JsString) :
    ∃ text, (logSegments path).flatMap (slash :: ·) = slash :: (text ++ [0x6C]) := by
  have hend : js "did.jsonl" = js "did.json" ++ [0x6C] := rfl
  unfold logSegments
  dsimp only
  rw [List.flatMap_append, List.flatMap_singleton, hend]
  split
  · exact ⟨js ".well-known" ++ slash :: js "did.json", by simp⟩
  · rename_i hne
    obtain ⟨part, parts, hparts⟩ := List.exists_cons_of_ne_nil hne
    refine ⟨part ++ parts.flatMap (slash :: ·) ++ slash :: js "did.json", ?_⟩
    rw [hparts]
    simp

/-- Every segment stays in the path. -/
lemma of_mem_logSegments {path : List JsString} (h : ∀ s ∈ path, StaysInPath s) :
    ∀ t ∈ logSegments (path.flatMap (split slash)), slash ∉ t ∧ StaysInPath t := by
  have hname : slash ∉ js "did.jsonl" ∧ StaysInPath (js "did.jsonl") :=
    ⟨by decide, by decide⟩
  have hwellKnown : slash ∉ js ".well-known" ∧ StaysInPath (js ".well-known") :=
    ⟨by decide, by decide⟩
  have hnamed : ∀ t ∈ (path.flatMap (split slash)).filter (· ≠ []), slash ∉ t ∧ StaysInPath t := by
    intro t ht
    obtain ⟨s, hs, ht⟩ := List.mem_flatMap.mp (List.mem_of_mem_filter ht)
    obtain ⟨hslash, hsub⟩ := of_mem_split ht
    refine ⟨hslash, fun c hc => (h s hs).chars c (hsub hc), ?_⟩
    rw [split_of_notMem hslash]
    intro t' ht'
    rw [List.mem_singleton.mp ht']
    exact (h s hs).segments t ht
  intro t ht
  unfold logSegments at ht
  dsimp only at ht
  cases List.mem_append.mp ht with
  | inl ht =>
    split at ht
    · rw [List.mem_singleton.mp ht]
      exact hwellKnown
    · exact hnamed t ht
  | inr ht =>
    rw [List.mem_singleton.mp ht]
    exact hname

/-- The parser keeps a path of segments that stay in it, and finds nothing behind it. -/
lemma parsePath_logSegments (hset : IsPathSet pathSet) {path : List JsString}
    (h : ∀ s ∈ path, StaysInPath s) {text : JsString}
    (htext : (logSegments (path.flatMap (split slash))).flatMap (slash :: ·) = slash :: text) :
    let read := slash :: text.filter fun c => !isTabOrNewline c
    parsePath pathSet (read.takeWhile fun c => !endsPath c) = logPath pathSet path ∧
      queryAndFragment (read.dropWhile fun c => !endsPath c) = [] := by
  have hsegments := of_mem_logSegments h
  have hchars : ∀ c ∈ slash :: text, endsPath c = false ∧ isTabOrNewline c = false := by
    intro c hc
    rw [← htext, List.mem_flatMap] at hc
    obtain ⟨t, ht, hc⟩ := hc
    cases List.mem_cons.mp hc with
    | inl hc => rw [hc]; exact ⟨rfl, rfl⟩
    | inr hc =>
      obtain ⟨hend, -, htab⟩ := (hsegments t ht).2.chars c hc
      exact ⟨hend, htab⟩
  have hfilter : text.filter (fun c => !isTabOrNewline c) = text := by
    apply List.filter_eq_self.mpr
    intro c hc
    rw [(hchars c (List.mem_cons_of_mem slash hc)).2]
    rfl
  have hmem : ∀ c ∈ slash :: text, (!endsPath c) = true := by
    intro c hc
    rw [(hchars c hc).1]
    rfl
  dsimp only
  rw [hfilter, List.takeWhile_eq_self_iff.mpr hmem, List.dropWhile_eq_nil_iff.mpr hmem, ← htext,
    logPath_eq hset]
  refine ⟨parsePath_segments ?_ ?_, rfl⟩
  · unfold logSegments
    simp
  · intro t ht
    obtain ⟨hslash, hstays⟩ := hsegments t ht
    refine ⟨hslash, fun hback => (hstays.chars _ hback).2.1 rfl, ?_⟩
    apply hstays.segments t
    rw [split_of_notMem hslash]
    exact List.mem_singleton_self t

/-! ## The URL -/

/-- Canonicalizing a name brings nothing into it that would end an authority. -/
lemma staysInAuthority_normalize (laws : UrlLaws pf hostParser pathSet) {name : JsString}
    (hcolon : colon ∉ name) (h : StaysInAuthority name) :
    colon ∉ pf.toLowerCase (pf.normalizeNfc name) ∧
      StaysInAuthority (pf.toLowerCase (pf.normalizeNfc name)) := by
  constructor
  · intro hmem
    exact hcolon (laws.normalize hmem (.inl rfl))
  · intro c hmem
    by_contra hc
    exact hc (h c (laws.normalize hmem (.inr hc)))

/-- The authority stays where it is. -/
lemma staysInAuthority_authorityText {host : JsString} {port : Option JsString}
    (hhost : StaysInAuthority host) (hport : ∀ p ∈ port, StaysInAuthority p) :
    StaysInAuthority (authorityText host port) := by
  cases port with
  | none => exact hhost
  | some p =>
    rw [authorityText]
    split
    · exact hhost
    · intro c hc
      cases List.mem_append.mp hc with
      | inl hc => exact hhost c hc
      | inr hc =>
        cases List.mem_cons.mp hc with
        | inl hc => rw [hc]; exact ⟨rfl, by decide, rfl⟩
        | inr hc => exact hport p rfl c hc

/-- An authority with a host is not empty. -/
lemma authorityText_ne_nil {host : JsString} (h : host ≠ []) (port : Option JsString) :
    authorityText host port ≠ [] := by
  cases port with
  | none => exact h
  | some p =>
    rw [authorityText]
    split
    · exact h
    · intro hnil
      exact h (List.append_eq_nil_iff.mp hnil).1

/-- The parts of the URL that the text of a log URL is parsed to. -/
lemma parseUrl_logFileUrl (laws : UrlLaws pf hostParser pathSet) {plaintext : Bool}
    {host : JsString} {port : Option JsString} {path : List JsString} {u : Url} (hne : host ≠ [])
    (hcolon : colon ∉ host) (hport : ∀ p ∈ port, colon ∉ p) (hstays : StaysInAuthority host)
    (hportStays : ∀ p ∈ port, StaysInAuthority p)
    (h : pf.parseUrl (logFileUrl plaintext host port (path.flatMap (split slash))) = some u) :
    hostParser host = some u.hostname ∧ parsePort u.protocol port = some u.port ∧
      u.host = u.hostname ++ (if u.port = [] then [] else colon :: u.port) ∧
      ((∀ s ∈ path, StaysInPath s) → u.pathname = logPath pathSet path ∧
        u.href = u.protocol ++ js "//" ++ u.host ++ u.pathname) := by
  have hprotocol : ∀ b : Bool, (if b then js "http:" else js "https:") = js "https:" ∨
      (if b then js "http:" else js "https:") = js "http:" := by
    intro b
    cases b with
    | true => exact .inr rfl
    | false => exact .inl rfl
  obtain ⟨text, htext⟩ := exists_logSegments (path.flatMap (split slash))
  rw [logFileUrl_eq, laws.parse _ (hprotocol plaintext), htext] at h
  obtain ⟨hname, hportText, hu⟩ := parse_eq_some (authorityText_ne_nil hne port)
    (staysInAuthority_authorityText hstays hportStays) (by decide) h
  obtain ⟨hcut, hparsePort⟩ := cutPort_authorityText laws hcolon hport hname
  rw [hcut] at hname
  rw [hparsePort] at hportText
  have hscheme : u.protocol = if plaintext then js "http:" else js "https:" := by
    rw [hu]
    rfl
  refine ⟨hname, hscheme ▸ hportText, ?_, ?_⟩
  · rw [hu]
    rfl
  · intro hpath
    obtain ⟨hpathname, hafter⟩ := parsePath_logSegments laws.isPathSet hpath htext
    rw [show (0x2F : CodeUnit) = slash from rfl, hpathname, hafter] at hu
    constructor
    · rw [hu]
      rfl
    · rw [hu]
      simp [assemble]

/-- The log URL of an identifier: plaintext only where private hosts are allowed, and then for
`localhost` or a caller who allows plaintext; at the decoded host and port of the identifier where
these stay in an authority; and with the decoded path, and nothing behind it, where that stays in a
path. -/
theorem log_url_dials_identifier (laws : UrlLaws pf hostParser pathSet) {did : JsString}
    {P : NetPolicy} {label : JsString} {u : Url} (h : webvhLogUrl pf did P label = .ok u) :
    (u.protocol = js "https:" ∨ u.protocol = js "http:" ∧ P.allowPrivate = true ∧
      (LogHost pf did (js "localhost") ∨ P.allowInsecure = true)) ∧
    ∃ scid first more host path,
      split colon did = js "did" :: js "webvh" :: scid :: first :: more ∧
      pf.decodeURIComponent first = .ok host ∧
      List.Forall₂ (fun s t => pf.decodeURIComponent s = .ok t) more path ∧
      (slash ∉ host → ∃ name port, pf.decodeURIComponent host = .ok (withPort name port) ∧
        name ≠ [] ∧ colon ∉ name ∧ (∀ p ∈ port, colon ∉ p) ∧
        (StaysInAuthority (withPort name port) →
          hostParser (pf.toLowerCase (pf.normalizeNfc name)) = some u.hostname ∧
          parsePort u.protocol port = some u.port ∧
          u.host = u.hostname ++ (if u.port = [] then [] else colon :: u.port) ∧
          ((∀ s ∈ path, StaysInPath s) → u.pathname = logPath pathSet path ∧
            u.href = u.protocol ++ js "//" ++ u.host ++ u.pathname))) := by
  refine ⟨?_, ?_⟩
  · obtain ⟨-, hplain, hwhy⟩ := logUrl_scheme h
    exact hplain.protocol.imp_right fun hhttp => ⟨hhttp, hwhy hhttp⟩
  obtain ⟨scid, first, more, remainder, hostText, name, port, hparts, hremainder, hhostText, hsplit,
    hname, hu⟩ := webvhLogUrl_eq_ok h
  obtain ⟨schemes, allowList, -, -, hparse, -⟩ := assertSafeEndpoint_eq_ok.mp hu
  obtain ⟨host, path, hhost, hpath, rfl⟩ := decode_join laws hremainder
  refine ⟨scid, first, more, host, path, hparts, hhost, hpath, ?_⟩
  intro hslash
  -- the decoded host is what stands before the first slash, and the decoded path what follows
  have hpieces : split slash (join slash (host :: path)) = host :: path.flatMap (split slash) := by
    rw [split_join slash (List.cons_ne_nil host path), List.flatMap_cons, split_of_notMem hslash]
    rfl
  rw [splitHead, hpieces] at hhostText
  rw [hpieces] at hparse
  obtain ⟨rfl, hcolon, hport⟩ := eq_withPort_of_split hsplit
  refine ⟨name, port, hhostText, hname, hcolon, hport, ?_⟩
  intro hstays
  obtain ⟨hnameStays, hportStays⟩ := staysInAuthority_withPort hstays
  obtain ⟨hhostColon, hhostStays⟩ := staysInAuthority_normalize laws hcolon hnameStays
  exact parseUrl_logFileUrl laws (laws.normalize_ne_nil hname) hhostColon hport hhostStays
    hportStays hparse

/-! ## Runs -/

/-- A host parser for ASCII domains. -/
def plainHost (s : JsString) : Option JsString := if 0x5B ∈ s then none else some s

/-- The plain platform, with the URL parser. -/
def dialing : Platform :=
  { Platform.plain with
    parseUrl s :=
      if startsWith s (js "https:") then
        HttpUrl.parse plainHost [0x20, 0x22, 0x23, 0x3C, 0x3E, 0x3F, 0x60, 0x7B, 0x7D] (js "https:")
          (sliceFrom s 6)
      else if startsWith s (js "http:") then
        HttpUrl.parse plainHost [0x20, 0x22, 0x23, 0x3C, 0x3E, 0x3F, 0x60, 0x7B, 0x7D] (js "http:")
          (sliceFrom s 5)
      else none }

/-- A lower-case letter is no delimiter. -/
lemma not_isDelimiter_lower {c : CodeUnit} (h : 0x61 ≤ c) : ¬ IsDelimiter c := by
  have hne : ∀ d : CodeUnit, d < 0x61 → c ≠ d := by
    intro d hd hc
    rw [hc] at h
    exact absurd hd (UInt16.not_lt.mpr h)
  have hends : endsAuthority c = false := by
    simp [endsAuthority, hne 0x2F (by decide), hne 0x5C (by decide), hne 0x3F (by decide),
      hne 0x23 (by decide)]
  have htab : isTabOrNewline c = false := by
    simp [isTabOrNewline, hne 0x09 (by decide), hne 0x0A (by decide), hne 0x0D (by decide)]
  intro hdelimiter
  cases hdelimiter with
  | inl hcolon => exact hne colon (by decide) hcolon
  | inr hc => exact hc ⟨hends, hne 0x40 (by decide), htab⟩

/-- The sample parser keeps the laws. -/
lemma urlLaws_dialing :
    UrlLaws dialing plainHost [0x20, 0x22, 0x23, 0x3C, 0x3E, 0x3F, 0x60, 0x7B, 0x7D] where
  isPathSet := .inl rfl
  parse rest h := by
    cases h with
    | inl h => rw [h]; rfl
    | inr h => rw [h]; rfl
  brackets h hmem := by
    rw [plainHost, if_pos hmem] at h
    cases h
  normalize {s c} h hc := by
    obtain ⟨d, hd, rfl⟩ := List.mem_map.mp h
    have hkept : asciiLower d = d := by
      apply if_neg
      intro hupper
      have hlower : asciiLower d = d + 0x20 := if_pos hupper
      rw [Bool.and_eq_true, decide_eq_true_eq, decide_eq_true_eq] at hupper
      have hle : 0x61 ≤ d + 0x20 := by
        have hge := UInt16.le_iff_toNat_le.mp hupper.1
        have hle := UInt16.le_iff_toNat_le.mp hupper.2
        rw [UInt16.le_iff_toNat_le, UInt16.toNat_add]
        simp only [UInt16.reduceToNat] at hge hle ⊢
        omega
      rw [hlower] at hc
      exact not_isDelimiter_lower hle hc
    rw [hkept]
    exact hd
  normalize_ne_nil h := by
    intro hnil
    exact h (List.map_eq_nil_iff.mp hnil)
  decode {a b t} h := by
    cases h
    exact ⟨a, b, rfl, rfl, rfl⟩

/-- The log of `did:webvh:Qm:a.example:users` is at the host and under the path it names. -/
theorem log_url_dials_identifier_sample :
    ∃ u, webvhLogUrl dialing (js "did:webvh:Qm:a.example:users") {} logLabel = .ok u ∧
      u.hostname = js "a.example" ∧ u.port = [] ∧
      u.href = js "https://a.example/users/did.jsonl" := by
  obtain ⟨u, h⟩ : ∃ u, webvhLogUrl dialing (js "did:webvh:Qm:a.example:users") {} logLabel = .ok u :=
    ⟨_, rfl⟩
  refine ⟨u, h, ?_⟩
  obtain ⟨hscheme, scid, first, more, host, path, hparts, hhost, hpath, hdials⟩ :=
    log_url_dials_identifier urlLaws_dialing h
  have hsplit : split colon (js "did:webvh:Qm:a.example:users") =
      [js "did", js "webvh", js "Qm", js "a.example", js "users"] := by decide
  rw [hsplit] at hparts
  cases hparts
  cases hhost
  cases hpath with
  | cons hpart hrest =>
    cases hpart
    cases hrest
    obtain ⟨name, port, hdecoded, -, -, -, hdials⟩ := hdials (by decide)
    have hname : js "a.example" = withPort name port := Except.ok.inj hdecoded
    have hstays : StaysInAuthority (js "a.example") := by decide
    have hpath : ∀ s ∈ [js "users"], StaysInPath s := by
      intro s hs
      rw [List.mem_singleton.mp hs]
      decide
    rw [hname] at hstays
    obtain ⟨hhostname, hport, hauthority, hrest⟩ := hdials hstays
    obtain ⟨hpathname, hhref⟩ := hrest hpath
    cases port with
    | some port =>
      have hmem : colon ∈ js "a.example" := by
        rw [hname]
        exact List.mem_append_right name List.mem_cons_self
      exact absurd hmem (by decide)
    | none =>
      obtain rfl : js "a.example" = name := hname.trans (List.append_nil name)
      have hhost : u.hostname = js "a.example" := (Option.some.inj hhostname).symm
      have hdefault : u.port = [] := (Option.some.inj hport).symm
      have hhttps : u.protocol = js "https:" := by
        cases hscheme with
        | inl hhttps => exact hhttps
        | inr hhttp => cases hhttp.2.1
      refine ⟨hhost, hdefault, ?_⟩
      rw [hhttps, hauthority, hhost, if_pos hdefault, hpathname] at hhref
      exact hhref.trans (by decide)

/-- A `?` in the host is the start of a query, which the path of the log falls into; and a caller
who allows private hosts and plaintext is handed a plaintext URL of a public host. -/
theorem log_url_moves_path :
    (∃ u, webvhLogUrl dialing (js "did:webvh:Qm:a.example?x") {} logLabel = .ok u ∧
      u.hostname = js "a.example" ∧ u.pathname = js "/" ∧
      u.href = js "https://a.example/?x/.well-known/did.jsonl") ∧
    ∃ u, webvhLogUrl dialing (js "did:webvh:Qm:a.example")
        { allowPrivate := true, allowInsecure := true } logLabel = .ok u ∧
      u.protocol = js "http:" ∧ u.hostname = js "a.example" ∧
      isBlockedName (js "a.example") = false := by
  refine ⟨⟨_, rfl, ?_⟩, _, rfl, ?_⟩
  · exact ⟨rfl, rfl, rfl⟩
  · exact ⟨rfl, rfl, by decide⟩

end VtiDidcomm.Webvh
