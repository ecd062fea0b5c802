import Mathlib.Data.List.DropRight
import VtiDidcomm.Js.Platform
import VtiDidcomm.Js.Utf8

/-!
# http and https URLs

The URL parser of the URL Standard on a text that starts with `https:` or `http:`, from what follows
the scheme. Such a URL is special: a `\` is a `/`, any number of slashes stands before the
authority, and the host goes through a host parser. The host parser is a parameter here, and so is
the path percent-encode set, which runtimes do not agree about.

`parse_eq` is the parser on an authority and a path without any of the code points that would end
them: nothing of one part ends up in another.
-/

namespace Js.HttpUrl

/-! ## Code points -/

/-- `/`, `\`, `?` and `#` end an authority. -/
def endsAuthority (c : CodeUnit) : Bool := c = 0x2F || c = 0x5C || c = 0x3F || c = 0x23

/-- `?` and `#` end a path. -/
def endsPath (c : CodeUnit) : Bool := c = 0x3F || c = 0x23

/-- ASCII tab or newline: removed wherever it stands. -/
def isTabOrNewline (c : CodeUnit) : Bool := c = 0x09 || c = 0x0A || c = 0x0D

/-- The text that is read: no C0 control or space at its end, and no tab or newline. -/
def clean (s : JsString) : JsString :=
  (s.rdropWhile fun c => c ≤ 0x20).filter fun c => !isTabOrNewline c

/-- An uppercase hexadecimal digit. -/
def hexUpper (n : UInt8) : CodeUnit := if n < 10 then 0x30 + n.toUInt16 else 0x37 + n.toUInt16

/-- UTF-8 percent-encoding with a percent-encode set: every set has the C0 controls and what is
above `~`. -/
def percentEncode (set : List UInt8) (s : JsString) : JsString :=
  (textEncode s).flatMap fun b =>
    if b ≤ 0x1F || 0x7E < b || b ∈ set then [0x25, hexUpper (b >>> 4), hexUpper (b &&& 0xF)]
    else [b.toUInt16]

/-- The fragment percent-encode set. -/
def fragmentSet : List UInt8 := [0x20, 0x22, 0x3C, 0x3E, 0x60]

/-- The special-query percent-encode set. -/
def querySet : List UInt8 := [0x20, 0x22, 0x23, 0x3C, 0x3E, 0x27]

/-- The userinfo percent-encode set, over the path percent-encode set. -/
def userinfoSet (pathSet : List UInt8) : List UInt8 :=
  pathSet ++ [0x2F, 0x3A, 0x3B, 0x3D, 0x40, 0x5B, 0x5C, 0x5D, 0x5E, 0x7C]

/-! ## The authority -/

/-- The host and port of an authority: what follows its last `@`. -/
def hostAndPort (authority : JsString) : JsString := authority.rtakeWhile fun c => c ≠ 0x40

/-- The credentials of an authority: what stands before its last `@`. -/
def userinfo (authority : JsString) : JsString :=
  authority.take (authority.length - (hostAndPort authority).length - 1)

/-- The host up to the first `:` outside of brackets, and the port behind it. -/
def cutPort (inBrackets : Bool) : JsString → JsString × Option JsString
  | [] => ([], none)
  | c :: s =>
    if c = 0x3A ∧ inBrackets = false then ([], some s)
    else
      let cut := cutPort (if c = 0x5B then true else if c = 0x5D then false else inBrackets) s
      (c :: cut.1, cut.2)

/-- The port that a scheme has without one being written. -/
def defaultPort (protocol : JsString) : Nat := if protocol = js "https:" then 443 else 80

/-- The port of a URL, empty for the default one. -/
def parsePort (protocol : JsString) : Option JsString → Option JsString
  | none => some []
  | some digits =>
    if digits = [] then some []
    else if digits.all isDigit = false ∨ 65535 < digitsValue digits then none
    else if digitsValue digits = defaultPort protocol then some []
    else some (natText (digitsValue digits))

/-! ## The path -/

/-- `..`, in any of its spellings. -/
def isDoubleDot (s : JsString) : Bool :=
  s.map asciiLower ∈ [js "..", js ".%2e", js "%2e.", js "%2e%2e"]

/-- `.`, in any of its spellings. -/
def isSingleDot (s : JsString) : Bool := s.map asciiLower ∈ [js ".", js "%2e"]

/-- The segments of a path: a dot segment is taken out, and a double dot takes out the segment
before it. (No code point of a dot segment is percent-encoded, so that they can be told before the
encoding.) -/
def pathSegments (pathSet : List UInt8) (before : List JsString) :
    List JsString → List JsString
  | [] => before
  | [s] =>
    if isDoubleDot s then before.dropLast ++ [[]]
    else if isSingleDot s then before ++ [[]]
    else before ++ [percentEncode pathSet s]
  | s :: t :: rest =>
    if isDoubleDot s then pathSegments pathSet before.dropLast (t :: rest)
    else if isSingleDot s then pathSegments pathSet before (t :: rest)
    else pathSegments pathSet (before ++ [percentEncode pathSet s]) (t :: rest)

/-- The path of a URL, whose text is empty or starts with a slash. -/
def parsePath (pathSet : List UInt8) (path : JsString) : JsString :=
  (pathSegments pathSet [] (split 0x2F (replaceAll (path.drop 1) 0x5C 0x2F))).flatMap (0x2F :: ·)

/-! ## The URL -/

/-- The query and the fragment of a URL, with the code points before them. -/
def queryAndFragment (s : JsString) : JsString :=
  let query := match s with
    | c :: s => if c = 0x3F then 0x3F :: percentEncode querySet (s.takeWhile (· ≠ 0x23)) else []
    | [] => []
  let fragment := match s.dropWhile (· ≠ 0x23) with
    | _ :: s => 0x23 :: percentEncode fragmentSet s
    | [] => []
  query ++ fragment

/-- The parsed URL, serialized into its parts. -/
def assemble (protocol username password hostname port pathname after : JsString) : Url :=
  let host := hostname ++ (if port = [] then [] else 0x3A :: port)
  let credentials := if username = [] ∧ password = [] then []
    else username ++ (if password = [] then [] else 0x3A :: password) ++ [0x40]
  { href := protocol ++ js "//" ++ credentials ++ host ++ pathname ++ after
    protocol := protocol
    username := username
    password := password
    host := host
    hostname := hostname
    port := port
    pathname := pathname }

/-- `new URL(protocol + rest)`, for the protocol `https:` or `http:`. -/
def parse (hostParser : JsString → Option JsString) (pathSet : List UInt8)
    (protocol rest : JsString) : Option Url :=
  let rest := (clean rest).dropWhile fun c => c = 0x2F || c = 0x5C
  let authority := rest.takeWhile fun c => !endsAuthority c
  let rest := rest.dropWhile fun c => !endsAuthority c
  let credentials := userinfo authority
  let username := percentEncode (userinfoSet pathSet) (credentials.takeWhile (· ≠ 0x3A))
  let password := percentEncode (userinfoSet pathSet) ((credentials.dropWhile (· ≠ 0x3A)).drop 1)
  let cut := cutPort false (hostAndPort authority)
  if cut.1 = [] then none
  else do
    let hostname ← hostParser cut.1
    let port ← parsePort protocol cut.2
    return assemble protocol username password hostname port
      (parsePath pathSet (rest.takeWhile fun c => !endsPath c))
      (queryAndFragment (rest.dropWhile fun c => !endsPath c))

/-! ## An authority that nothing ends -/

/-- A code point that stays in the host or the port it is written in. -/
def IsAuthorityChar (c : CodeUnit) : Prop :=
  endsAuthority c = false ∧ c ≠ 0x40 ∧ isTabOrNewline c = false

instance : DecidablePred IsAuthorityChar := fun _ => inferInstanceAs (Decidable (_ ∧ _))

/-- The text that is read keeps its end. -/
lemma clean_concat (s : JsString) {last : CodeUnit} (h : 0x20 < last) :
    clean (s ++ [last]) = (s ++ [last]).filter fun c => !isTabOrNewline c := by
  rw [clean, List.rdropWhile_eq_self_iff.mpr]
  intro hne
  rw [List.getLast_append_singleton, decide_eq_true_eq]
  exact UInt16.not_le.mpr h

/-- Without a `@`, all of an authority is its host and port. -/
lemma hostAndPort_of_notMem {authority : JsString} (h : 0x40 ∉ authority) :
    hostAndPort authority = authority := by
  apply List.rtakeWhile_eq_self_iff.mpr
  intro c hc
  rw [decide_eq_true_eq]
  intro he
  exact h (he ▸ hc)

/-- Without a `@`, an authority has no credentials. -/
lemma userinfo_of_notMem {authority : JsString} (h : 0x40 ∉ authority) : userinfo authority = [] := by
  rw [userinfo, hostAndPort_of_notMem h, Nat.sub_self, Nat.zero_sub, List.take_zero]

/-- The parser on an authority that nothing ends before the slash behind it. -/
lemma parse_eq (hostParser : JsString → Option JsString) (pathSet : List UInt8)
    (protocol : JsString) {authority : JsString} (path : JsString) {last : CodeUnit}
    (hne : authority ≠ []) (ha : ∀ c ∈ authority, IsAuthorityChar c) (hlast : 0x20 < last) :
    parse hostParser pathSet protocol (0x2F :: 0x2F :: (authority ++ 0x2F :: (path ++ [last]))) =
      let cut := cutPort false authority
      let text := 0x2F :: (path ++ [last]).filter fun c => !isTabOrNewline c
      if cut.1 = [] then none
      else do
        let hostname ← hostParser cut.1
        let port ← parsePort protocol cut.2
        return assemble protocol [] [] hostname port
          (parsePath pathSet (text.takeWhile fun c => !endsPath c))
          (queryAndFragment (text.dropWhile fun c => !endsPath c)) := by
  have hat : 0x40 ∉ authority := fun h => (ha _ h).2.1 rfl
  have hfilter : authority.filter (fun c => !isTabOrNewline c) = authority := by
    apply List.filter_eq_self.mpr
    intro c hc
    rw [(ha c hc).2.2]
    rfl
  have hclean : clean (0x2F :: 0x2F :: (authority ++ 0x2F :: (path ++ [last]))) =
      0x2F :: 0x2F :: (authority ++
        0x2F :: (path ++ [last]).filter fun c => !isTabOrNewline c) := by
    have h := clean_concat (0x2F :: 0x2F :: (authority ++ 0x2F :: path)) hlast
    simp only [List.cons_append, List.append_assoc] at h
    rw [h]
    simp only [List.filter_cons, List.filter_append, hfilter]
    rfl
  -- the two slashes are dropped, and no more: the authority starts with none
  have hslashes : (0x2F :: 0x2F :: (authority ++
        0x2F :: (path ++ [last]).filter fun c => !isTabOrNewline c)).dropWhile
        (fun c => c = 0x2F || c = 0x5C) =
      authority ++ 0x2F :: (path ++ [last]).filter fun c => !isTabOrNewline c := by
    obtain ⟨c, rest, rfl⟩ := List.exists_cons_of_ne_nil hne
    have hc := (ha c List.mem_cons_self).1
    simp only [endsAuthority, Bool.or_eq_false_iff, decide_eq_false_iff_not] at hc
    simp [hc.1.1.1, hc.1.1.2]
  have hmem : ∀ c ∈ authority, (!endsAuthority c) = true := by
    intro c hc
    rw [(ha c hc).1]
    rfl
  rw [parse]
  dsimp only
  rw [hclean, hslashes, List.takeWhile_append_of_pos hmem, List.dropWhile_append_of_pos hmem]
  have hend : (!endsAuthority 0x2F) = false := by decide
  simp only [List.takeWhile_cons, List.dropWhile_cons, hend, Bool.false_eq_true, if_false,
    List.append_nil, userinfo_of_notMem hat, hostAndPort_of_notMem hat, List.takeWhile_nil,
    List.dropWhile_nil, List.drop_nil]
  rfl

/-- What the URL of such a text has: a host, a port, and nothing else before its path. -/
lemma parse_eq_some {hostParser : JsString → Option JsString} {pathSet : List UInt8}
    {protocol authority path : JsString} {last : CodeUnit} {u : Url} (hne : authority ≠ [])
    (ha : ∀ c ∈ authority, IsAuthorityChar c) (hlast : 0x20 < last)
    (h : parse hostParser pathSet protocol (0x2F :: 0x2F :: (authority ++ 0x2F :: (path ++ [last]))) =
      some u) :
    let text := 0x2F :: (path ++ [last]).filter fun c => !isTabOrNewline c
    hostParser (cutPort false authority).1 = some u.hostname ∧
      parsePort protocol (cutPort false authority).2 = some u.port ∧
      u = assemble protocol [] [] u.hostname u.port
        (parsePath pathSet (text.takeWhile fun c => !endsPath c))
        (queryAndFragment (text.dropWhile fun c => !endsPath c)) := by
  rw [parse_eq hostParser pathSet protocol path hne ha hlast] at h
  dsimp only at h
  split at h
  · cases h
  · obtain ⟨hostname, hhost, h⟩ := Option.bind_eq_some_iff.mp h
    obtain ⟨port, hport, h⟩ := Option.bind_eq_some_iff.mp h
    cases h
    exact ⟨hhost, hport, rfl⟩

/-! ## A host and a port -/

/-- Without a colon there is no port to cut off. -/
lemma cutPort_of_notMem {s : JsString} (h : 0x3A ∉ s) (inBrackets : Bool) :
    cutPort inBrackets s = (s, none) := by
  induction s generalizing inBrackets with
  | nil => rfl
  | cons c s ih =>
    rw [List.mem_cons, not_or] at h
    rw [cutPort, if_neg (fun hc => h.1 hc.1.symm), ih h.2]

/-- Outside of brackets the first colon stands before the port. -/
lemma cutPort_append {host port : JsString} (h : 0x3A ∉ host)
    (hb : 0x5B ∉ (cutPort false (host ++ 0x3A :: port)).1) :
    cutPort false (host ++ 0x3A :: port) = (host, some port) := by
  induction host with
  | nil => rfl
  | cons c host ih =>
    rw [List.mem_cons, not_or] at h
    rw [List.cons_append, cutPort, if_neg (fun hc => h.1 hc.1.symm)] at hb ⊢
    have hc : c ≠ 0x5B := by
      intro hc
      exact hb (hc ▸ List.mem_cons_self)
    have hout : (if c = 0x5B then true else if c = 0x5D then false else false) = false := by
      rw [if_neg hc, ite_self]
    rw [hout] at hb ⊢
    rw [ih h.2 fun hmem => hb (List.mem_cons_of_mem _ hmem)]

/-- What is left of an authority without its port is a prefix of it. -/
lemma cutPort_isPrefix (inBrackets : Bool) (s : JsString) : (cutPort inBrackets s).1 <+: s := by
  induction s generalizing inBrackets with
  | nil => exact List.nil_prefix
  | cons c s ih =>
    rw [cutPort]
    split
    · exact List.nil_prefix
    · exact List.cons_prefix_cons.mpr ⟨rfl, ih _⟩

/-! ## A path without dot segments -/

/-- A path segment that is kept where it is. -/
def IsPlainSegment (s : JsString) : Prop := isDoubleDot s = false ∧ isSingleDot s = false

instance (s : JsString) : Decidable (IsPlainSegment s) := inferInstanceAs (Decidable (_ ∧ _))

/-- Plain segments are kept, each percent-encoded. -/
lemma pathSegments_of_plain {pathSet : List UInt8} {segments : List JsString}
    (h : ∀ s ∈ segments, IsPlainSegment s) (before : List JsString) :
    pathSegments pathSet before segments = before ++ segments.map (percentEncode pathSet) := by
  induction segments generalizing before with
  | nil => simp [pathSegments]
  | cons s segments ih =>
    obtain ⟨⟨hdouble, hsingle⟩, hrest⟩ := List.forall_mem_cons.mp h
    cases segments with
    | nil => simp [pathSegments, hdouble, hsingle]
    | cons t rest =>
      rw [pathSegments, hdouble, hsingle]
      simp only [Bool.false_eq_true, if_false]
      rw [ih hrest, List.append_assoc]
      rfl

/-- A text that is joined from segments is split into them. -/
lemma split_segments {c : CodeUnit} {s : JsString} {rest : List JsString} (hs : c ∉ s)
    (hrest : ∀ t ∈ rest, c ∉ t) : split c (s ++ rest.flatMap (c :: ·)) = s :: rest := by
  induction rest generalizing s with
  | nil => rw [List.flatMap_nil, List.append_nil, split_of_notMem hs]
  | cons t rest ih =>
    obtain ⟨ht, hrest⟩ := List.forall_mem_cons.mp hrest
    rw [List.flatMap_cons, List.cons_append, split_append_cons _ hs, ih ht hrest]

/-- Segments without a slash or a dot segment are a path of themselves. -/
lemma parsePath_segments {pathSet : List UInt8} {segments : List JsString} (hne : segments ≠ [])
    (h : ∀ s ∈ segments, 0x2F ∉ s ∧ 0x5C ∉ s ∧ IsPlainSegment s) :
    parsePath pathSet (segments.flatMap (0x2F :: ·)) =
      segments.flatMap fun s => 0x2F :: percentEncode pathSet s := by
  obtain ⟨s, rest, rfl⟩ := List.exists_cons_of_ne_nil hne
  obtain ⟨hs, hrest⟩ := List.forall_mem_cons.mp h
  have hback : 0x5C ∉ s ++ rest.flatMap (0x2F :: ·) := by
    rw [List.mem_append, not_or, List.mem_flatMap]
    refine ⟨hs.2.1, ?_⟩
    intro ⟨t, ht, hmem⟩
    rw [List.mem_cons] at hmem
    cases hmem with
    | inl hc => exact absurd hc (by decide)
    | inr hmem => exact (hrest t ht).2.1 hmem
  have hplain : ∀ t ∈ s :: rest, IsPlainSegment t := fun t ht => (h t ht).2.2
  rw [parsePath, List.flatMap_cons, List.cons_append, List.drop_succ_cons, List.drop_zero,
    replaceAll_of_notMem hback, split_segments hs.1 fun t ht => (hrest t ht).1,
    pathSegments_of_plain hplain, List.nil_append, List.flatMap_map]

end Js.HttpUrl
