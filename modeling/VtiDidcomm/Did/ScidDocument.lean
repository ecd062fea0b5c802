import VtiDidcomm.Did.ScidWebvh

/-!
# The document of a did:scid DID

What `toScidDidDocument` makes of a did:webvh document. `Rewritten` relates a value to the one that
names the did:scid DID in place of the did:webvh DID, at every depth; `IsScidDocument` says of a
whole document that its values are rewritten outside `alsoKnownAs` and that `alsoKnownAs` is the
controller's list and the two names of the log.

The DID is cut from the DID URL at its first `?src=`, so that an SCID with a `?src=` in it is cut
short: `scid_document_iff` is exact about it.
-/

namespace VtiDidcomm
open Js

/-! ## The specification -/

/-- A value, and the one that names `scidDid` where it named `webvhDid`. -/
inductive Rewritten (webvhDid scidDid : JsString) : Json → Json → Prop where
  | did : Rewritten webvhDid scidDid (.str webvhDid) (.str scidDid)
  | fragment (f : JsString) :
    Rewritten webvhDid scidDid (.str (webvhDid ++ hash :: f)) (.str (scidDid ++ hash :: f))
  | other {value : JsString} :
    value ≠ webvhDid → ¬ webvhDid ++ [hash] <+: value →
    Rewritten webvhDid scidDid (.str value) (.str value)
  | null : Rewritten webvhDid scidDid .null .null
  | bool (b : Bool) : Rewritten webvhDid scidDid (.bool b) (.bool b)
  | num (text : List UInt8) : Rewritten webvhDid scidDid (.num text) (.num text)
  | arr {items items' : List Json} :
    List.Forall₂ (Rewritten webvhDid scidDid) items items' →
    Rewritten webvhDid scidDid (.arr items) (.arr items')
  | obj {members members' : List (JsString × Json)} :
    members.map Prod.fst = members'.map Prod.fst →
    List.Forall₂ (Rewritten webvhDid scidDid) (members.map Prod.snd) (members'.map Prod.snd) →
    Rewritten webvhDid scidDid (.obj members) (.obj members')

/-- A string is a value in `j`, at some depth. -/
inductive HasString (s : JsString) : Json → Prop where
  | here : HasString s (.str s)
  | item {j : Json} {items : List Json} : j ∈ items → HasString s j → HasString s (.arr items)
  | member {k : JsString} {j : Json} {members : List (JsString × Json)} :
    (k, j) ∈ members → HasString s j → HasString s (.obj members)

/-- The members of a document but `alsoKnownAs`. -/
def ownMembers (members : List (JsString × Json)) : List (JsString × Json) :=
  members.filter (·.1 ≠ js "alsoKnownAs")

/-- The entries of an `alsoKnownAs` that is absent, null or an array. -/
def aliasItems : Option Json → Option (List Json)
  | none | some .null => some []
  | some (.arr items) => some items
  | some _ => none

/-- What is added for an entry: nothing where it is there already. -/
def AddedWhereAbsent (entry : Json) (items added : List Json) : Prop :=
  entry ∈ items ∧ added = [] ∨ entry ∉ items ∧ added = [entry]

/-- The document `members'` of `scidDid` made from the document `members` of `webvhDid`. -/
structure IsScidDocument (webvhDid scidDid scidUrl : JsString) (items : List Json)
    (members members' : List (JsString × Json)) : Prop where
  keys : (ownMembers members).map Prod.fst = (ownMembers members').map Prod.fst
  values : List.Forall₂ (Rewritten webvhDid scidDid) ((ownMembers members).map Prod.snd)
    ((ownMembers members').map Prod.snd)
  gone : ∀ s, HasString s (.obj (ownMembers members')) →
    s ≠ webvhDid ∧ ¬ webvhDid ++ [hash] <+: s
  order : members'.map Prod.fst = members.map Prod.fst ∨
    js "alsoKnownAs" ∉ members.map Prod.fst ∧
      members'.map Prod.fst = members.map Prod.fst ++ [js "alsoKnownAs"]
  aliases : ∃ url did, AddedWhereAbsent (.str scidUrl) items url ∧
    AddedWhereAbsent (.str webvhDid) items did ∧
    Json.lookup (js "alsoKnownAs") members' =
      some (.arr (items.filter (fun entry => !isStr scidDid entry) ++ url ++ did))

/-! ## Rewriting a value -/

/-- A string is rewritten. -/
lemma rewritten_rewriteString (webvhDid scidDid value : JsString) :
    Rewritten webvhDid scidDid (.str value) (.str (rewriteString webvhDid scidDid value)) := by
  unfold rewriteString
  by_cases hdid : value = webvhDid
  · rw [if_pos hdid, hdid]
    exact .did
  rw [if_neg hdid]
  by_cases hfrag : startsWith value (webvhDid ++ [hash]) = true
  · obtain ⟨f, rfl⟩ := startsWith_iff.mp hfrag
    rw [if_pos hfrag, List.append_assoc, sliceFrom_append]
    exact .fragment f
  · rw [if_neg hfrag]
    exact .other hdid (mt startsWith_iff.mpr hfrag)

mutual

/-- `rewrite` does what `Rewritten` says, by recursion on the value. -/
theorem rewritten_rewrite (webvhDid scidDid : JsString) :
  ∀ j, Rewritten webvhDid scidDid j (rewrite webvhDid scidDid j)
| .null => .null
| .bool b => .bool b
| .num text => .num text
| .str value => rewritten_rewriteString webvhDid scidDid value
| .arr items => .arr (rewritten_rewriteItems webvhDid scidDid items)
| .obj members => by
  obtain ⟨hkeys, hvalues⟩ := rewritten_rewriteMembers webvhDid scidDid members
  exact .obj hkeys hvalues

/-- The items of an array. -/
theorem rewritten_rewriteItems (webvhDid scidDid : JsString) :
  ∀ items, List.Forall₂ (Rewritten webvhDid scidDid) items (rewriteItems webvhDid scidDid items)
| [] => .nil
| j :: items => .cons (rewritten_rewrite webvhDid scidDid j)
    (rewritten_rewriteItems webvhDid scidDid items)

/-- The members of an object. -/
theorem rewritten_rewriteMembers (webvhDid scidDid : JsString) : ∀ members : List (JsString × Json),
  members.map Prod.fst = (rewriteMembers webvhDid scidDid members).map Prod.fst ∧
    List.Forall₂ (Rewritten webvhDid scidDid) (members.map Prod.snd)
      ((rewriteMembers webvhDid scidDid members).map Prod.snd)
| [] => ⟨rfl, .nil⟩
| (k, j) :: members => by
  obtain ⟨hkeys, hvalues⟩ := rewritten_rewriteMembers webvhDid scidDid members
  constructor
  · simp only [rewriteMembers, List.map_cons]
    rw [hkeys]
  · exact .cons (rewritten_rewrite webvhDid scidDid j) hvalues

end

/-- An item on one side has its counterpart on the other. -/
lemma exists_of_mem_right {α β : Type} {R : α → β → Prop} {as : List α} {bs : List β}
    (h : List.Forall₂ R as bs) {b : β} (hb : b ∈ bs) : ∃ a ∈ as, R a b := by
  induction h with
  | nil => cases hb
  | @cons a b' as bs hab _ ih =>
    cases List.mem_cons.mp hb with
    | inl e => exact ⟨a, by simp, e ▸ hab⟩
    | inr hb =>
      obtain ⟨a', ha', hab'⟩ := ih hb
      exact ⟨a', by simp [ha'], hab'⟩

/-- A did:scid reference is not the did:webvh DID, nor a fragment of it. -/
lemma not_webvh_of_scid {webvhDid s : JsString} (hw : startsWith webvhDid webvhPrefix = true)
    (hs : startsWith s vhPrefix = true) : s ≠ webvhDid ∧ ¬ webvhDid ++ [hash] <+: s := by
  obtain ⟨w, rfl⟩ := startsWith_iff.mp hw
  obtain ⟨t, rfl⟩ := startsWith_iff.mp hs
  -- the two differ at the first letter of the method name
  have hne : vhPrefix[4]? ≠ webvhPrefix[4]? := by decide
  have hl : (vhPrefix ++ t)[4]? = vhPrefix[4]? := List.getElem?_append_left (by decide)
  have hr (u : JsString) : (webvhPrefix ++ u)[4]? = webvhPrefix[4]? :=
    List.getElem?_append_left (by decide)
  constructor
  · intro e
    rw [← hl, ← hr w, e] at hne
    exact hne rfl
  · rintro ⟨u, e⟩
    rw [← hl, ← e, List.append_assoc, List.append_assoc, hr] at hne
    exact hne rfl

/-- After rewriting, no string is the did:webvh DID or one of its fragments. -/
lemma Rewritten.gone {webvhDid scidDid s : JsString} (hw : startsWith webvhDid webvhPrefix = true)
    (hd : startsWith scidDid vhPrefix = true) {j j' : Json} (h : Rewritten webvhDid scidDid j j')
    (hs : HasString s j') : s ≠ webvhDid ∧ ¬ webvhDid ++ [hash] <+: s := by
  induction hs generalizing j with
  | here =>
    cases h with
    | did => exact not_webvh_of_scid hw hd
    | fragment f =>
      apply not_webvh_of_scid hw
      rw [startsWith_iff] at hd ⊢
      exact hd.trans (List.prefix_append _ _)
    | other hne hfrag => exact ⟨hne, hfrag⟩
  | item hmem _ ih =>
    cases h with
    | arr hitems =>
      obtain ⟨i, -, hi⟩ := exists_of_mem_right hitems hmem
      exact ih hi
  | member hmem _ ih =>
    cases h with
    | obj _ hvalues =>
      obtain ⟨i, -, hi⟩ := exists_of_mem_right hvalues (List.mem_map_of_mem hmem)
      exact ih hi

/-- A member of a rewritten object is rewritten. -/
lemma Rewritten.lookup {webvhDid scidDid key : JsString} {members members' : List (JsString × Json)}
    (hkeys : members.map Prod.fst = members'.map Prod.fst)
    (hvalues : List.Forall₂ (Rewritten webvhDid scidDid) (members.map Prod.snd)
      (members'.map Prod.snd)) {j : Json} (h : Json.lookup key members = some j) :
    ∃ j', Json.lookup key members' = some j' ∧ Rewritten webvhDid scidDid j j' := by
  induction members generalizing members' with
  | nil => cases h
  | cons m members ih =>
    cases members' with
    | nil => cases hkeys
    | cons m' members' =>
      obtain ⟨k, v⟩ := m
      obtain ⟨k', v'⟩ := m'
      simp only [List.map_cons, List.cons.injEq] at hkeys
      obtain ⟨rfl, hkeys⟩ := hkeys
      cases hvalues with
      | cons hv hvalues =>
        rw [Json.lookup] at h ⊢
        by_cases hk : k = key
        · rw [if_pos hk] at h ⊢
          cases h
          exact ⟨v', rfl, hv⟩
        · rw [if_neg hk] at h ⊢
          exact ih hkeys hvalues h

/-- The did:webvh DID itself is rewritten to the did:scid DID, and to nothing else. -/
lemma Rewritten.of_did {webvhDid scidDid s : JsString}
    (h : Rewritten webvhDid scidDid (.str webvhDid) (.str s)) : s = scidDid := by
  generalize e : Json.str webvhDid = j at h
  cases h with
  | did => rfl
  | fragment f => simp at e
  | other hne _ => exact absurd (Json.str.inj e).symm hne

/-! ## The members -/

/-- The aliases are not among a document's own members. -/
lemma ownMembers_cons_self (v : Json) (members : List (JsString × Json)) :
    ownMembers ((js "alsoKnownAs", v) :: members) = ownMembers members := by
  simp [ownMembers]

/-- Every other member is. -/
lemma ownMembers_cons_ne {k : JsString} (h : k ≠ js "alsoKnownAs") (v : Json)
    (members : List (JsString × Json)) :
    ownMembers ((k, v) :: members) = (k, v) :: ownMembers members := by
  simp [ownMembers, h]

/-- Setting the aliases leaves a document's own members. -/
lemma ownMembers_setMember (value : Json) (members : List (JsString × Json)) :
    ownMembers (setMember (js "alsoKnownAs") value members) = ownMembers members := by
  induction members with
  | nil => exact ownMembers_cons_self value []
  | cons m members ih =>
    obtain ⟨k, v⟩ := m
    by_cases hk : k = js "alsoKnownAs"
    · subst hk
      simp only [setMember, if_true, ownMembers_cons_self]
    · simp only [setMember, hk, if_false, ownMembers_cons_ne hk, ih]

/-- Own members are rewritten on their own. -/
lemma ownMembers_rewriteMembers (webvhDid scidDid : JsString) (members : List (JsString × Json)) :
    ownMembers (rewriteMembers webvhDid scidDid members) =
      rewriteMembers webvhDid scidDid (ownMembers members) := by
  induction members with
  | nil => rfl
  | cons m members ih =>
    obtain ⟨k, v⟩ := m
    by_cases hk : k = js "alsoKnownAs"
    · subst hk
      simp only [rewriteMembers, ownMembers_cons_self, ih]
    · simp only [rewriteMembers, ownMembers_cons_ne hk, ih]

/-- Every other member is found among them. -/
lemma lookup_ownMembers {key : JsString} (h : key ≠ js "alsoKnownAs")
    (members : List (JsString × Json)) :
    Json.lookup key (ownMembers members) = Json.lookup key members := by
  induction members with
  | nil => rfl
  | cons m members ih =>
    obtain ⟨k, v⟩ := m
    by_cases hk : k = js "alsoKnownAs"
    · subst hk
      rw [ownMembers_cons_self, ih, Json.lookup_cons_ne v members h.symm]
    · simp only [ownMembers_cons_ne hk, Json.lookup, ih]

/-- A member that is set is found. -/
lemma lookup_setMember_self (key : JsString) (value : Json) (members : List (JsString × Json)) :
    Json.lookup key (setMember key value members) = some value := by
  induction members with
  | nil => simp [setMember]
  | cons m members ih =>
    obtain ⟨k, v⟩ := m
    by_cases hk : k = key
    · simp [setMember, hk]
    · simp [setMember, hk, Json.lookup, ih]

/-- Setting a member keeps the names, or adds a new one at the end. -/
lemma keys_setMember (key : JsString) (value : Json) (members : List (JsString × Json)) :
    (setMember key value members).map Prod.fst = members.map Prod.fst ∨
      key ∉ members.map Prod.fst ∧
        (setMember key value members).map Prod.fst = members.map Prod.fst ++ [key] := by
  induction members with
  | nil => exact .inr ⟨by simp, rfl⟩
  | cons m members ih =>
    obtain ⟨k, v⟩ := m
    by_cases hk : k = key
    · left
      simp [setMember, hk]
    · cases ih with
      | inl e =>
        left
        simp [setMember, hk, e]
      | inr h =>
        obtain ⟨hn, e⟩ := h
        right
        simp only [setMember, hk, if_false, List.map_cons, List.mem_cons, e, not_or]
        exact ⟨⟨Ne.symm hk, hn⟩, rfl⟩

/-! ## The alias list -/

/-- The test for a string. -/
lemma isStr_iff {s : JsString} {j : Json} : isStr s j = true ↔ j = .str s := by
  cases j with
  | str t => simp [isStr]
  | null | bool _ | num _ | arr _ | obj _ => simp [isStr]

/-- The test for a string among items. -/
lemma any_isStr_iff {s : JsString} {items : List Json} :
    items.any (isStr s) = true ↔ Json.str s ∈ items := by
  simp [List.any_eq_true, isStr_iff]

/-- An alias is added where it is absent. -/
lemma addAlias_eq {items aliases : List Json} {entry : JsString}
    (h : Json.str entry ∈ aliases ↔ Json.str entry ∈ items) :
    ∃ added, AddedWhereAbsent (.str entry) items added ∧ addAlias aliases entry = aliases ++ added := by
  unfold addAlias
  by_cases hm : Json.str entry ∈ aliases
  · rw [if_pos (any_isStr_iff.mpr hm)]
    exact ⟨[], .inl ⟨h.mp hm, rfl⟩, by simp⟩
  · rw [if_neg (mt any_isStr_iff.mp hm)]
    exact ⟨[.str entry], .inr ⟨mt h.mpr hm, rfl⟩, rfl⟩

/-- The two entries that are pushed differ from each other and from the entry that is dropped. -/
lemma addAliases_eq {items : List Json} {scidDid scidUrl webvhDid : JsString}
    (hurl : scidUrl ≠ scidDid) (hdid : webvhDid ≠ scidDid) (hne : webvhDid ≠ scidUrl) :
    ∃ url did, AddedWhereAbsent (.str scidUrl) items url ∧
      AddedWhereAbsent (.str webvhDid) items did ∧
      addAlias (addAlias (items.filter fun entry => !isStr scidDid entry) scidUrl) webvhDid =
        items.filter (fun entry => !isStr scidDid entry) ++ url ++ did := by
  have hkept {entry : JsString} (h : entry ≠ scidDid) :
      Json.str entry ∈ items.filter (fun entry => !isStr scidDid entry) ↔ Json.str entry ∈ items := by
    simp [isStr, h]
  obtain ⟨url, hurl', e⟩ := addAlias_eq (hkept hurl)
  have hurl_mem : Json.str webvhDid ∉ url := by
    rcases hurl' with ⟨-, rfl⟩ | ⟨-, rfl⟩
    · simp
    · simpa using hne
  have hboth : Json.str webvhDid ∈ items.filter (fun entry => !isStr scidDid entry) ++ url ↔
      Json.str webvhDid ∈ items := by
    rw [List.mem_append, hkept hdid]
    exact or_iff_left hurl_mem
  obtain ⟨did, hdid', e'⟩ := addAlias_eq hboth
  exact ⟨url, did, hurl', hdid', by rw [e, e']⟩

/-- The aliases that are kept are those of the list, without the did:scid. -/
lemma keptAliases_of_aliasItems {v : Option Json} {items : List Json} (scidDid : JsString)
    (h : aliasItems v = some items) :
    keptAliases scidDid v = .ok (items.filter fun entry => !isStr scidDid entry) := by
  cases v with
  | none =>
    cases h
    rfl
  | some j =>
    cases j with
    | null =>
      cases h
      rfl
    | arr items' =>
      cases h
      rfl
    | bool _ | num _ | str _ | obj _ => cases h

/-! ## Where the DID is cut -/

/-- A pattern is not found across the end of a part that its first code unit is not in. -/
lemma indexOfStr_append_left {c : CodeUnit} {p a : JsString} (s : JsString) (h : c ∉ a) :
    indexOfStr (c :: p) (a ++ s) = (indexOfStr (c :: p) s).map (a.length + ·) := by
  induction a with
  | nil => simp
  | cons d a ih =>
    simp only [List.mem_cons, not_or] at h
    have hno : ¬ (c :: p).isPrefixOf (d :: (a ++ s)) = true := by
      rw [List.isPrefixOf_iff_prefix, List.cons_prefix_cons]
      exact fun hp => h.1 hp.1
    rw [List.cons_append, indexOfStr, if_neg hno, ih h.2, Option.map_map]
    simp only [List.length_cons]
    congr 1
    funext n
    simp only [Function.comp_apply]
    omega

/-- A pattern written behind `s` is the first one, unless `s` holds one: two that overlap would
share the first code unit. -/
lemma indexOfStr_append_iff {c : CodeUnit} {p : JsString} (h : c ∉ p) (s post : JsString) :
    indexOfStr (c :: p) (s ++ c :: p ++ post) = some s.length ↔ ¬ c :: p <:+: s := by
  induction s with
  | nil => simp [indexOfStr]
  | cons d s ih =>
    rw [List.infix_cons_iff, not_or, ← ih, List.cons_append, List.cons_append, indexOfStr]
    by_cases hp : c :: p <+: d :: (s ++ c :: p ++ post)
    · rw [if_pos (List.isPrefixOf_iff_prefix.mpr hp)]
      obtain ⟨rfl, htail⟩ := List.cons_prefix_cons.mp hp
      have hlen : p.length ≤ s.length := by
        by_contra hlt
        obtain ⟨rest, hrest⟩ := htail
        have hat : (p ++ rest)[s.length]? = some c := by
          rw [hrest, List.append_assoc, List.getElem?_append_right (le_refl _), Nat.sub_self]
          rfl
        rw [List.getElem?_append_left (by omega)] at hat
        exact h (List.mem_of_getElem? hat)
      have hs : p <+: s := by
        apply List.prefix_of_prefix_length_le htail _ hlen
        rw [List.append_assoc]
        exact List.prefix_append _ _
      simp [hs]
    · have hd : ¬ c :: p <+: d :: s := by
        intro hd
        apply hp
        rw [← List.cons_append, ← List.cons_append, List.append_assoc]
        exact hd.trans (List.prefix_append _ _)
      rw [if_neg (mt List.isPrefixOf_iff_prefix.mp hp), Option.map_eq_some_iff]
      simp only [List.length_cons, hd, not_false_eq_true, true_and]
      constructor
      · rintro ⟨j, hj, e⟩
        rw [hj]
        congr 1
        omega
      · intro hj
        exact ⟨s.length, hj, rfl⟩

/-- The DID URL is cut at its first `?src=`: behind the SCID, unless the SCID holds one itself. -/
lemma indexOfStr_scidUrl (scid location : JsString) :
    ∃ i, indexOfStr (js "?src=") (vhPrefix ++ scid ++ js "?src=" ++ location) = some i ∧
      startsWith (sliceTo (vhPrefix ++ scid ++ js "?src=" ++ location) i) vhPrefix = true ∧
      (sliceTo (vhPrefix ++ scid ++ js "?src=" ++ location) i = vhPrefix ++ scid ↔
        ¬ js "?src=" <:+: scid) := by
  obtain ⟨j, hj, hle⟩ := indexOfStr_le (js "?src=") scid location
  have hi : indexOfStr (js "?src=") (vhPrefix ++ scid ++ js "?src=" ++ location) =
      some (vhPrefix.length + j) := by
    have h := indexOfStr_append_left (p := js "src=") (scid ++ js "?src=" ++ location)
      (show question ∉ vhPrefix by decide)
    rw [List.append_assoc, List.append_assoc, ← List.append_assoc scid]
    exact h.trans (by rw [show question :: js "src=" = js "?src=" from rfl, hj]; rfl)
  have hcut : sliceTo (vhPrefix ++ scid ++ js "?src=" ++ location) (vhPrefix.length + j) =
      vhPrefix ++ scid.take j := by
    rw [sliceTo, List.append_assoc, List.append_assoc, List.take_length_add_append,
      List.take_append_of_le_length hle]
  refine ⟨_, hi, ?_, ?_⟩
  · rw [hcut]
    exact startsWith_append _ _
  · rw [hcut, List.append_cancel_left_eq, List.take_eq_self_iff]
    have hfirst := indexOfStr_append_iff (show question ∉ js "src=" by decide) scid location
    rw [show question :: js "src=" = js "?src=" from rfl, hj, Option.some.injEq] at hfirst
    rw [← hfirst]
    omega

/-! ## The document -/

/-- What `toScidDidDocument` returns, for the DID cut from the DID URL. -/
lemma toScidDidDocument_eq {members : List (JsString × Json)} {items : List Json}
    {scid location : JsString} (hscid : colon ∉ scid)
    (hid : Json.lookup (js "id") members = some (.str (webvhPrefix ++ scid ++ colon :: location)))
    (hitems : aliasItems (Json.lookup (js "alsoKnownAs") members) = some items) :
    let scidUrl := vhPrefix ++ scid ++ js "?src=" ++ replaceAll location colon slash
    let webvhDid := webvhPrefix ++ scid ++ colon :: location
    ∃ i, startsWith (sliceTo scidUrl i) vhPrefix = true ∧
      (sliceTo scidUrl i = vhPrefix ++ scid ↔ ¬ js "?src=" <:+: scid) ∧
      toScidDidDocument (some (.obj members)) = .ok (.obj (setMember (js "alsoKnownAs")
        (.arr (addAlias (addAlias (items.filter fun entry => !isStr (sliceTo scidUrl i) entry) scidUrl)
          webvhDid)) (rewriteMembers webvhDid (sliceTo scidUrl i) members))) := by
  intro scidUrl webvhDid
  obtain ⟨i, hi, hstart, hcut⟩ := indexOfStr_scidUrl scid (replaceAll location colon slash)
  refine ⟨i, hstart, hcut, ?_⟩
  have hweb : startsWith (webvhPrefix ++ scid ++ colon :: location) webvhPrefix = true := by
    rw [List.append_assoc]
    exact startsWith_append _ _
  have hidOf : webvhIdOf (some (.obj members)) = some (webvhPrefix ++ scid ++ colon :: location) := by
    simp only [webvhIdOf, Option.bind_some, Json.get_obj, hid, Json.asString, hweb, if_true]
  simp only [toScidDidDocument, hidOf, webvhToScidDidUrl_eq hscid, hi,
    keptAliases_of_aliasItems _ hitems, ok_bind]
  rfl

/-- The document made under the DID that was cut from the DID URL is the document of that DID. -/
lemma isScidDocument_rewrite {webvhDid scidDid scidUrl : JsString} {items : List Json}
    (members : List (JsString × Json)) (hw : startsWith webvhDid webvhPrefix = true)
    (hd : startsWith scidDid vhPrefix = true) (hu : startsWith scidUrl vhPrefix = true)
    (hurl : scidUrl ≠ scidDid) :
    IsScidDocument webvhDid scidDid scidUrl items members (setMember (js "alsoKnownAs")
      (.arr (addAlias (addAlias (items.filter fun entry => !isStr scidDid entry) scidUrl) webvhDid))
      (rewriteMembers webvhDid scidDid members)) := by
  obtain ⟨hkeys, hvalues⟩ := rewritten_rewriteMembers webvhDid scidDid (ownMembers members)
  obtain ⟨hall, -⟩ := rewritten_rewriteMembers webvhDid scidDid members
  have hdid : webvhDid ≠ scidDid := (not_webvh_of_scid hw hd).1.symm
  have hne : webvhDid ≠ scidUrl := (not_webvh_of_scid hw hu).1.symm
  obtain ⟨url, did, hurl', hdid', e⟩ := @addAliases_eq items _ _ _ hurl hdid hne
  refine ⟨?_, ?_, fun s hs => ?_, ?_, url, did, hurl', hdid', ?_⟩
  · rw [ownMembers_setMember, ownMembers_rewriteMembers]
    exact hkeys
  · rw [ownMembers_setMember, ownMembers_rewriteMembers]
    exact hvalues
  · rw [ownMembers_setMember, ownMembers_rewriteMembers] at hs
    exact (Rewritten.obj hkeys hvalues).gone hw hd hs
  · rw [hall]
    exact keys_setMember _ _ _
  · rw [lookup_setMember_self, e]

/-- A document whose id is a did:webvh DID becomes the document of the did:scid DID of its SCID if
and only if the SCID holds no `?src=`. -/
theorem scid_document_iff {members : List (JsString × Json)} {items : List Json}
    {scid location : JsString} (hscid : colon ∉ scid)
    (hid : Json.lookup (js "id") members = some (.str (webvhPrefix ++ scid ++ colon :: location)))
    (hitems : aliasItems (Json.lookup (js "alsoKnownAs") members) = some items) :
    (∃ members', toScidDidDocument (some (.obj members)) = .ok (.obj members') ∧
      IsScidDocument (webvhPrefix ++ scid ++ colon :: location) (vhPrefix ++ scid)
        (vhPrefix ++ scid ++ js "?src=" ++ replaceAll location colon slash) items members members') ↔
    ¬ js "?src=" <:+: scid := by
  obtain ⟨i, hstart, hcut, hdoc⟩ := toScidDidDocument_eq hscid hid hitems
  have hw : startsWith (webvhPrefix ++ scid ++ colon :: location) webvhPrefix = true := by
    rw [List.append_assoc]
    exact startsWith_append _ _
  have hu : startsWith (vhPrefix ++ scid ++ js "?src=" ++ replaceAll location colon slash)
      vhPrefix = true := by
    rw [List.append_assoc, List.append_assoc]
    exact startsWith_append _ _
  constructor
  · intro ⟨members', h, hspec⟩
    rw [hdoc] at h
    cases h
    -- the id tells which DID the document was rewritten to
    have hown : Json.lookup (js "id") (ownMembers members) =
        some (.str (webvhPrefix ++ scid ++ colon :: location)) := by
      rw [lookup_ownMembers (by decide), hid]
    obtain ⟨j, hj, hrel⟩ := Rewritten.lookup hspec.keys hspec.values hown
    rw [ownMembers_setMember, ownMembers_rewriteMembers, lookup_rewriteMembers, hown] at hj
    cases hj
    simp only [rewrite, rewriteString, if_true] at hrel
    exact hcut.mp hrel.of_did
  · intro hno
    refine ⟨_, hdoc, ?_⟩
    rw [hcut.mpr hno] at hstart ⊢
    apply isScidDocument_rewrite members hw hstart hu
    intro e
    have hlen := congrArg List.length e
    simp [List.length_append, show (js "?src=").length = 5 from rfl] at hlen

/-- A document with a key and an alias list, and its did:scid form. -/
theorem scid_document_example :
    ∃ members', toScidDidDocument (some (.obj [(js "id", .str (js "did:webvh:Qm:a.example")),
        (js "authentication", .arr [.str (js "did:webvh:Qm:a.example#k")]),
        (js "alsoKnownAs", .arr [.str (js "did:scid:vh:1:Qm")])])) = .ok (.obj members') ∧
      IsScidDocument (js "did:webvh:Qm:a.example") (js "did:scid:vh:1:Qm")
        (js "did:scid:vh:1:Qm?src=a.example") [.str (js "did:scid:vh:1:Qm")]
        [(js "id", .str (js "did:webvh:Qm:a.example")),
          (js "authentication", .arr [.str (js "did:webvh:Qm:a.example#k")]),
          (js "alsoKnownAs", .arr [.str (js "did:scid:vh:1:Qm")])] members' :=
  (@scid_document_iff _ _ (js "Qm") (js "a.example") (by decide) rfl rfl).mpr (by decide)

/-- An SCID with a `?src=` in it is cut short: the document gets another DID than the one of its
SCID. -/
theorem scid_document_cut :
    ¬ ∃ members', toScidDidDocument (some (.obj [(js "id", .str (js "did:webvh:a?src=b:c"))])) =
        .ok (.obj members') ∧
      IsScidDocument (js "did:webvh:a?src=b:c") (js "did:scid:vh:1:a?src=b")
        (js "did:scid:vh:1:a?src=b?src=c") [] [(js "id", .str (js "did:webvh:a?src=b:c"))]
        members' := by
  intro ⟨members', h, hspec⟩
  have hdoc : toScidDidDocument (some (.obj [(js "id", .str (js "did:webvh:a?src=b:c"))])) =
      .ok (.obj [(js "id", .str (js "did:scid:vh:1:a")), (js "alsoKnownAs",
        .arr [.str (js "did:scid:vh:1:a?src=b?src=c"), .str (js "did:webvh:a?src=b:c")])]) := rfl
  rw [hdoc] at h
  cases h
  obtain ⟨j, hj, hrel⟩ := @Rewritten.lookup _ _ (js "id") _ _ hspec.keys hspec.values _ rfl
  cases hj
  exact absurd hrel.of_did (by decide)

end VtiDidcomm
