import VtiDidcomm.Client.KeyAgreement

/-!
# Whether the readers of a key-agreement key agree

The three readers of the first entry read the same key of every document in which a reference is
written as the id it names. `vta-rest-auth.js` compares the two exactly and the others up to a
did:scid `src`. The id they return is that of the method as it is written, and
`resolveX25519KeyAgreementKey` looks for it among the ids made absolute. `extractors_agree_iff` is
exact about both.
-/

namespace VtiDidcomm
open Js

/-! ## The methods of a document -/

/-- The id of a verification method. -/
def methodId (v : Json) : Option JsString := Json.asString (v.get (js "id"))

/-- The X25519 key of a verification method, if it can be read. -/
def methodKey (v : Json) : Option Bytes :=
  match Multibase.decodeMultikey (v.get (js "publicKeyMultibase")) with
  | .ok decoded => if isX25519Codec decoded.codec then some decoded.key else none
  | .error _ => none

/-- The methods that a search may reach: those before one that is null. -/
def methodsOf (didDocument : Json) : List Json :=
  ((Json.asArray (didDocument.get (js "verificationMethod"))).getD []).takeWhile
    fun v => !Json.isNullish (some v)

/-- The first method whose id is one of `named`. -/
def methodNamed (didDocument : Json) (named : JsString → Bool) : Option Json :=
  (methodsOf didDocument).find? fun v => (methodId v).any named

/-- The first entry of `keyAgreement`. -/
def firstEntry (didDocument : Json) : Option Json :=
  match didDocument.get (js "keyAgreement") with
  | none => none
  | some ka => if Json.truthy (some ka) = true ∧ hasLengthZero ka = false then firstItem ka else none

/-- The verification method that the first entry is, or names. -/
def firstMethod (didDocument : Json) (same : JsString → JsString → Bool) : Option Json :=
  match firstEntry didDocument with
  | some (.str ref) => methodNamed didDocument (same · ref)
  | entry => entry

/-- The result of a reader of the first entry: the id of the method as it is written, and its key. -/
def readMethod (v : Json) : Option AgreementKey :=
  (methodKey v).map fun key => { kid := v.get (js "id"), x25519Pub := key }

/-! ## Searching -/

/-- A member is read of what is there. -/
lemma member_of_not_nullish {j : Json} (h : Json.isNullish (some j) = false) (key : JsString) :
    member j key = .ok (j.get key) := by
  cases j with
  | null => cases h
  | bool _ | num _ | str _ | arr _ | obj _ => rfl

/-- A search finds the first method that is named, if none before it is null. -/
lemma findMethod_eq_some {isNamed : Option Json → Bool} {methods : List Json} {v : Json} :
    findMethod isNamed methods = .ok (some v) ↔
      (methods.takeWhile fun v => !Json.isNullish (some v)).find? (fun v => isNamed (v.get (js "id"))) =
        some v := by
  induction methods with
  | nil => simp [findMethod]
  | cons m methods ih =>
    cases hm : Json.isNullish (some m) with
    | true =>
      have hnull : m = .null := by
        cases m with
        | null => rfl
        | bool _ | num _ | str _ | arr _ | obj _ => cases hm
      rw [List.takeWhile_cons_of_neg (by simp [hm]), hnull]
      simp [findMethod, member, bind, Except.bind]
    | false =>
      rw [List.takeWhile_cons_of_pos (by simp [hm]), List.find?_cons, findMethod,
        member_of_not_nullish hm, ok_bind]
      cases isNamed (m.get (js "id")) with
      | true => simp [pure, Except.pure]
      | false => simpa using ih

/-- A search in the list of methods, which is empty where there is none, and throws where it is no
list. -/
lemma search_eq_some (didDocument : Json) (isNamed : Option Json → Bool) (v : Json) (e : JsError)
    {methods : Except JsError (List Json)}
    (hmethods : methods = if Json.isNullish (didDocument.get (js "verificationMethod")) then .ok []
      else match Json.asArray (didDocument.get (js "verificationMethod")) with
        | some items => .ok items
        | none => .error e) :
    (methods >>= findMethod isNamed) = .ok (some v) ↔
      (methodsOf didDocument).find? (fun v => isNamed (v.get (js "id"))) = some v := by
  rw [hmethods, methodsOf]
  cases didDocument.get (js "verificationMethod") with
  | none => exact findMethod_eq_some
  | some list =>
    cases list with
    | null => exact findMethod_eq_some
    | arr items => exact findMethod_eq_some
    | bool _ | num _ | str _ | obj _ =>
      constructor
      · intro h
        cases h
      · intro h
        cases h

/-- A reference is dereferenced to the first method it names. -/
lemma Extractor.dereference_eq_ok {x : Extractor} {didDocument : Json} {ref : JsString}
    {vm : Option Json} :
    x.dereference didDocument (some (.str ref)) = .ok vm ↔
      ∃ v, vm = some v ∧
        (methodsOf didDocument).find? (fun v => x.isNamed (v.get (js "id")) ref) = some v := by
  have hsearch (v : Json) := search_eq_some didDocument (x.isNamed · ref) v _
    (show methodList (didDocument.get (js "verificationMethod")) = _ from rfl)
  constructor
  · intro h
    obtain ⟨methods, hmethods, h⟩ := bind_eq_ok.mp h
    obtain ⟨found, hfound, h⟩ := bind_eq_ok.mp h
    obtain ⟨_, hsome, h⟩ := bind_eq_ok.mp h
    cases h
    obtain ⟨v, rfl⟩ := Option.isSome_iff_exists.mp (require_eq_ok.mp hsome)
    exact ⟨v, rfl, (hsearch v).mp (bind_eq_ok.mpr ⟨methods, hmethods, hfound⟩)⟩
  · intro ⟨v, hv, hfound⟩
    subst hv
    obtain ⟨methods, hmethods, hfound⟩ := bind_eq_ok.mp ((hsearch v).mpr hfound)
    apply bind_eq_ok.mpr ⟨methods, hmethods, ?_⟩
    exact bind_eq_ok.mpr ⟨some v, hfound, rfl⟩

/-! ## Reading a method -/

/-- A member that is read is that of a method. -/
lemma memberOf_eq_ok {vm : Option Json} {key : JsString} {value : Option Json} :
    memberOf vm key = .ok value ↔
      ∃ v, vm = some v ∧ Json.isNullish (some v) = false ∧ value = v.get key := by
  cases vm with
  | none => simp [memberOf]
  | some v =>
    cases v with
    | null => simp [memberOf, member, Json.isNullish]
    | bool _ | num _ | str _ | arr _ | obj _ =>
      constructor
      · intro h
        cases h
        exact ⟨_, rfl, rfl, rfl⟩
      · intro ⟨v, hv, _, e⟩
        cases hv
        rw [e]
        rfl

/-- Only a text that is not empty decodes. -/
lemma truthy_of_decodeMultikey {value : Option Json} {decoded : Multibase.Multikey}
    (h : Multibase.decodeMultikey value = .ok decoded) : Json.truthy value = true := by
  unfold Multibase.decodeMultikey at h
  split at h
  · next hs =>
    rw [Json.asString_eq_some.mp hs]
    rfl
  · cases h

/-- The multikey of a method is read before what is made of it. -/
lemma read_eq_ok {vm : Option Json} {e : JsError} {key : AgreementKey}
    {make : Multibase.Multikey → Except JsError AgreementKey} :
    (do
      let multibase ← memberOf vm (js "publicKeyMultibase")
      require (Json.truthy multibase = true) e
      let decoded ← Multibase.decodeMultikey multibase
      make decoded) = .ok key ↔
      ∃ v decoded, vm = some v ∧
        Multibase.decodeMultikey (v.get (js "publicKeyMultibase")) = .ok decoded ∧
        make decoded = .ok key := by
  constructor
  · intro h
    obtain ⟨multibase, hvalue, hread⟩ := bind_eq_ok.mp h
    obtain ⟨v, hv, -, e⟩ := memberOf_eq_ok.mp hvalue
    obtain ⟨_, -, hread⟩ := bind_eq_ok.mp hread
    obtain ⟨decoded, hdecoded, hmake⟩ := bind_eq_ok.mp hread
    exact ⟨v, decoded, hv, e ▸ hdecoded, hmake⟩
  · intro ⟨v, decoded, hv, hdecoded, h⟩
    have hnot : Json.isNullish (some v) = false := by
      cases v with
      | null => cases hdecoded
      | bool _ | num _ | str _ | arr _ | obj _ => rfl
    apply bind_eq_ok.mpr ⟨_, memberOf_eq_ok.mpr ⟨v, hv, hnot, rfl⟩, ?_⟩
    apply bind_eq_ok.mpr ⟨(), require_eq_ok.mpr (truthy_of_decodeMultikey hdecoded), ?_⟩
    exact bind_eq_ok.mpr ⟨decoded, hdecoded, h⟩

/-- The key of a method is its multikey. -/
lemma methodKey_eq_some {v : Json} {key : Bytes} :
    methodKey v = some key ↔
      ∃ decoded, Multibase.decodeMultikey (v.get (js "publicKeyMultibase")) = .ok decoded ∧
        isX25519Codec decoded.codec = true ∧ decoded.key = key := by
  unfold methodKey
  cases Multibase.decodeMultikey (v.get (js "publicKeyMultibase")) with
  | error e => simp
  | ok decoded =>
    by_cases hc : isX25519Codec decoded.codec = true
    · simp [hc]
    · simp [hc]

/-- A key of another codec is an error. -/
lemma notX25519Error_ne_ok (message : JsString) (codec : List UInt8) (key : AgreementKey) :
    notX25519Error message codec ≠ .ok key := by
  intro h
  obtain ⟨_, -, h⟩ := bind_eq_ok.mp h
  obtain ⟨_, -, h⟩ := bind_eq_ok.mp h
  cases h

/-- A method is read as its key and its id. -/
lemma readMethod_eq_some {v : Json} {key : AgreementKey} :
    readMethod v = some key ↔ methodKey v = some key.x25519Pub ∧ key.kid = v.get (js "id") := by
  unfold readMethod
  rw [Option.map_eq_some_iff]
  constructor
  · intro ⟨bytes, hbytes, e⟩
    rw [← e]
    exact ⟨hbytes, rfl⟩
  · intro ⟨hbytes, hkid⟩
    exact ⟨key.x25519Pub, hbytes, by rw [← hkid]⟩

/-- The verification method of the first entry, if the search for it does not fail. -/
lemma Extractor.firstMethod_eq_some {x : Extractor} {same : JsString → JsString → Bool}
    (hnamed : ∀ id ref, x.isNamed id ref = (Json.asString id).any (same · ref)) {didDocument : Json}
    {v : Json} :
    firstMethod didDocument same = some v ↔
      ∃ ka, didDocument.get (js "keyAgreement") = some ka ∧
        (Json.truthy (some ka) = true ∧ hasLengthZero ka = false) ∧
        x.dereference didDocument (firstItem ka) = .ok (some v) := by
  unfold firstMethod firstEntry
  cases didDocument.get (js "keyAgreement") with
  | none => simp
  | some ka =>
    by_cases hka : Json.truthy (some ka) = true ∧ hasLengthZero ka = false
    · simp only [hka, and_self, if_true, true_and, Option.some.injEq, exists_eq_left']
      cases hitem : Json.asString (firstItem ka) with
      | some ref =>
        rw [Json.asString_eq_some.mp hitem, Extractor.dereference_eq_ok]
        simp [methodNamed, methodId, hnamed]
      | none =>
        unfold Extractor.dereference
        rw [hitem]
        split
        · next href =>
          rw [href] at hitem
          cases hitem
        · simp
    · simp [hka]

/-- A reader of the first entry returns the key of the method that the entry is, or names. -/
lemma Extractor.extract_eq_ok {x : Extractor} {same : JsString → JsString → Bool}
    (hnamed : ∀ id ref, x.isNamed id ref = (Json.asString id).any (same · ref)) {didDocument : Json}
    {did : JsString} {key : AgreementKey} :
    x.extract didDocument did = .ok key ↔
      ∃ v, firstMethod didDocument same = some v ∧ readMethod v = some key := by
  simp only [Extractor.firstMethod_eq_some hnamed, readMethod_eq_some, methodKey_eq_some]
  unfold Extractor.extract
  cases didDocument.get (js "keyAgreement") with
  | none => simp
  | some ka =>
    constructor
    · intro h
      obtain ⟨_, hka, h⟩ := bind_eq_ok.mp h
      obtain ⟨vm, hvm, h⟩ := bind_eq_ok.mp h
      obtain ⟨v, decoded, rfl, hdecoded, h⟩ := read_eq_ok.mp h
      split at h
      · next hcodec =>
        cases h
        exact ⟨v, ⟨ka, rfl, require_eq_ok.mp hka, hvm⟩, ⟨decoded, hdecoded, hcodec, rfl⟩, rfl⟩
      · exact absurd h (notX25519Error_ne_ok _ _ _)
    · intro ⟨v, ⟨ka', hka', hreadable, hvm⟩, ⟨decoded, hdecoded, hcodec, hbytes⟩, hkid⟩
      cases hka'
      apply bind_eq_ok.mpr ⟨(), require_eq_ok.mpr hreadable, ?_⟩
      apply bind_eq_ok.mpr ⟨some v, hvm, ?_⟩
      apply read_eq_ok.mpr ⟨v, decoded, rfl, hdecoded, ?_⟩
      rw [if_pos hcodec, hbytes]
      exact congrArg Except.ok (by rw [Option.bind_some, ← hkid])

/-- An id is compared if it is a string. -/
lemma sameReferenceAs_eq (id : Option Json) (ref : JsString) :
    sameReferenceAs id ref = (Json.asString id).any (sameReference · ref) := by
  unfold sameReferenceAs
  cases Json.asString id with
  | none => rfl
  | some id => rfl

/-- What the mediator's extractor returns. -/
lemma extractX25519KeyAgreement_eq_ok {didDocument : Json} {did : JsString} {key : AgreementKey} :
    extractX25519KeyAgreement didDocument did = .ok key ↔
      ∃ v, firstMethod didDocument sameReference = some v ∧ readMethod v = some key :=
  Extractor.extract_eq_ok sameReferenceAs_eq

/-- What the extractor of `vta-didcomm.js` returns. -/
lemma x25519KeyAgreement_eq_ok {didDocument : Json} {did : JsString} {key : AgreementKey} :
    x25519KeyAgreement didDocument did = .ok key ↔
      ∃ v, firstMethod didDocument sameReference = some v ∧ readMethod v = some key :=
  Extractor.extract_eq_ok sameReferenceAs_eq

/-- What the extractor of `vta-rest-auth.js` returns. -/
lemma vtaRecipient_eq_ok {didDocument : Json} {did : JsString} {key : AgreementKey} :
    vtaRecipient didDocument did = .ok key ↔
      ∃ v, firstMethod didDocument (fun id ref => id = ref) = some v ∧ readMethod v = some key := by
  apply Extractor.extract_eq_ok
  intro id ref
  change decide (Json.asString id = some ref) = _
  cases Json.asString id with
  | none => rfl
  | some id => simp

/-! ## The key a `skid` names -/

/-- The id made absolute is the same reference as `kid`. -/
def namesAbsolutely (did kid id : JsString) : Bool :=
  sameReference (if startsWith id (js "#") then did ++ id else id) kid

/-- An id is compared absolutely if it is a string. -/
lemma namesKey_eq (did kid : JsString) (id : Option Json) :
    namesKey did kid id = (Json.asString id).any (namesAbsolutely did kid) := by
  unfold namesKey absoluteId
  cases Json.asString id with
  | none => rfl
  | some id => rfl

/-- A `src` is removed behind the `did:` of a reference. -/
lemma startsWith_did_stripScidSrc (u : JsString) :
    startsWith (stripScidSrc u) (js "did:") = startsWith u (js "did:") := by
  cases stripScidSrc_cases u with
  | inl h => rw [h.1]
  | inr h =>
    obtain ⟨did, src, rest, hs, e⟩ := h
    have hdid : js "did:" <+: did := (show js "did:" <+: scidPrefix by decide).trans
      (startsWith_iff.mp hs.scid)
    rw [e, hs.eq, startsWith_iff.mpr (hdid.trans (List.prefix_append _ _)),
      startsWith_iff.mpr (hdid.trans (List.prefix_append _ _))]

/-- Same references are both DID URLs or both not. -/
lemma startsWith_did_of_sameReference {a b : JsString} (h : sameReference a b = true) :
    startsWith a (js "did:") = startsWith b (js "did:") := by
  rw [← startsWith_did_stripScidSrc a, sameReference_iff.mp h, startsWith_did_stripScidSrc]

/-- A key is resolved if the search for its method succeeds, and the key can be read. -/
lemma x25519KeyAgreementKey_eq_ok {didDocument : Json} {did kid : JsString} {key : AgreementKey} :
    x25519KeyAgreementKey didDocument did kid = .ok key ↔
      ∃ entries v, keyAgreementList (didDocument.get (js "keyAgreement")) = .ok entries ∧
        findKey (methodsFound (didDocument.get (js "verificationMethod"))) did kid entries =
          .ok (some v) ∧
        methodKey v = some key.x25519Pub ∧ key.kid = some (.str kid) := by
  simp only [methodKey_eq_some]
  constructor
  · intro h
    obtain ⟨entries, hentries, h⟩ := bind_eq_ok.mp h
    obtain ⟨vm, hvm, h⟩ := bind_eq_ok.mp h
    obtain ⟨_, -, h⟩ := bind_eq_ok.mp h
    obtain ⟨v, decoded, rfl, hdecoded, h⟩ := read_eq_ok.mp h
    obtain ⟨_, hcodec, h⟩ := bind_eq_ok.mp h
    cases h
    exact ⟨entries, v, hentries, hvm, ⟨decoded, hdecoded, require_eq_ok.mp hcodec, rfl⟩, rfl⟩
  · intro ⟨entries, v, hentries, hvm, ⟨decoded, hdecoded, hcodec, hbytes⟩, hkid⟩
    have htruthy : Json.truthy (some v) = true := by
      cases v with
      | obj _ => rfl
      | null | bool _ | num _ | str _ | arr _ => cases hdecoded
    apply bind_eq_ok.mpr ⟨entries, hentries, ?_⟩
    apply bind_eq_ok.mpr ⟨some v, hvm, ?_⟩
    apply bind_eq_ok.mpr ⟨(), require_eq_ok.mpr htruthy, ?_⟩
    apply read_eq_ok.mpr ⟨v, decoded, rfl, hdecoded, ?_⟩
    apply bind_eq_ok.mpr ⟨(), require_eq_ok.mpr hcodec, ?_⟩
    rw [hbytes]
    exact congrArg Except.ok (by rw [← hkid])

/-- An id that is absolute is compared as it is. -/
lemma namesAbsolutely_of_did {did kid id : JsString} (h : startsWith id (js "did:") = true) :
    namesAbsolutely did kid id = sameReference id kid := by
  obtain ⟨rest, rfl⟩ := startsWith_iff.mp h
  rfl

/-- The loop stops at an entry that names the key, and takes the first method that does. -/
lemma findKey_reference {didDocument w : Json} {did kid ref : JsString} {entries : List Json}
    (hsame : sameReference kid ref = true) (hdid : startsWith kid (js "did:") = true) :
    findKey (methodsFound (didDocument.get (js "verificationMethod"))) did kid
        (.str ref :: entries) = .ok (some w) ↔
      methodNamed didDocument (namesAbsolutely did kid) = some w := by
  have hnames : namesKey did kid (some (.str ref)) = true := by
    rw [namesKey_eq]
    change namesAbsolutely did kid ref = true
    rw [namesAbsolutely_of_did (startsWith_did_of_sameReference hsame ▸ hdid), sameReference_iff]
    exact (sameReference_iff.mp hsame).symm
  rw [findKey, if_pos hnames]
  have hsearch := search_eq_some didDocument (namesKey did kid) w _
    (show methodsFound (didDocument.get (js "verificationMethod")) = _ from rfl)
  apply hsearch.trans
  simp [methodNamed, methodId, namesKey_eq]

/-- An embedded method is found by its own id. -/
lemma findKey_embedded {methods : Except JsError (List Json)} {did kid : JsString} {v : Json}
    {entries : List Json} (hid : methodId v = some kid) (hdid : startsWith kid (js "did:") = true) :
    findKey methods did kid (v :: entries) = .ok (some v) := by
  have hnames : namesKey did kid (v.get (js "id")) = true := by
    rw [namesKey_eq]
    change (methodId v).any (namesAbsolutely did kid) = true
    rw [hid]
    change namesAbsolutely did kid kid = true
    rw [namesAbsolutely_of_did hdid, sameReference_refl]
  cases v with
  | obj members =>
    rw [findKey]
    · exact if_pos hnames
    · simp
  | null | bool _ | num _ | arr _ | str _ => cases hid

/-- The first entry of a value that is no array is no reference to an absolute id. -/
lemma keyAgreementList_eq_ok {didDocument v : Json} {kid : JsString} {entries : List Json}
    (hv : firstMethod didDocument sameReference = some v) (hid : methodId v = some kid)
    (hdid : startsWith kid (js "did:") = true)
    (h : keyAgreementList (didDocument.get (js "keyAgreement")) = .ok entries) :
    didDocument.get (js "keyAgreement") = some (.arr entries) ∧
      firstEntry didDocument = entries.head? := by
  unfold firstMethod firstEntry at hv
  unfold firstEntry
  cases hka : didDocument.get (js "keyAgreement") with
  | none =>
    rw [hka] at hv
    cases hv
  | some ka =>
    rw [hka] at h hv
    cases ka with
    | arr items =>
      cases h
      cases entries with
      | nil => exact ⟨rfl, rfl⟩
      | cons entry entries => exact ⟨rfl, rfl⟩
    | str s =>
      cases s with
      | nil => cases hv
      | cons c s =>
        -- the entry is a text of one code unit
        have hfound : methodNamed didDocument (sameReference · [c]) = some v := hv
        have hsame := List.find?_some hfound
        rw [hid] at hsame
        rw [startsWith_did_of_sameReference (b := [c]) hsame] at hdid
        have hpre := (startsWith_iff.mp hdid).length_le
        cases hpre with
        | step h => cases h
    | null => cases hv
    | bool _ | num _ | obj _ => cases h

/-- The id that a reference was matched to, of the method `v`. -/
lemma reference_names {didDocument v : Json} {kid ref : JsString}
    (hv : firstMethod didDocument sameReference = some v) (hid : methodId v = some kid)
    (hentry : firstEntry didDocument = some (.str ref)) :
    sameReference kid ref = true ∧ v ∈ methodsOf didDocument := by
  rw [firstMethod, hentry] at hv
  have hfound := List.find?_some hv
  rw [hid] at hfound
  exact ⟨hfound, List.mem_of_find?_eq_some hv⟩

/-- The first entry of a list leads to a key, where a reference leads to the same key absolutely. -/
lemma exists_findKey {didDocument v : Json} {did kid : JsString} {bytes : Bytes}
    {entries : List Json} (hv : firstMethod didDocument sameReference = some v)
    (hid : methodId v = some kid) (hdid : startsWith kid (js "did:") = true)
    (hkey : methodKey v = some bytes) (hfirst : firstEntry didDocument = entries.head?)
    (hagree : ∀ ref w, firstEntry didDocument = some (.str ref) →
      methodNamed didDocument (namesAbsolutely did kid) = some w → methodKey w = some bytes) :
    ∃ w, findKey (methodsFound (didDocument.get (js "verificationMethod"))) did kid entries =
      .ok (some w) ∧ methodKey w = some bytes := by
  cases entries with
  | nil =>
    rw [firstMethod, hfirst] at hv
    cases hv
  | cons entry entries =>
    cases hentry : Json.asString (some entry) with
    | some ref =>
      -- the method itself is one that the absolute id names, so that the search finds one
      cases Json.asString_eq_some.mp hentry
      obtain ⟨hnamed, hmem⟩ := reference_names hv hid hfirst
      have hfound : (methodNamed didDocument (namesAbsolutely did kid)).isSome = true := by
        apply List.find?_isSome.mpr ⟨v, hmem, ?_⟩
        rw [hid]
        change namesAbsolutely did kid kid = true
        rw [namesAbsolutely_of_did hdid, sameReference_refl]
      obtain ⟨w, hw⟩ := Option.isSome_iff_exists.mp hfound
      exact ⟨w, (findKey_reference hnamed hdid).mpr hw, hagree ref w hfirst hw⟩
    | none =>
      -- an embedded method is the first one itself
      have e : v = entry := by
        rw [firstMethod, hfirst] at hv
        cases entry with
        | str ref => cases hentry
        | null | bool _ | num _ | arr _ | obj _ => exact (Option.some.inj hv).symm
      rw [← e]
      exact ⟨v, findKey_embedded hid hdid, hkey⟩

/-- The key of the method `v` of the first entry is resolved by the id of `v` if and only if
`keyAgreement` is a list, and a reference leads to the same key after the ids are made absolute. -/
lemma resolves_iff {didDocument v : Json} {did kid : JsString} {bytes : Bytes}
    (hv : firstMethod didDocument sameReference = some v) (hid : methodId v = some kid)
    (hdid : startsWith kid (js "did:") = true) (hkey : methodKey v = some bytes) :
    (∃ own, x25519KeyAgreementKey didDocument did kid = .ok own ∧ own.x25519Pub = bytes) ↔
      (∃ entries, didDocument.get (js "keyAgreement") = some (.arr entries)) ∧
        ∀ ref w, firstEntry didDocument = some (.str ref) →
          methodNamed didDocument (namesAbsolutely did kid) = some w → methodKey w = some bytes := by
  constructor
  · intro ⟨own, hown, hbytes⟩
    obtain ⟨entries, w, hentries, hw, hkey', -⟩ := x25519KeyAgreementKey_eq_ok.mp hown
    obtain ⟨hka, hfirst⟩ := keyAgreementList_eq_ok hv hid hdid hentries
    refine ⟨⟨entries, hka⟩, fun ref w' hentry hw' => ?_⟩
    have hnamed := (reference_names hv hid hentry).1
    rw [hentry] at hfirst
    obtain ⟨rest, rfl⟩ := List.head?_eq_some_iff.mp hfirst.symm
    rw [findKey_reference hnamed hdid, hw', Option.some.injEq] at hw
    rw [hw, hkey', hbytes]
  · intro ⟨⟨entries, hka⟩, hagree⟩
    have hentries : keyAgreementList (didDocument.get (js "keyAgreement")) = .ok entries := by
      rw [hka]
      rfl
    have hfirst := (keyAgreementList_eq_ok hv hid hdid hentries).2
    obtain ⟨w, hw, hbytes⟩ := exists_findKey hv hid hdid hkey hfirst hagree
    exact ⟨⟨some (.str kid), bytes⟩,
      x25519KeyAgreementKey_eq_ok.mpr ⟨entries, w, hentries, hw, hbytes, rfl⟩, rfl⟩

/-! ## The specification -/

/-- An absolute DID URL: `did:`, a method name, and what follows a colon. -/
def IsDidUrl (u : JsString) : Prop :=
  ∃ method rest, u = js "did:" ++ method ++ 0x3A :: rest ∧ method ≠ [] ∧ rest ≠ [] ∧
    ∀ c ∈ method, (0x61 ≤ c ∧ c ≤ 0x7A) ∨ (0x30 ≤ c ∧ c ≤ 0x39)

/-- A DID URL starts with `did:`. -/
lemma IsDidUrl.startsWith {u : JsString} (h : IsDidUrl u) : startsWith u (js "did:") = true := by
  obtain ⟨method, rest, e, -⟩ := h
  rw [e, List.append_assoc]
  exact startsWith_append _ _

/-- The ids of the verification methods differ after they are made absolute. -/
def DistinctIds (didDocument : Json) (did : JsString) : Prop :=
  (((Json.asArray (didDocument.get (js "verificationMethod"))).getD []).filterMap
    fun v => absoluteId did (v.get (js "id"))).Nodup

/-- The three readers of the first entry fail alike or return the same key, and that key is an
absolute one under whose id the document has the same bytes. -/
structure ExtractorsAgree (didDocument : Json) (did : JsString) : Prop where
  mediatorAuth : ∀ key, extractX25519KeyAgreement didDocument did = .ok key ↔
    x25519KeyAgreement didDocument did = .ok key
  vtaRestAuth : ∀ key, vtaRecipient didDocument did = .ok key ↔
    x25519KeyAgreement didDocument did = .ok key
  names : DistinctIds didDocument did → ∀ key, x25519KeyAgreement didDocument did = .ok key →
    ∃ kid, key.kid = some (.str kid) ∧ IsDidUrl kid ∧
      ∃ own, x25519KeyAgreementKey didDocument did kid = .ok own ∧ own.x25519Pub = key.x25519Pub

/-- What a document needs for it. -/
structure ReadsAlike (didDocument : Json) (did : JsString) : Prop where
  /-- If the first entry is a reference, the first method that is the same reference has that very
  id, or neither it nor the first one that has that id has a key. -/
  exact : ∀ ref v, firstEntry didDocument = some (.str ref) →
    methodNamed didDocument (sameReference · ref) = some v →
      methodId v = some ref ∨ (methodKey v = none ∧
        ∀ w, methodNamed didDocument (fun id => id = ref) = some w → methodKey w = none)
  /-- If the method of the first entry has a key, it has an absolute id in a list of entries, and a
  method before it that a reference leads to after its id is made absolute has the same key. -/
  absolute : DistinctIds didDocument did → ∀ v bytes,
    firstMethod didDocument sameReference = some v → methodKey v = some bytes →
      (∃ entries, didDocument.get (js "keyAgreement") = some (.arr entries)) ∧
        ∃ kid, methodId v = some kid ∧ IsDidUrl kid ∧
          ∀ ref w, firstEntry didDocument = some (.str ref) →
            methodNamed didDocument (namesAbsolutely did kid) = some w → methodKey w = some bytes

/-! ## The result -/

/-- The first item that meets a condition, if it meets a stronger one, is the first that does. -/
lemma find?_of_imp {α : Type} {p q : α → Bool} {l : List α} {a : α}
    (hpq : ∀ a, q a = true → p a = true) (hp : l.find? p = some a) (hq : q a = true) :
    l.find? q = some a := by
  induction l with
  | nil => cases hp
  | cons b l ih =>
    rw [List.find?_cons] at hp ⊢
    cases hb : p b with
    | true =>
      rw [hb] at hp
      cases hp
      rw [hq]
    | false =>
      rw [hb] at hp
      have hqb : q b = false := by
        by_contra h
        rw [hpq b (by simpa using h)] at hb
        cases hb
      rw [hqb]
      exact ih hp

/-- The test for a value. -/
lemma any_eq_iff {id : Option JsString} {ref : JsString} :
    id.any (fun id => id = ref) = true ↔ id = some ref := by
  cases id with
  | none => simp
  | some id => simp

/-- A method that is named exactly is one that is named up to a `src`. -/
lemma any_sameReference {v : Json} {ref : JsString}
    (h : (methodId v).any (fun id => id = ref) = true) :
    (methodId v).any (sameReference · ref) = true := by
  rw [any_eq_iff.mp h]
  exact sameReference_refl ref

/-- An entry that is a string refers to a method. -/
lemma firstMethod_of_str {didDocument : Json} {ref : JsString}
    (h : firstEntry didDocument = some (.str ref)) (same : JsString → JsString → Bool) :
    firstMethod didDocument same = methodNamed didDocument (same · ref) := by
  rw [firstMethod, h]

/-- An entry that is no string is the method itself. -/
lemma firstMethod_of_not_str {didDocument : Json} (h : Json.asString (firstEntry didDocument) = none)
    (same : JsString → JsString → Bool) : firstMethod didDocument same = firstEntry didDocument := by
  unfold firstMethod
  split
  · next hentry =>
    rw [hentry] at h
    cases h
  · rfl

/-- The exact reader returns the same key if and only if the reference is the id, or there is no
key. -/
lemma vtaRecipient_iff {didDocument : Json} {did : JsString} :
    (∀ key, vtaRecipient didDocument did = .ok key ↔ x25519KeyAgreement didDocument did = .ok key) ↔
      ∀ ref v, firstEntry didDocument = some (.str ref) →
        methodNamed didDocument (sameReference · ref) = some v →
          methodId v = some ref ∨ (methodKey v = none ∧
            ∀ w, methodNamed didDocument (fun id => id = ref) = some w → methodKey w = none) := by
  simp only [vtaRecipient_eq_ok, x25519KeyAgreement_eq_ok]
  constructor
  · intro h ref v hentry hv
    simp only [firstMethod_of_str hentry] at h
    by_cases hid : methodId v = some ref
    · exact .inl hid
    · have hkey : methodKey v = none := by
        -- a key of `v` would be returned under the id of `v` by one, and under `ref` by the other
        by_contra hkey
        obtain ⟨bytes, hbytes⟩ := Option.ne_none_iff_exists'.mp hkey
        have hread : readMethod v = some ⟨v.get (js "id"), bytes⟩ :=
          readMethod_eq_some.mpr ⟨hbytes, rfl⟩
        obtain ⟨w, hw, hread'⟩ := (h _).mpr ⟨v, hv, hread⟩
        have hkid : v.get (js "id") = w.get (js "id") := (readMethod_eq_some.mp hread').2
        have hexact := List.find?_some hw
        rw [methodId, ← hkid] at hexact
        exact hid (any_eq_iff.mp hexact)
      refine .inr ⟨hkey, fun w hw => ?_⟩
      by_contra hkey'
      obtain ⟨bytes, hbytes⟩ := Option.ne_none_iff_exists'.mp hkey'
      have hread : readMethod w = some ⟨w.get (js "id"), bytes⟩ :=
        readMethod_eq_some.mpr ⟨hbytes, rfl⟩
      obtain ⟨v', hv', hread'⟩ := (h _).mp ⟨w, hw, hread⟩
      cases hv.symm.trans hv'
      rw [(readMethod_eq_some.mp hread').1] at hkey
      cases hkey
  · intro h key
    cases hentry : Json.asString (firstEntry didDocument) with
    | none => rw [firstMethod_of_not_str hentry, firstMethod_of_not_str hentry]
    | some ref =>
      have hentry := Json.asString_eq_some.mp hentry
      rw [firstMethod_of_str hentry, firstMethod_of_str hentry]
      cases hv : methodNamed didDocument (sameReference · ref) with
      | none =>
        have hexact : methodNamed didDocument (fun id => id = ref) = none := by
          apply List.find?_eq_none.mpr
          intro w hw hnamed
          exact List.find?_eq_none.mp hv w hw (any_sameReference hnamed)
        rw [hexact]
      | some v =>
        cases h ref v hentry hv with
        | inl hid =>
          have hexact : methodNamed didDocument (fun id => id = ref) = some v := by
            apply find?_of_imp (fun v => any_sameReference) hv
            exact any_eq_iff.mpr hid
          rw [hexact]
        | inr hno =>
          -- neither method has a key
          constructor
          · intro ⟨w, hw, hread⟩
            cases (hno.2 w hw).symm.trans (readMethod_eq_some.mp hread).1
          · intro ⟨w, hw, hread⟩
            cases hw
            cases hno.1.symm.trans (readMethod_eq_some.mp hread).1

/-- The readers agree if and only if the document reads alike. -/
theorem extractors_agree_iff (didDocument : Json) (did : JsString) :
    ExtractorsAgree didDocument did ↔ ReadsAlike didDocument did := by
  constructor
  · intro h
    refine ⟨vtaRecipient_iff.mp h.vtaRestAuth, fun hdistinct v bytes hv hbytes => ?_⟩
    have hread : readMethod v = some ⟨v.get (js "id"), bytes⟩ := readMethod_eq_some.mpr ⟨hbytes, rfl⟩
    obtain ⟨kid, hid, hurl, hown⟩ :=
      h.names hdistinct _ (x25519KeyAgreement_eq_ok.mpr ⟨v, hv, hread⟩)
    have hid : methodId v = some kid := Json.asString_eq_some.mpr hid
    obtain ⟨hlist, hagree⟩ := (resolves_iff hv hid hurl.startsWith hbytes).mp hown
    exact ⟨hlist, kid, hid, hurl, hagree⟩
  · intro h
    refine ⟨fun key => ?_, vtaRecipient_iff.mpr h.exact, fun hdistinct key hkey => ?_⟩
    · rw [extractX25519KeyAgreement_eq_ok, x25519KeyAgreement_eq_ok]
    · obtain ⟨v, hv, hread⟩ := x25519KeyAgreement_eq_ok.mp hkey
      obtain ⟨hbytes, hkid⟩ := readMethod_eq_some.mp hread
      obtain ⟨hlist, kid, hid, hurl, hagree⟩ := h.absolute hdistinct v _ hv hbytes
      refine ⟨kid, hkid.trans (Json.asString_eq_some.mp hid), hurl, ?_⟩
      exact (resolves_iff hv hid hurl.startsWith hbytes).mpr ⟨hlist, hagree⟩

/-- A document of one method, and a reference to it. -/
def oneMethod (id ref : JsString) : Json :=
  .obj [(js "verificationMethod", .arr [.obj [(js "id", .str id),
      (js "publicKeyMultibase", .str (js "z6LSbgBAXJos6Tik6PNmXeWxKbDUr9Y7hcB9syigVTeXiNmm"))]]),
    (js "keyAgreement", .arr [.str ref])]

/-- A reference with a `src` is resolved by two of the readers only, and a relative id is returned
as it is. -/
theorem extractors_disagree :
    ¬ ExtractorsAgree
        (oneMethod (js "did:scid:vh:1:Qm#key-1") (js "did:scid:vh:1:Qm?src=a.example#key-1"))
        (js "did:scid:vh:1:Qm") ∧
      ¬ ExtractorsAgree (oneMethod (js "#key-1") (js "#key-1")) (js "did:web:a.example") := by
  constructor
  · intro h
    obtain ⟨key, hkey⟩ := exists_of_isOk (x := x25519KeyAgreement
      (oneMethod (js "did:scid:vh:1:Qm#key-1") (js "did:scid:vh:1:Qm?src=a.example#key-1"))
      (js "did:scid:vh:1:Qm")) (by decide +kernel)
    have hrest := (h.vtaRestAuth key).mpr hkey
    cases hrest
  · intro h
    obtain ⟨key, hkey⟩ := exists_of_isOk (x := x25519KeyAgreement
      (oneMethod (js "#key-1") (js "#key-1")) (js "did:web:a.example")) (by decide +kernel)
    obtain ⟨kid, hkid, hurl, -⟩ := h.names (List.pairwise_singleton _ _) key hkey
    obtain ⟨v, hv, hread⟩ := x25519KeyAgreement_eq_ok.mp hkey
    cases hv
    rw [(readMethod_eq_some.mp hread).2] at hkid
    cases hkid
    exact absurd hurl.startsWith (by decide)

end VtiDidcomm
