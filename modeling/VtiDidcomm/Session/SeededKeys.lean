import VtiDidcomm.Did.Reference
import VtiDidcomm.Session.Frames

/-!
# Seeded sender keys

A session's keys are seeded under the DIDs its callers write, and looked up under the identity a
`skid` names and then under its DID. A key is to be found for every `skid` that names it, whatever
`src` the `skid` carries. One seeded under the bare DID is, unless its key id is relative and has a
locator of its own (`seeded_key_found_iff`); one seeded under a did:scid with a `src` is found only
for a `skid` with that `src` (`seeded_key_missed`).
-/

namespace VtiDidcomm
open Js

/-- `senderKeys.set(did, entry)` -/
def seed (keys : JsString → List SenderKey) (did : JsString) (entry : List SenderKey) :
    JsString → List SenderKey :=
  fun d => if d = did then entry else keys d

/-- The `skid` is the same reference as the key's id, and the key can be used. -/
def Names (skid : JsString) (key : SenderKey) : Prop :=
  Json.truthy key.publicJwk = true ∧
    ∃ kid, key.kid = some kid ∧ sameReference (absoluteKid (didOfKid skid) kid) skid = true

/-- Of the keys seeded under `D`, the first one that the `skid` names is the one its frame is opened
with, whatever `resolveSender` is. -/
def SelectsSeeded (keys : JsString → List SenderKey) (D skid : JsString) : Prop :=
  ∀ before key after, Names skid key → (∀ k ∈ before, ¬ Names skid k) →
    ∀ resolveSender, senderFor (seed keys D (before ++ key :: after)) skid resolveSender = .ok key

/-- The keys under `D` are looked up for the `skid`: `D` is the identity the `skid` names, or its
DID as it is written, with no key for the `skid` under its identity. -/
def IsLookedUp (keys : JsString → List SenderKey) (D skid : JsString) : Prop :=
  D = identityOfKid skid ∨ (D = didOfKid skid ∧ ∀ k ∈ keys (identityOfKid skid), ¬ Names skid k)

/-- `kid` is a key id of the DID `D`, as it stands or read against `D`. -/
def IsKeyIdOf (D kid : JsString) : Prop := identityOfKid (absoluteKid D kid) = scidIdentity D

/-- A key of the DID `D` that is seeded under `D` is selected for every `skid` of `D` that names it,
and for every `skid` that differs from such a one in its `src` only. -/
def FoundWhateverSrc (keys : JsString → List SenderKey) (D kid : JsString) : Prop :=
  ∀ jwk, Json.truthy (some jwk) = true → ∀ skid, identityOfKid skid = scidIdentity D →
    sameReference (absoluteKid (didOfKid skid) kid) skid = true →
    ∀ skid', sameReference skid' skid = true → ∀ resolveSender,
      senderFor (seed keys D [⟨some kid, some jwk⟩]) skid' resolveSender = .ok ⟨some kid, some jwk⟩

/-- A relative key id of `D` with a locator in its fragment. -/
def LocatorInKid (D kid : JsString) : Prop :=
  startsWith kid (js "#") = true ∧ LocatorInFragment (scidIdentity D ++ kid)

/-- What becomes of a frame that is opened with `key`. -/
def openedWith (P : Platform) (C : Crypto) (recipient : Recipient) (frame : JsString)
    (key : SenderKey) : Except JsError Unpacked := do
  let result ← unpack P C frame recipient key.publicJwk
  require (result.authenticated = true) unauthenticatedFrame
  pure result

/-- A session's keys: the mediator's own key is seeded over the caller's. -/
lemma Session.Config.keys_eq_seed (cfg : Session.Config) :
    cfg.keys = seed cfg.senderKeys cfg.mediatorDid [cfg.mediatorKey] := rfl

/-- The keys that are seeded are found. -/
lemma seed_self (keys : JsString → List SenderKey) (did : JsString) (entry : List SenderKey) :
    seed keys did entry did = entry := if_pos rfl

/-- The keys of other DIDs stay. -/
lemma seed_ne {keys : JsString → List SenderKey} {did d : JsString} (entry : List SenderKey)
    (h : d ≠ did) : seed keys did entry d = keys d := if_neg h

/-! ## The keys a `skid` names -/

section Names
variable {skid skid' : JsString} {key : SenderKey}

/-- The source's test is `Names`. -/
lemma isNamed_iff : key.isNamed (didOfKid skid) skid = true ↔ Names skid key := by
  rw [SenderKey.isNamed, Bool.and_eq_true, Names]
  cases key.kid <;> simp

/-- The first key that the `skid` names is selected. -/
lemma keyForSkid_append {before : List SenderKey} (after : List SenderKey) (hkey : Names skid key)
    (hbefore : ∀ k ∈ before, ¬ Names skid k) :
    keyForSkid (before ++ key :: after) (didOfKid skid) skid = some key := by
  have hnone : before.find? (·.isNamed (didOfKid skid) skid) = none := by
    rw [List.find?_eq_none]
    exact fun k hk hnamed => hbefore k hk (isNamed_iff.mp hnamed)
  rw [keyForSkid, List.find?_append, hnone, Option.none_or,
    List.find?_cons_of_pos (isNamed_iff.mpr hkey)]

/-- No key is selected where none is named. -/
lemma keyForSkid_eq_none_iff {entry : List SenderKey} :
    keyForSkid entry (didOfKid skid) skid = none ↔ ∀ k ∈ entry, ¬ Names skid k := by
  rw [keyForSkid, List.find?_eq_none]
  exact forall₂_congr fun k _ => not_congr isNamed_iff

/-- A key that is selected is named. -/
lemma names_of_keyForSkid {entry : List SenderKey}
    (h : keyForSkid entry (didOfKid skid) skid = some key) : Names skid key := by
  have hnamed : key.isNamed (didOfKid skid) skid = true := by simpa using List.find?_some h
  exact isNamed_iff.mp hnamed

/-- Without `resolveSender` the key is a seeded one. -/
lemma senderFor_none_iff {keys : JsString → List SenderKey} :
    senderFor keys skid none = .ok key ↔ seededKey keys skid = some key := by
  unfold senderFor
  cases seededKey keys skid with
  | none => simp
  | some k => simp

/-- A key that is selected without `resolveSender` is named. -/
lemma names_of_senderFor {keys : JsString → List SenderKey}
    (h : senderFor keys skid none = .ok key) : Names skid key := by
  obtain hkey | ⟨-, hkey⟩ := Option.or_eq_some_iff.mp (senderFor_none_iff.mp h)
  · exact names_of_keyForSkid hkey
  · exact names_of_keyForSkid hkey

/-- A key id is its own, read against the DID it names. -/
lemma absoluteKid_self (skid : JsString) : absoluteKid (didOfKid skid) skid = skid := by
  unfold absoluteKid
  split
  · rename_i h
    obtain ⟨rest, rfl⟩ := startsWith_iff.mp h
    have hdid : didOfKid (js "#" ++ rest) = [] := by
      have hnil : hash ∉ ([] : JsString) := List.not_mem_nil
      exact splitHead_append_cons rest hnil
    rw [hdid, List.nil_append]
  · rfl

/-- A relative key id is a fragment. -/
lemma isFragment_of_relative {kid : JsString} (h : startsWith kid (js "#") = true) :
    IsFragment kid := by
  obtain ⟨rest, rfl⟩ := startsWith_iff.mp h
  exact .inr ⟨rest, rfl⟩

/-- Read against a DID, a relative key id without a locator names its fragment under the identity. -/
lemma strip_relative {kid : JsString} (h : startsWith kid (js "#") = true)
    (hloc : ¬ LocatorInFragment (identityOfKid skid ++ kid)) :
    stripScidSrc (didOfKid skid ++ kid) = identityOfKid skid ++ kid :=
  stripScidSrc_append (notMem_splitHead hash skid) (isFragment_of_relative h) hloc

/-- A key without a locator in its relative key id is named whatever `src` the `skid` carries. -/
lemma names_congr (h : sameReference skid' skid = true)
    (hkid : ∀ kid, key.kid = some kid → ¬ LocatorInKid (identityOfKid skid) kid) :
    Names skid' key ↔ Names skid key := by
  refine and_congr_right fun _ => exists_congr fun kid => and_congr_right fun heq => ?_
  have hstrip := sameReference_iff.mp h
  have hid : identityOfKid skid' = identityOfKid skid := scidIdentity_congr h
  rw [sameReference_iff, sameReference_iff, hstrip, absoluteKid, absoluteKid]
  split
  · rename_i hrelative
    have hloc : ¬ LocatorInFragment (identityOfKid skid ++ kid) := fun hloc =>
      hkid kid heq ⟨hrelative, by rwa [identityOfKid, scidIdentity_idem]⟩
    rw [strip_relative hrelative hloc, strip_relative hrelative (hid ▸ hloc), hid]
  · rfl

/-- The key that is selected among many is the same whatever `src` the `skid` carries. -/
lemma keyForSkid_congr {entry : List SenderKey} (h : sameReference skid' skid = true)
    (hentry : ∀ k ∈ entry, ∀ kid, k.kid = some kid → ¬ LocatorInKid (identityOfKid skid) kid) :
    keyForSkid entry (didOfKid skid') skid' = keyForSkid entry (didOfKid skid) skid := by
  induction entry with
  | nil => rfl
  | cons k entry ih =>
    have hnamed : k.isNamed (didOfKid skid') skid' = k.isNamed (didOfKid skid) skid := by
      rw [Bool.eq_iff_iff, isNamed_iff, isNamed_iff]
      exact names_congr h (hentry k List.mem_cons_self)
    have hrest := ih fun k hk => hentry k (List.mem_cons_of_mem _ hk)
    simp only [keyForSkid, List.find?_cons, hnamed] at hrest ⊢
    rw [hrest]

end Names

/-! ## When a seeded key is found -/

section Selects
variable {keys : JsString → List SenderKey} {D skid : JsString}

/-- A seeded key is taken without `resolveSender`. -/
lemma senderFor_of_seeded {key : SenderKey} (h : seededKey keys skid = some key)
    (resolveSender : Option ResolveSender) : senderFor keys skid resolveSender = .ok key := by
  simp only [senderFor, h]

/-- Where the keys are looked up, the one selected of them is found. -/
lemma seededKey_of_isLookedUp {entry : List SenderKey} {key : SenderKey} (h : IsLookedUp keys D skid)
    (hkey : keyForSkid entry (didOfKid skid) skid = some key) :
    seededKey (seed keys D entry) skid = some key := by
  unfold seededKey
  rcases h with rfl | ⟨rfl, hnone⟩
  · rw [seed_self, hkey]
    rfl
  · by_cases hid : identityOfKid skid = didOfKid skid
    · rw [hid, seed_self, hkey]
      rfl
    · rw [seed_ne entry hid, keyForSkid_eq_none_iff.mpr hnone, seed_self, hkey]
      rfl

/-- What is looked up for a `skid` is seeded under one way of writing the DID it names. -/
lemma IsLookedUp.identity (h : IsLookedUp keys D skid) : scidIdentity D = identityOfKid skid := by
  rcases h with rfl | ⟨rfl, -⟩
  · exact scidIdentity_idem skid
  · rw [identityOfKid, scidIdentity, scidIdentity, didOfKid,
      splitHead_of_notMem (notMem_splitHead hash skid)]

/-- A locator in a key id depends on the identity. -/
lemma locatorInKid_congr {D' kid : JsString} (h : scidIdentity D = scidIdentity D') :
    LocatorInKid D kid ↔ LocatorInKid D' kid := by
  rw [LocatorInKid, LocatorInKid, h]

/-- Where the keys are looked up, the first that is named is selected. -/
lemma selects_of_isLookedUp (h : IsLookedUp keys D skid) : SelectsSeeded keys D skid :=
  fun _ _ after hkey hbefore =>
    senderFor_of_seeded (seededKey_of_isLookedUp h (keyForSkid_append after hkey hbefore))

/-- The keys of other DIDs cannot stand in for two that differ. -/
lemma isLookedUp_of_two {key key' : SenderKey} (hne : key ≠ key')
    (h : senderFor (seed keys D [key]) skid none = .ok key)
    (h' : senderFor (seed keys D [key']) skid none = .ok key') : IsLookedUp keys D skid := by
  have hone := senderFor_none_iff.mp h
  have htwo := senderFor_none_iff.mp h'
  unfold seededKey at hone htwo
  by_cases hid : identityOfKid skid = D
  · exact .inl hid.symm
  rw [seed_ne _ hid] at hone htwo
  cases hnone : keyForSkid (keys (identityOfKid skid)) (didOfKid skid) skid with
  | some k =>
    rw [hnone, Option.some_or] at hone htwo
    exact absurd (Option.some.inj (hone.symm.trans htwo)) hne
  | none =>
    by_cases hdid : didOfKid skid = D
    · exact .inr ⟨hdid.symm, keyForSkid_eq_none_iff.mp hnone⟩
    · rw [seed_ne _ hdid] at hone htwo
      exact absurd (Option.some.inj (hone.symm.trans htwo)) hne

/-- Where the first key that is named is selected, the keys are looked up. -/
lemma isLookedUp_of_selects (h : SelectsSeeded keys D skid) : IsLookedUp keys D skid := by
  have named (jwk : Json) (hjwk : Json.truthy (some jwk) = true) :
      Names skid ⟨some skid, some jwk⟩ :=
    ⟨hjwk, skid, rfl, by rw [absoluteKid_self]; exact sameReference_refl skid⟩
  have hone := h [] ⟨some skid, some (.bool true)⟩ [] (named _ rfl) nofun none
  have htwo := h [] ⟨some skid, some (.arr [])⟩ [] (named _ rfl) nofun none
  exact isLookedUp_of_two (by simp) hone htwo

end Selects

/-! ## Whatever `src` the `skid` carries -/

section Found
variable {keys : JsString → List SenderKey} {D kid skid skid' : JsString}

/-- A key that is found whatever `src` the `skid` carries is named by each, and looked up for each. -/
lemma FoundWhateverSrc.spec (h : FoundWhateverSrc keys D kid) (hid : identityOfKid skid = scidIdentity D)
    (hnamed : sameReference (absoluteKid (didOfKid skid) kid) skid = true)
    (hsame : sameReference skid' skid = true) :
    sameReference (absoluteKid (didOfKid skid') kid) skid' = true ∧ IsLookedUp keys D skid' := by
  have hone := h (.bool true) rfl skid hid hnamed skid' hsame none
  have htwo := h (.arr []) rfl skid hid hnamed skid' hsame none
  refine ⟨?_, isLookedUp_of_two (by simp) hone htwo⟩
  obtain ⟨-, kid', heq, hsame'⟩ := names_of_senderFor hone
  cases heq
  exact hsame'

/-- The key id that `kid` is read as against the bare DID, a `skid` that names it. -/
lemma exists_skid (h : IsKeyIdOf D kid) :
    ∃ skid, identityOfKid skid = scidIdentity D ∧ skid = absoluteKid (scidIdentity D) kid ∧
      sameReference (absoluteKid (didOfKid skid) kid) skid = true := by
  by_cases hrelative : startsWith kid (js "#") = true
  · have hhash := hash_notMem_scidIdentity D
    have hdid : didOfKid (scidIdentity D ++ kid) = scidIdentity D :=
      splitHead_append_fragment hhash (isFragment_of_relative hrelative)
    refine ⟨_, ?_, rfl, ?_⟩
    · rw [absoluteKid, if_pos hrelative, identityOfKid, scidIdentity,
        show splitHead hash _ = scidIdentity D from hdid]
      have hidem := scidIdentity_idem D
      rwa [scidIdentity, splitHead_of_notMem hhash] at hidem
    · simp only [absoluteKid, if_pos hrelative, hdid]
      exact sameReference_refl _
  · refine ⟨_, ?_, rfl, ?_⟩
    · rw [IsKeyIdOf, absoluteKid, if_neg hrelative] at h
      rwa [absoluteKid, if_neg hrelative]
    · simp only [absoluteKid, if_neg hrelative]
      exact sameReference_refl _

/-- A locator can be written before the fragment of a stripped did:scid reference. -/
lemma exists_src (hscid : startsWith skid scidPrefix = true) (hq : question ∉ identityOfKid skid)
    {src : JsString} (hsrc : IsSrc src) :
    ∃ skid', sameReference skid' skid = true ∧ didOfKid skid' =
        identityOfKid skid ++ question :: (js "src=" ++ src) ∧
      SrcShape skid' (identityOfKid skid) src (fragment (stripScidSrc skid)) := by
  have hhash : hash ∉ identityOfKid skid := hash_notMem_scidIdentity skid
  obtain ⟨e, hf⟩ := splitHead_append_fragment_self (stripScidSrc skid)
  rw [splitHead_stripScidSrc] at e
  have hbase : hash ∉ identityOfKid skid ++ question :: (js "src=" ++ src) := by
    simp only [List.mem_append, List.mem_cons, not_or]
    exact ⟨hhash, by decide, by decide, hsrc.noHash⟩
  have hshape : SrcShape (identityOfKid skid ++ question :: (js "src=" ++ src ++
      fragment (stripScidSrc skid))) (identityOfKid skid) src (fragment (stripScidSrc skid)) :=
    ⟨rfl, startsWith_scidIdentity hscid (by decide) (by decide), hq, hsrc.nonempty, hsrc.noAmp,
      hsrc.noHash, hf⟩
  refine ⟨_, ?_, ?_, hshape⟩
  · rw [sameReference_iff, hshape.strip]
    exact e
  · have hcut := splitHead_append_fragment hbase hf
    rw [didOfKid]
    simpa using hcut

/-- One character is a locator. -/
lemma isSrc_singleton {c : CodeUnit} (hamp : c ≠ ampersand) (hhash : c ≠ hash) : IsSrc [c] where
  nonempty := List.cons_ne_nil _ _
  noAmp hm := hamp (List.mem_singleton.mp hm).symm
  noHash hm := hhash (List.mem_singleton.mp hm).symm

/-- A key that is found whatever the `src` is seeded under the bare DID. -/
lemma FoundWhateverSrc.bare (h : FoundWhateverSrc keys D kid) (hkid : IsKeyIdOf D kid) :
    D = scidIdentity D := by
  obtain ⟨skid, hid, -, hnamed⟩ := exists_skid hkid
  rcases (h.spec hid hnamed (sameReference_refl skid)).2 with hD | ⟨hD, -⟩
  · exact hD.trans hid
  by_contra hne
  -- `D` is the DID of the `skid` with its `src`, so a `skid` with another one is not looked up
  have hstrip : stripScidSrc D ≠ D := by
    have hself : scidIdentity D = stripScidSrc D := by
      rw [scidIdentity, splitHead_of_notMem (hD ▸ notMem_splitHead hash skid)]
    rw [← hself]
    exact Ne.symm hne
  obtain ⟨hself, -⟩ | ⟨did, src, rest, hs, e⟩ := stripScidSrc_cases D
  · exact hstrip hself
  have hdid : identityOfKid skid = did := by
    have hrest := hs.fragment_nil (hD ▸ notMem_splitHead hash skid)
    have hdids : stripScidSrc (didOfKid skid) = stripScidSrc D := by rw [← hD]
    exact hdids.trans (by rw [e, hrest, List.append_nil])
  have hscid : startsWith skid scidPrefix = true := by
    have hprefix : did <+: skid := by
      have hhead := splitHead_isPrefix hash skid
      rw [show splitHead hash skid = D from hD.symm, hs.eq] at hhead
      exact (List.prefix_append _ _).trans hhead
    rw [startsWith_iff]
    exact (startsWith_iff.mp hs.scid).trans hprefix
  have carried (c : CodeUnit) (hamp : c ≠ ampersand) (hhash : c ≠ hash) :
      D = did ++ question :: (js "src=" ++ [c]) := by
    obtain ⟨skid', hsame, hskid', -⟩ :=
      exists_src hscid (hdid ▸ hs.noQuery) (isSrc_singleton hamp hhash)
    rcases (h.spec hid hnamed hsame).2 with hD' | ⟨hD', -⟩
    · exact absurd (hD'.trans ((scidIdentity_congr hsame).trans hid)) hne
    · rw [hD', hskid', hdid]
  have heq := (carried colon (by decide) (by decide)).symm.trans
    (carried slash (by decide) (by decide))
  have htail := List.append_cancel_left heq
  exact absurd htail (by decide)

/-- A key id whose fragment has a locator is not named by every `skid` of one reference. -/
lemma FoundWhateverSrc.noLocator (h : FoundWhateverSrc keys D kid) (hkid : IsKeyIdOf D kid) :
    ¬ LocatorInKid D kid := by
  rintro ⟨hrelative, hloc⟩
  obtain ⟨skid, hid, hskid, hnamed⟩ := exists_skid hkid
  rw [absoluteKid, if_pos hrelative] at hskid
  have hfragment := isFragment_of_relative hrelative
  have hq : question ∉ identityOfKid skid := by
    rw [hid]
    rcases hloc.query with hq | hl
    · rwa [splitHead_append_fragment (hash_notMem_scidIdentity D) hfragment] at hq
    · rw [splitHead_append_fragment (hash_notMem_scidIdentity D) hfragment] at hl
      have hself : stripScidSrc (scidIdentity D) = scidIdentity D := by
        have hidem := scidIdentity_idem D
        rwa [scidIdentity, splitHead_of_notMem (hash_notMem_scidIdentity D)] at hidem
      have hscid : startsWith (scidIdentity D) scidPrefix = true := by
        have := startsWith_splitHead (c := hash) hloc.scid (by decide)
        rwa [splitHead_append_fragment (hash_notMem_scidIdentity D) hfragment] at this
      exact absurd ⟨hscid, hl⟩ (stripScidSrc_eq_self.mp hself)
  rw [← hskid] at hloc
  obtain ⟨skid', hsame, hdid, hshape⟩ := exists_src hloc.scid hq
    (isSrc_singleton (show colon ≠ ampersand by decide) (by decide))
  have hnamed' := (h.spec hid hnamed hsame).1
  rw [sameReference_iff, absoluteKid, if_pos hrelative, hshape.strip, hdid] at hnamed'
  have habsolute : SrcShape (identityOfKid skid ++ question :: (js "src=" ++ [colon]) ++ kid)
      (identityOfKid skid) [colon] kid :=
    ⟨by simp, hshape.scid, hq, hshape.nonempty, hshape.noAmp, hshape.noHash, hfragment⟩
  rw [habsolute.strip] at hnamed'
  -- so the `skid` would be its own stripped form
  have hself : stripScidSrc skid = skid := by
    have e := (splitHead_append_fragment_self (stripScidSrc skid)).1
    rw [splitHead_stripScidSrc] at e
    calc stripScidSrc skid = identityOfKid skid ++ fragment (stripScidSrc skid) := e.symm
      _ = identityOfKid skid ++ kid := hnamed'.symm
      _ = skid := by rw [hid, hskid]
  exact stripScidSrc_eq_self.mp hself (carries_src_iff.mp hloc.carries_src)

/-- A key of the bare DID, without a locator in its relative key id, is found whatever the `src`. -/
lemma foundWhateverSrc (hD : D = scidIdentity D) (hkid : ¬ LocatorInKid D kid) :
    FoundWhateverSrc keys D kid := by
  intro jwk hjwk skid hid hnamed skid' hsame
  have hkid' : ¬ LocatorInKid (identityOfKid skid) kid := by rwa [hid, ← hD]
  have hnames : Names skid' ⟨some kid, some jwk⟩ := by
    refine (names_congr hsame fun kid' heq => ?_).mpr ⟨hjwk, kid, rfl, hnamed⟩
    cases heq
    exact hkid'
  have hlookup : IsLookedUp keys D skid' :=
    .inl (hD.trans ((scidIdentity_congr hsame).trans hid).symm)
  exact selects_of_isLookedUp hlookup [] _ [] hnames nofun

end Found

/-- A key seeded for a DID `D`. (1) The keys seeded under `D` are selected from for a `skid` exactly
when they are looked up for it. (2) Whatever `src` the `skid` carries, a key of `D` is selected
exactly when `D` is written as its own identity, without a `src`, and the key's id, if it is relative,
has no locator. (3) Where the keys under `D`, and under another way of writing it, are looked up for
two such `skid`s, the same key is selected for both. (4) What a frame is then opened with depends on
nothing but the key. -/
theorem seeded_key_found_iff (P : Platform) (C : Crypto) (recipient : Recipient)
    (keys : JsString → List SenderKey) (D : JsString) :
    (∀ skid, SelectsSeeded keys D skid ↔ IsLookedUp keys D skid) ∧
    (∀ kid, IsKeyIdOf D kid →
      (FoundWhateverSrc keys D kid ↔ D = scidIdentity D ∧ ¬ LocatorInKid D kid)) ∧
    (∀ D' skid skid' entry, sameReference skid' skid = true → IsLookedUp keys D skid →
      IsLookedUp keys D' skid' → (∃ k ∈ entry, Names skid k) →
      (∀ k ∈ entry, ∀ kid, k.kid = some kid → ¬ LocatorInKid D kid) →
      ∃ key ∈ entry, Names skid key ∧ ∀ resolveSender resolveSender',
        senderFor (seed keys D entry) skid resolveSender = .ok key ∧
        senderFor (seed keys D' entry) skid' resolveSender' = .ok key) ∧
    (∀ skid frame before key after resolveSender, IsLookedUp keys D skid → skid ≠ [] →
      peekSkid P frame = some skid → Names skid key → (∀ k ∈ before, ¬ Names skid k) →
      unpackInbound P C recipient (seed keys D (before ++ key :: after)) frame resolveSender =
        openedWith P C recipient frame key) := by
  refine ⟨fun skid => ⟨isLookedUp_of_selects, selects_of_isLookedUp⟩, fun kid hkid => ⟨?_, ?_⟩,
    ?_, ?_⟩
  · exact fun h => ⟨h.bare hkid, h.noLocator hkid⟩
  · exact fun h => foundWhateverSrc h.1 h.2
  · intro D' skid skid' entry hsame hlook hlook' ⟨k, hk, hnamed⟩ hkids
    have hdid : scidIdentity D = scidIdentity (identityOfKid skid) :=
      hlook.identity.trans (scidIdentity_idem skid).symm
    have hcongr := keyForSkid_congr hsame fun k hk kid heq =>
      (locatorInKid_congr hdid).not.mp (hkids k hk kid heq)
    cases hkey : keyForSkid entry (didOfKid skid) skid with
    | none => exact absurd hnamed (keyForSkid_eq_none_iff.mp hkey k hk)
    | some key =>
      refine ⟨key, List.mem_of_find?_eq_some hkey, names_of_keyForSkid hkey, fun r r' => ⟨?_, ?_⟩⟩
      · exact senderFor_of_seeded (seededKey_of_isLookedUp hlook hkey) r
      · exact senderFor_of_seeded (seededKey_of_isLookedUp hlook' (hcongr.trans hkey)) r'
  · intro skid frame before key after resolveSender hlook hne hpeek hkey hbefore
    cases skid with
    | nil => exact absurd rfl hne
    | cons c skid =>
      have hsender := selects_of_isLookedUp hlook before key after hkey hbefore resolveSender
      simp only [unpackInbound, hpeek, hsender, ok_bind, openedWith]

/-- A mediator given with a `src` is not recognised by a frame that carries none: whatever its key is,
the frame fails without `resolveSender`, so not every key is found whatever the `src`. -/
theorem seeded_key_missed :
    (∀ jwk, senderFor (seed (fun _ => []) (js "did:scid:vh:1:Qm?src=a.example")
        [⟨some (js "did:scid:vh:1:Qm#key-1"), some jwk⟩]) (js "did:scid:vh:1:Qm#key-1") none =
      .error (Js.error (js
        "mediator-transport: no key did:scid:vh:1:Qm#key-1 for sender did:scid:vh:1:Qm"))) ∧
    ¬ ∀ keys D kid, IsKeyIdOf D kid → FoundWhateverSrc keys D kid := by
  have missed (jwk : Json) : senderFor (seed (fun _ => []) (js "did:scid:vh:1:Qm?src=a.example")
        [⟨some (js "did:scid:vh:1:Qm#key-1"), some jwk⟩]) (js "did:scid:vh:1:Qm#key-1") none =
      .error (Js.error (js
        "mediator-transport: no key did:scid:vh:1:Qm#key-1 for sender did:scid:vh:1:Qm")) := rfl
  refine ⟨missed, fun h => ?_⟩
  have hkid : IsKeyIdOf (js "did:scid:vh:1:Qm?src=a.example") (js "did:scid:vh:1:Qm#key-1") := by
    rw [IsKeyIdOf]
    decide
  have hfound := h (fun _ => []) _ _ hkid (.bool true) rfl (js "did:scid:vh:1:Qm#key-1") (by decide)
    (by decide) (js "did:scid:vh:1:Qm#key-1") (sameReference_refl _) none
  rw [missed] at hfound
  cases hfound

end VtiDidcomm
