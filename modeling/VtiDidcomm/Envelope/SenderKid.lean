import VtiDidcomm.Did.Reference
import VtiDidcomm.Envelope.RoundTrip

/-!
# Locators and identities

A `src` locator never changes the identity a reference names: not when it is stripped, not when it
is added, and so not between two references that name the same thing. What `pack` writes as `skid`
is the sender's kid up to such a locator.
-/

namespace VtiDidcomm
open Js

/-! ## Stripping and adding a locator -/

/-- A bare reference with a `src`: the shape of that `src`. -/
lemma withScidSrc_shape {r src : JsString} (hscid : startsWith r scidPrefix = true)
    (hq : question ∉ r) (hs : slash ∉ r) (hsrc : IsSrc src) :
    ∃ did f, r = did ++ f ∧ hash ∉ did ∧ SrcShape (withScidSrc r src) did src f := by
  rcases withScidSrc_cases r hsrc with e | h
  · -- the reference was given a `src`, so it did change
    exfalso
    have hcond : (!startsWith r scidPrefix || includes r question || includes r slash) = false := by
      simp [hscid, includes_eq_false.mpr hq, includes_eq_false.mpr hs]
    rw [withScidSrc, hcond] at e
    have hlen := congrArg List.length e
    cases hi : indexOf r hash with
    | none =>
      simp [hi, show (js "?src=").length = 5 from rfl] at hlen
    | some i =>
      obtain ⟨pre, post, rfl, -, rfl⟩ := indexOf_eq_some.mp hi
      simp only [hi, Bool.false_eq_true, if_false, sliceTo_append, sliceFrom_append,
        List.length_append, show (js "?src=").length = 5 from rfl] at hlen
      omega
  · exact h

/-- A locator that is written is stripped, and read. -/
lemma stripScidSrc_withScidSrc {r src : JsString} (hscid : startsWith r scidPrefix = true)
    (hq : question ∉ r) (hs : slash ∉ r) (hsrc : IsSrc src) :
    stripScidSrc (withScidSrc r src) = r ∧ scidSrc (withScidSrc r src) = some src := by
  obtain ⟨did, f, rfl, -, hshape⟩ := withScidSrc_shape hscid hq hs hsrc
  exact ⟨hshape.strip, scidSrc_eq_some.mpr ⟨did, f, hshape⟩⟩

/-- Writing a locator keeps the fragment. -/
lemma fragment_withScidSrc (r : JsString) {src : JsString} (hsrc : IsSrc src) :
    fragment (withScidSrc r src) = fragment r := by
  rcases withScidSrc_cases r hsrc with e | ⟨did, f, hr, hh, hshape⟩
  · rw [e]
  · have hbase : hash ∉ did ++ question :: (js "src=" ++ src) := by
      simp only [List.mem_append, List.mem_cons, not_or]
      exact ⟨hh, by decide, by decide, hsrc.noHash⟩
    have hcut : withScidSrc r src = (did ++ question :: (js "src=" ++ src)) ++ f := by
      simp [hshape.eq]
    rw [hcut, fragment_append hbase hshape.isFragment, hr, fragment_append hh hshape.isFragment]

/-! ## The `skid` -/

/-- What a `skid` is to the sender's kid and the claimed `from`: a reference to the same key, that
differs at most by the `src` of a `from` of the same identity. -/
structure IsSkidOf (kid : JsString) (claimed : Option Json) (skid : JsString) : Prop where
  same : sameReference skid kid = true
  identity : scidIdentity skid = scidIdentity kid
  fragment : fragment skid = fragment kid
  src : skid = kid ∨ ∃ from' src, claimed = some (.str from') ∧ scidSrc from' = some src ∧
    scidIdentity kid = scidIdentity from' ∧ scidSrc skid = some src ∧ stripScidSrc skid = kid

/-- A key id is a `skid` for itself. -/
lemma isSkidOf_self (kid : JsString) (claimed : Option Json) : IsSkidOf kid claimed kid :=
  ⟨sameReference_refl kid, rfl, rfl, .inl rfl⟩

/-- What `senderKid` makes of a key id is a `skid` for it. -/
lemma isSkidOf_senderKid (kid : JsString) (claimed : Option Json) :
    IsSkidOf kid claimed (senderKid kid claimed) := by
  unfold senderKid
  cases hstr : Json.asString claimed with
  | none => exact isSkidOf_self kid claimed
  | some from' =>
    have hclaimed := Json.asString_eq_some.mp hstr
    cases hsrc : scidSrc from' with
    | none =>
      simp only [hsrc]
      exact isSkidOf_self kid claimed
    | some src =>
      have hvalid := isSrc_of_scidSrc hsrc
      simp only [hsrc]
      by_cases hid : scidIdentity kid = scidIdentity from'
      · rw [if_neg (not_not.mpr hid)]
        refine ⟨sameReference_withScidSrc kid hvalid, scidIdentity_withScidSrc kid hvalid,
          fragment_withScidSrc kid hvalid, ?_⟩
        by_cases hbare : startsWith kid scidPrefix = true ∧ question ∉ kid ∧ slash ∉ kid
        · obtain ⟨hscid, hq, hs⟩ := hbare
          obtain ⟨hstrip, hadded⟩ := stripScidSrc_withScidSrc hscid hq hs hvalid
          exact .inr ⟨from', src, hclaimed, hsrc, hid, hadded, hstrip⟩
        · -- a kid that is not bare is left as it is
          left
          rw [withScidSrc, if_pos]
          simp only [Bool.or_eq_true, Bool.not_eq_true', includes_iff]
          by_contra hn
          simp only [not_or, Bool.not_eq_false] at hn
          exact hbare ⟨hn.1.1, hn.1.2, hn.2⟩
      · rw [if_pos hid]
        exact isSkidOf_self kid claimed

/-- The protected header that `pack` seals names the `skid`. -/
lemma pack_eq_ok {C : Crypto} {entropy : Entropy} {message : Json} {sender : PackSender}
    {recipient : PackRecipient} {frame : JsString}
    (h : pack C entropy message sender recipient = .ok frame) :
    ∃ apu apv epk encryptedKey iv ciphertext tag, frame = Json.stringify (assembleJwe
      (authcryptHeader apu apv (senderKid sender.kid (message.get (js "from"))) epk) recipient.kid
        encryptedKey iv ciphertext tag) := by
  obtain ⟨s, hs, hframe⟩ := bind_eq_ok.mp h
  cases hframe
  obtain ⟨_, -, hs⟩ := bind_eq_ok.mp hs
  obtain ⟨_, -, hs⟩ := bind_eq_ok.mp hs
  obtain ⟨crv, -, hs⟩ := bind_eq_ok.mp hs
  obtain ⟨senderCrv, -, hs⟩ := bind_eq_ok.mp hs
  obtain ⟨_, -, hs⟩ := bind_eq_ok.mp hs
  obtain ⟨senderPriv, -, hs⟩ := bind_eq_ok.mp hs
  obtain ⟨recipientPub, -, hs⟩ := bind_eq_ok.mp hs
  obtain ⟨epk, -, hs⟩ := bind_eq_ok.mp hs
  obtain ⟨⟨ciphertext, tag⟩, -, hs⟩ := bind_eq_ok.mp hs
  obtain ⟨kek, -, hs⟩ := bind_eq_ok.mp hs
  obtain ⟨encryptedKey, -, hs⟩ := bind_eq_ok.mp hs
  cases hs
  exact ⟨_, _, epk, encryptedKey, _, ciphertext, tag, rfl⟩

/-- References that name the same thing have one identity, `scidIdentity` is idempotent, and a bare
did:scid reference with a `src` is that reference with that `src`, under the same identity. What
`pack` writes as `skid` names the sender's key, and differs from the kid at most by the `src` of a
`from` of the same identity. -/
theorem locator_keeps_identity :
    (∀ a b, sameReference a b = true → scidIdentity a = scidIdentity b) ∧
    (∀ r, scidIdentity (scidIdentity r) = scidIdentity r) ∧
    (∀ r src, startsWith r scidPrefix = true → question ∉ r → slash ∉ r → src ≠ [] →
      ampersand ∉ src → hash ∉ src →
        stripScidSrc (withScidSrc r src) = r ∧ scidSrc (withScidSrc r src) = some src ∧
        scidIdentity (withScidSrc r src) = scidIdentity r) ∧
    ∀ C entropy message sender recipient frame,
      pack C entropy message sender recipient = .ok frame →
        ∃ skid, IsSkidOf sender.kid (message.get (js "from")) skid ∧
          ∃ apu apv epk encryptedKey iv ciphertext tag, frame = Json.stringify (assembleJwe
            (authcryptHeader apu apv skid epk) recipient.kid encryptedKey iv ciphertext tag) := by
  refine ⟨fun a b => scidIdentity_congr, scidIdentity_idem, ?_, ?_⟩
  · intro r src hscid hq hs hne hamp hh
    have hvalid : IsSrc src := ⟨hne, hamp, hh⟩
    obtain ⟨hstrip, hsrc⟩ := stripScidSrc_withScidSrc hscid hq hs hvalid
    exact ⟨hstrip, hsrc, scidIdentity_withScidSrc r hvalid⟩
  · intro C entropy message sender recipient frame h
    exact ⟨_, isSkidOf_senderKid _ _, pack_eq_ok h⟩

/-- A key id with a `src`, and the `skid` that is packed for it. -/
theorem locator_keeps_identity_example :
    scidIdentity (js "did:scid:vh:1:Qm?src=a.example#k") = scidIdentity (js "did:scid:vh:1:Qm#k") ∧
      stripScidSrc (withScidSrc (js "did:scid:vh:1:Qm#k") (js "a.example")) =
        js "did:scid:vh:1:Qm#k" ∧
      ∃ frame skid, pack Crypto.sample Entropy.sample
          (.obj [(js "from", .str (js "did:scid:vh:1:Qm?src=a.example"))])
          ⟨js "did:scid:vh:1:Qm#k", some (KeyPair.sample 5).privateJwk⟩
          ⟨js "did:ex:bob#1", some (KeyPair.sample 6).publicJwk⟩ = .ok frame ∧
        IsSkidOf (js "did:scid:vh:1:Qm#k") (some (.str (js "did:scid:vh:1:Qm?src=a.example"))) skid := by
  obtain ⟨hsame, -, hwith, hpack⟩ := locator_keeps_identity
  obtain ⟨hstrip, -, -⟩ := hwith (js "did:scid:vh:1:Qm#k") (js "a.example") (by decide) (by decide)
    (by decide) (by decide) (by decide) (by decide)
  obtain ⟨epk, kek, ciphertext, tag, encryptedKey, hseal, -⟩ :=
    sealAuthcrypt_ok [(js "from", .str (js "did:scid:vh:1:Qm?src=a.example"))] (KeyPair.sample 5)
      (KeyPair.sample 6) Crypto.sample_lawful (Entropy.sample_fresh .x25519) rfl
      (show js "did:scid:vh:1:Qm#k" ≠ [] by decide) (by decide) (show js "did:ex:bob#1" ≠ [] by decide)
  have hframe := congrArg (· >>= fun s => Except.ok (Json.stringify s.jwe)) hseal
  obtain ⟨skid, hskid, -⟩ := hpack _ _ _ _ _ _ hframe
  exact ⟨hsame _ _ (by decide), hstrip, _, skid, hframe, hskid⟩

end VtiDidcomm
