import VtiDidcomm.Envelope.Unpack

/-!
# Inbound frames

`peekSkid`, `keyForSkid` and `unpackInbound` of `mediator-transport.js`: the key a frame is opened
with is the one its `skid` names, among the seeded keys of the sender or those `resolveSender`
returns.

`unpackInbound_authentic` is what an accepted frame guarantees: the two parsers of the `skid` and
the key that unwrapped the content name one sender. `unpackInbound_refused` says when a frame is
refused for good: it was decrypted, unless `resolveSender` itself threw such an error.
-/

namespace VtiDidcomm
open Js

/-- `E_UNAUTHENTICATED_FRAME` -/
def eUnauthenticatedFrame : JsString := js "E_UNAUTHENTICATED_FRAME"

/-- A sender's key-agreement key: `{ kid, publicJwk }`. -/
structure SenderKey where
  kid : Option JsString
  publicJwk : Option Json

/-- What `resolveSender(did, skid)` settles with: a sender's keys, or an error. -/
abbrev ResolveSender := JsString → JsString → Except JsError (List SenderKey)

/-- `peekSkid`: the `skid` of a frame, read without decrypting. -/
def peekSkid (P : Platform) (jweString : JsString) : Option JsString :=
  match P.parseJson jweString with
  | .error _ => none
  | .ok jwe =>
    match Json.asString (jwe.get (js "protected")) with
    | none => none
    | some text =>
      match Base64url.decodeText text with
      | .error _ => none
      | .ok bytes =>
        match P.parseJson (textDecode bytes) with
        | .error _ => none
        | .ok header => Json.asString (header.get (js "skid"))

/-- `PERMANENTLY_REFUSED.has(err?.code)` -/
def permanentlyRefused (err : JsError) : Bool :=
  err.code = some eSenderMismatch || err.code = some eUnauthenticatedFrame

/-- `absoluteKid` -/
def absoluteKid (did kid : JsString) : JsString :=
  if startsWith kid (js "#") then did ++ kid else kid

/-- Whether a key is the one a `skid` names. -/
def SenderKey.isNamed (did skid : JsString) (k : SenderKey) : Bool :=
  Json.truthy k.publicJwk &&
    match k.kid with
    | none => false
    | some kid => sameReference (absoluteKid did kid) skid

/-- `keyForSkid` -/
def keyForSkid (entry : List SenderKey) (did skid : JsString) : Option SenderKey :=
  entry.find? (·.isNamed did skid)

variable (P : Platform) (C : Crypto) (recipient : Recipient) (senderKeys : JsString → List SenderKey)

/-- The seeded key a `skid` names: the keys of its identity, then those of its DID URL. -/
def seededKey (skid : JsString) : Option SenderKey :=
  (keyForSkid (senderKeys (identityOfKid skid)) (didOfKid skid) skid).or
    (keyForSkid (senderKeys (didOfKid skid)) (didOfKid skid) skid)

/-- The key a `skid` names: a seeded one, or one that `resolveSender` returns; `none` for
`resolveSender` when it is not a function. -/
def senderFor (skid : JsString) (resolveSender : Option ResolveSender) :
    Except JsError SenderKey :=
  let noKey := Js.error (js "mediator-transport: no key " ++ skid ++ js " for sender " ++
    didOfKid skid)
  match seededKey senderKeys skid with
  | some key => .ok key
  | none =>
    match resolveSender with
    | none => .error noKey
    | some resolve =>
      match resolve (didOfKid skid) skid with
      | .error err => .error err
      | .ok entry =>
        match keyForSkid entry (didOfKid skid) skid with
        | none => .error noKey
        | some key => .ok key

/-- The error of a frame that decrypted and carries no authenticated sender. -/
def unauthenticatedFrame : JsError where
  name := js "Error"
  message := js "mediator-transport: inbound frame is not sender-authenticated"
  code := some eUnauthenticatedFrame

/-- `unpackInbound` -/
def unpackInbound (frame : JsString) (resolveSender : Option ResolveSender) :
    Except JsError Unpacked :=
  match peekSkid P frame with
  | none | some [] =>
    .error (error (js
      "mediator-transport: inbound frame has no skid (anoncrypt not supported)"))
  | some (c :: skid) => do
    let sender ← senderFor senderKeys (c :: skid) resolveSender
    let result ← unpack P C frame recipient sender.publicJwk
    require (result.authenticated = true) unauthenticatedFrame
    pure result

/-! ## What an accepted frame guarantees -/

/-- `resolveSender`, asked for the key a `skid` names, settled like this. -/
def Answered (skid : JsString) (resolveSender : Option ResolveSender)
    (answer : Except JsError (List SenderKey)) : Prop :=
  ∃ resolve, resolveSender = some resolve ∧ resolve (didOfKid skid) skid = answer

/-- `key` is a key of the sender `skid` names: seeded under its identity or its DID URL, or returned
by `resolveSender` for them. -/
def IsKeyOf (skid : JsString) (resolveSender : Option ResolveSender)
    (key : SenderKey) : Prop :=
  (key ∈ senderKeys (identityOfKid skid) ∨ key ∈ senderKeys (didOfKid skid) ∨
      ∃ entry, Answered skid resolveSender (.ok entry) ∧ key ∈ entry) ∧
    ∃ kid, key.kid = some kid ∧ sameReference (absoluteKid (didOfKid skid) kid) skid = true

/-- A result speaks for the sender that the frame's `skid` names. -/
structure Authentic (frame : JsString) (resolveSender : Option ResolveSender)
    (r : Unpacked) (skid claimed : JsString) : Prop where
  authenticated : r.authenticated = true
  senderKid : r.senderKid = some skid
  peek : peekSkid P frame = some skid
  senderDid : r.senderDid = some (identityOfKid skid)
  isDid : startsWith (identityOfKid skid) (js "did:") = true
  from_eq : r.message.get (js "from") = some (.str claimed)
  from_noHash : hash ∉ claimed
  from_identity : identityOfKid claimed = identityOfKid skid
  unwrapped : ∃ key o k cek, IsKeyOf senderKeys skid resolveSender key ∧
    Accepts P C frame recipient key.publicJwk r o k cek ∧
    UnwrapsUnder C o k key.publicJwk cek r.legacyKekUsed

variable {P C recipient senderKeys}

/-- A key that is selected is of the entry, and named. -/
lemma keyForSkid_eq_some {entry : List SenderKey} {did skid : JsString} {key : SenderKey}
    (h : keyForSkid entry did skid = some key) :
    key ∈ entry ∧ ∃ kid, key.kid = some kid ∧ sameReference (absoluteKid did kid) skid = true := by
  refine ⟨List.mem_of_find?_eq_some h, ?_⟩
  have hnamed : key.isNamed did skid = true := by simpa using List.find?_some h
  simp only [SenderKey.isNamed, Bool.and_eq_true] at hnamed
  cases hk : key.kid with
  | none => simp [hk] at hnamed
  | some kid =>
    rw [hk] at hnamed
    exact ⟨kid, rfl, hnamed.2⟩

/-- The key a frame is opened with is a key of its sender. -/
lemma senderFor_eq_ok {skid : JsString} {resolveSender : Option ResolveSender}
    {key : SenderKey} (h : senderFor senderKeys skid resolveSender = .ok key) :
    IsKeyOf senderKeys skid resolveSender key := by
  unfold senderFor at h
  cases hseeded : seededKey senderKeys skid with
  | some key' =>
    rw [hseeded] at h
    cases h
    obtain hidentity | ⟨-, hdid⟩ := Option.or_eq_some_iff.mp hseeded
    · obtain ⟨hmem, hkid⟩ := keyForSkid_eq_some hidentity
      exact ⟨.inl hmem, hkid⟩
    · obtain ⟨hmem, hkid⟩ := keyForSkid_eq_some hdid
      exact ⟨.inr (.inl hmem), hkid⟩
  | none =>
    rw [hseeded] at h
    cases resolveSender with
    | none => cases h
    | some resolve =>
      cases hanswer : resolve (didOfKid skid) skid with
      | error err =>
        simp only [hanswer] at h
        cases h
      | ok entry =>
        simp only [hanswer] at h
        split at h
        · cases h
        · rename_i key' hkey
          cases h
          obtain ⟨hmem, hkid⟩ := keyForSkid_eq_some hkey
          exact ⟨.inr (.inr ⟨entry, ⟨resolve, rfl, hanswer⟩, hmem⟩), hkid⟩

/-- What is returned was parsed. -/
lemma parseOr_eq_ok {label text : JsString} {j : Json} (h : parseOr P label text = .ok j) :
    P.parseJson text = .ok j := by
  unfold parseOr at h
  split at h
  · rename_i j' hj
    cases h
    exact hj
  · cases h

/-- The `skid` that is peeked at is that of the header. -/
lemma peekSkid_of_readJwe {frame : JsString} {jwe header : Json} {recipients : List Json}
    {alg : Option Json} (h : readJwe P frame = .ok (jwe, recipients, header, alg)) :
    peekSkid P frame = Json.asString (header.get (js "skid")) := by
  obtain ⟨jwe', hjwe, h⟩ := bind_eq_ok.mp h
  obtain ⟨recipients', -, h⟩ := bind_eq_ok.mp h
  obtain ⟨header', hheader, h⟩ := bind_eq_ok.mp h
  obtain ⟨alg', -, h⟩ := bind_eq_ok.mp h
  cases h
  obtain ⟨bytes, hbytes, hparse⟩ := bind_eq_ok.mp hheader
  unfold Base64url.decode at hbytes
  split at hbytes
  · cases hbytes
  · rename_i text htext
    simp only [peekSkid, parseOr_eq_ok hjwe, htext, hbytes, parseOr_eq_ok hparse]

/-- A message claims a DID as its `from` does. -/
lemma claimsSender_iff {message : Json} {senderDid : JsString} :
    claimsSender message senderDid = true ↔ startsWith senderDid (js "did:") = true ∧
      ∃ claimed, message.get (js "from") = some (.str claimed) ∧ hash ∉ claimed ∧
        identityOfKid claimed = senderDid := by
  unfold claimsSender
  rw [Bool.and_eq_true]
  apply and_congr_right
  intro _
  cases hf : Json.asString (message.get (js "from")) with
  | none =>
    simp only [Bool.false_eq_true, false_iff, not_exists]
    rintro claimed ⟨h, -⟩
    rw [h] at hf
    cases hf
  | some claimed =>
    rw [Json.asString_eq_some] at hf
    simp only [hf, Bool.and_eq_true, Bool.not_eq_true', includes_eq_false, decide_eq_true_eq,
      Option.some.injEq, Json.str.injEq, exists_eq_left']

/-- The `skid` of an authenticated frame is the one that is read without decrypting. -/
lemma peekSkid_of_unpack {frame : JsString} {sender : Option Json} {r : Unpacked}
    (h : unpack P C frame recipient sender = .ok r) (hauth : r.authenticated = true) :
    ∃ skid, r.senderKid = some skid ∧ peekSkid P frame = some skid := by
  obtain ⟨o, k, cek, haccepts, hcase⟩ := unpack_eq_ok h
  obtain ⟨jwe, recipients, alg, hread, -⟩ := openJwe_eq_ok haccepts.opened
  obtain ⟨-, -, skid, hskid, hkid, -⟩ | ⟨-, hfalse, -⟩ := hcase
  · refine ⟨skid, hkid, ?_⟩
    rw [peekSkid_of_readJwe hread, hskid]
    rfl
  · rw [hfalse] at hauth
    cases hauth

/-- What `unpackInbound` returns speaks for the sender the frame's `skid` names. -/
lemma unpackInbound_authentic {frame : JsString}
    {resolveSender : Option ResolveSender} {r : Unpacked}
    (h : unpackInbound P C recipient senderKeys frame resolveSender = .ok r) :
    ∃ skid claimed, Authentic P C recipient senderKeys frame resolveSender r skid claimed := by
  unfold unpackInbound at h
  split at h
  · cases h
  · cases h
  rename_i c skid hpeek
  obtain ⟨key, hkey, h⟩ := bind_eq_ok.mp h
  obtain ⟨r', hunpack, h⟩ := bind_eq_ok.mp h
  obtain ⟨_, hauth, h⟩ := bind_eq_ok.mp h
  cases h
  have hauth := require_eq_ok.mp hauth
  obtain ⟨skid', hkid', hpeek'⟩ := peekSkid_of_unpack hunpack hauth
  obtain rfl : c :: skid = skid' := Option.some.inj (hpeek.symm.trans hpeek')
  obtain ⟨o, k, cek, haccepts, hcase⟩ := unpack_eq_ok hunpack
  obtain ⟨-, -, skid'', -, hkid, hdid, hclaims, hunder⟩ | ⟨-, hfalse, -⟩ := hcase
  · obtain rfl : c :: skid = skid'' := Option.some.inj (hkid'.symm.trans hkid)
    obtain ⟨hisDid, claimed, hfrom, hnoHash, hidentity⟩ := claimsSender_iff.mp hclaims
    exact ⟨c :: skid, claimed, hauth, hkid, hpeek, hdid, hisDid, hfrom, hnoHash, hidentity, key, o, k,
      cek, senderFor_eq_ok hkey, haccepts, hunder⟩
  · rw [hfalse] at hauth
    cases hauth

/-- A frame that unpacks with the key of its `skid` is accepted. -/
lemma unpackInbound_of_unpack {frame skid : JsString}
    {resolveSender : Option ResolveSender} {key : SenderKey} {r : Unpacked}
    (hkey : senderFor senderKeys skid resolveSender = .ok key)
    (h : unpack P C frame recipient key.publicJwk = .ok r) (hauth : r.authenticated = true)
    (hskid : r.senderKid = some skid) (hne : skid ≠ []) :
    unpackInbound P C recipient senderKeys frame resolveSender = .ok r := by
  obtain ⟨skid', hskid', hpeek⟩ := peekSkid_of_unpack h hauth
  obtain rfl : skid = skid' := Option.some.inj (hskid.symm.trans hskid')
  cases skid with
  | nil => exact absurd rfl hne
  | cons c skid =>
    simp only [unpackInbound, hpeek, hkey, h, ok_bind, require_of hauth]
    rfl

/-- A frame whose header names ECDH-ES. -/
def IsAnoncrypt (P : Platform) (frame : JsString) : Prop :=
  ∃ jwe recipients header, readJwe P frame = .ok (jwe, recipients, header, some (.str algAnoncrypt))

/-- A frame that names the anonymous algorithm is opened without a sender, whatever it claims. -/
lemma unpack_anoncrypt {frame : JsString} {sender : Option Json} {r : Unpacked}
    (halg : IsAnoncrypt P frame) (h : unpack P C frame recipient sender = .ok r) :
    r.authenticated = false ∧ r.senderKid = none ∧ r.senderDid = none := by
  obtain ⟨jwe, recipients, header, halg⟩ := halg
  obtain ⟨o, k, cek, haccepts, hcase⟩ := unpack_eq_ok h
  obtain ⟨jwe', recipients', alg, hread, hauth, -⟩ := openJwe_eq_ok haccepts.opened
  have hparts := hread.symm.trans halg
  simp only [Except.ok.injEq, Prod.mk.injEq] at hparts
  obtain ⟨-, -, -, rfl⟩ := hparts
  have hne : ¬ (Json.asString (some (.str algAnoncrypt)) = some algAuthcrypt) := by decide
  obtain ⟨htrue, -⟩ | ⟨-, hr⟩ := hcase
  · rw [hauth, decide_eq_true_eq] at htrue
    exact absurd htrue hne
  · exact hr

/-- An anoncrypt frame is not. -/
lemma unpackInbound_anoncrypt {frame : JsString} (halg : IsAnoncrypt P frame)
    (resolveSender : Option ResolveSender) (r : Unpacked) :
    unpackInbound P C recipient senderKeys frame resolveSender ≠ .ok r := by
  intro h
  unfold unpackInbound at h
  split at h
  · cases h
  · cases h
  obtain ⟨key, -, h⟩ := bind_eq_ok.mp h
  obtain ⟨r', hunpack, h⟩ := bind_eq_ok.mp h
  obtain ⟨_, hauth, -⟩ := bind_eq_ok.mp h
  have htrue := require_eq_ok.mp hauth
  rw [(unpack_anoncrypt halg hunpack).1] at htrue
  cases htrue

/-! ## What a refused frame went through -/

/-- A computation whose errors carry no `code`. -/
def Uncoded {α : Type} (x : Except JsError α) : Prop := ∀ err, x = .error err → err.code = none

namespace Uncoded
variable {α β : Type}

/-- A value throws nothing. -/
lemma ok (a : α) : Uncoded (.ok a : Except JsError α) := nofun

/-- What is returned throws nothing. -/
lemma pure (a : α) : Uncoded (Pure.pure a : Except JsError α) := nofun

/-- An error without a code is thrown without one. -/
lemma error {err : JsError} (h : err.code = none) : Uncoded (.error err : Except JsError α) := by
  rintro _ ⟨⟩
  exact h

/-- Two steps throw without a code when each does. -/
lemma bind {x : Except JsError α} {f : α → Except JsError β} (hx : Uncoded x)
    (hf : ∀ a, Uncoded (f a)) : Uncoded (x >>= f) := by
  cases x with
  | error err =>
    rintro err' ⟨⟩
    exact hx err rfl
  | ok a => exact hf a

/-- A branch throws without a code when both branches do. -/
lemma ite {c : Prop} [Decidable c] {x y : Except JsError α} (hx : Uncoded x) (hy : Uncoded y) :
    Uncoded (if c then x else y) := by
  split
  · exact hx
  · exact hy

/-- A check throws without a code when its error has none. -/
lemma require {c : Prop} [Decidable c] {err : JsError} (h : err.code = none) :
    Uncoded (require c err) := by
  unfold Js.require
  split
  · exact ok ()
  · exact error h

/-- The errors of a library carry no code of the session. -/
lemma raised (x : Except Exception α) : Uncoded (raised x) := by
  cases x with
  | error e => exact error rfl
  | ok a => exact ok a

/-- `parseOr` throws without a code. -/
lemma parseOr (label text : JsString) : Uncoded (parseOr P label text) := by
  unfold VtiDidcomm.parseOr
  split
  · exact ok _
  · exact error rfl

/-- `decodeLoop` throws without a code. -/
lemma decodeLoop (i n bits : Nat) (s : JsString) : Uncoded (Base64url.decodeLoop i n bits s) := by
  induction s generalizing i n bits with
  | nil => exact ok []
  | cons c s ih =>
    unfold Base64url.decodeLoop
    split
    · exact error rfl
    dsimp only
    split
    · exact bind (x := Base64url.decodeLoop _ _ _ s) (ih _ _ _) fun _ => ok _
    · exact ih _ _ _

/-- `decode` throws without a code. -/
lemma decode (v : Option Json) : Uncoded (Base64url.decode v) := by
  unfold Base64url.decode
  split
  · exact error rfl
  unfold Base64url.decodeText
  dsimp only
  split
  · exact error rfl
  · exact decodeLoop _ _ _ _

/-- `member` throws without a code. -/
lemma member (j : Json) (key : JsString) : Uncoded (member j key) := by
  unfold VtiDidcomm.member
  split
  · exact error rfl
  · exact ok _

/-- `assertShape` throws without a code. -/
lemma assertShape (jwk : Option Json) : Uncoded (Jwk.assertShape jwk) :=
  bind (require rfl) fun _ =>
    ite (bind (require rfl) fun _ => require rfl)
      (ite (bind (require rfl) fun _ => require rfl) (error rfl))

/-- `curveOf` throws without a code. -/
lemma curveOf (jwk : Option Json) : Uncoded (Jwk.curveOf jwk) :=
  bind (assertShape jwk) fun _ => pure _

/-- `rawPublic` throws without a code. -/
lemma rawPublic (jwk : Option Json) : Uncoded (Jwk.rawPublic C jwk) :=
  bind (assertShape jwk) fun _ =>
    ite
      (bind (decode _) fun _ => bind (decode _) fun _ => bind (require rfl) fun _ =>
        bind (require rfl) fun _ => bind (require rfl) fun _ => bind (raised _) fun _ => pure _)
      (bind (decode _) fun bytes => bind (require rfl) fun _ => pure bytes)

/-- `rawPrivate` throws without a code. -/
lemma rawPrivate (jwk : Option Json) : Uncoded (Jwk.rawPrivate jwk) :=
  bind (assertShape jwk) fun _ => bind (require rfl) fun _ => bind (decode _) fun bytes =>
    bind (require rfl) fun _ => pure bytes

/-- `assertFields` throws without a code. -/
lemma assertFields (jwe : Json) (fields : List JsString) : Uncoded (assertFields jwe fields) := by
  induction fields with
  | nil => exact ok ()
  | cons field fields ih => exact bind (require rfl) fun _ => ih

/-- `assertJweShape` throws without a code. -/
lemma assertJweShape (jwe : Json) : Uncoded (assertJweShape jwe) := by
  refine bind (require rfl) fun _ => bind (assertFields jwe _) fun _ => ?_
  split
  · exact pure _
  · exact error rfl

/-- `epkCurve` throws without a code. -/
lemma epkCurve (epk : Option Json) : Uncoded (epkCurve epk) :=
  bind (require rfl) fun _ => ite (pure _) (ite (pure _) (error rfl))

/-- `readJwe` throws without a code. -/
lemma readJwe (jweJson : JsString) : Uncoded (readJwe P jweJson) :=
  bind (parseOr _ _) fun jwe => bind (assertJweShape jwe) fun _ =>
    bind (bind (decode _) fun _ => parseOr _ _) fun header => bind (member header _) fun _ => pure _

/-- `openJwe` throws without a code. -/
lemma openJwe (jweJson : JsString) (recipient : Recipient) (sender : Option Json) :
    Uncoded (openJwe P jweJson recipient sender) := by
  refine bind (require rfl) fun _ => bind (readJwe jweJson) fun read => ?_
  refine bind (require rfl) fun _ => bind (require rfl) fun _ => bind (epkCurve _) fun _ => ?_
  refine bind (require rfl) fun _ => bind (require rfl) fun _ => ?_
  split
  · exact error rfl
  · exact bind (require rfl) fun _ => bind (decode _) fun _ => bind (decode _) fun _ =>
      bind (decode _) fun _ => pure _

/-- `partyInfo` throws without a code. -/
lemma partyInfo (v : Option Json) : Uncoded (partyInfo v) := ite (decode v) (ok [])

/-- `kekInputs` throws without a code. -/
lemma kekInputs (o : Opened) (recipient : Recipient) : Uncoded (kekInputs C o recipient) :=
  bind (curveOf _) fun _ => bind (require rfl) fun _ => bind (rawPrivate _) fun _ =>
    bind (rawPublic _) fun _ => bind (partyInfo _) fun _ => bind (partyInfo _) fun _ =>
    bind (decode _) fun _ => pure _

/-- `sharedSecret` throws without a code. -/
lemma sharedSecret (crv : Curve) (a B : Bytes) : Uncoded (sharedSecret C crv a B) := by
  cases crv with
  | x25519 => exact bind (require rfl) fun _ => bind (require rfl) fun _ => raised _
  | p256 => exact bind (require rfl) fun _ => bind (raised _) fun _ => pure _

/-- `lengthPrefix` throws without a code. -/
lemma lengthPrefix (bytes : Bytes) : Uncoded (lengthPrefix bytes) :=
  bind (bind (require rfl) fun _ => pure _) fun _ => pure _

/-- `digests` throws without a code. -/
lemma digests (z otherInfo : Bytes) (i reps : Nat) : Uncoded (digests C z otherInfo i reps) := by
  induction reps generalizing i with
  | zero => exact pure []
  | succ reps ih =>
    exact bind (bind (require rfl) fun _ => pure _) fun _ => bind (ih (i + 1)) fun _ => pure _

/-- `deriveKey` throws without a code. -/
lemma deriveKey (z : Bytes) (info : OtherInfo) (bits : Nat) : Uncoded (deriveKey C z info bits) := by
  have hsupp : Uncoded info.supp := by
    unfold OtherInfo.supp
    split
    · exact pure []
    · exact ite (pure _) (lengthPrefix _)
  exact bind (require rfl) fun _ => bind (require rfl) fun _ => bind hsupp fun _ =>
    bind (lengthPrefix _) fun _ => bind (lengthPrefix _) fun _ => bind (lengthPrefix _) fun _ =>
    bind (bind (require rfl) fun _ => pure _) fun _ => bind (digests _ _ _ _) fun _ => pure _

/-- `unwrapKey` throws without a code. -/
lemma unwrapKey (kek wrapped : Bytes) : Uncoded (unwrapKey C kek wrapped) :=
  bind (require rfl) fun _ => raised _

/-- `recipientKekAuthcrypt` throws without a code. -/
lemma recipientKekAuthcrypt (r E S : Bytes) (info : OtherInfo) (crv : Curve) :
    Uncoded (recipientKekAuthcrypt C r E S info crv) :=
  bind (sharedSecret crv r E) fun _ => bind (sharedSecret crv r S) fun _ => deriveKey _ _ _

/-- `unwrapCek` throws without a code. -/
lemma unwrapCek (o : Opened) (k : KekInputs) (sender : Option Json) :
    Uncoded (unwrapCek C o k sender) := by
  apply ite
  · refine bind (require rfl) fun _ => bind (curveOf _) fun _ => bind (require rfl) fun _ => ?_
    refine bind (rawPublic _) fun _ => bind (recipientKekAuthcrypt _ _ _ _ _) fun _ => ?_
    split
    · exact pure _
    · exact bind (recipientKekAuthcrypt _ _ _ _ _) fun _ => bind (unwrapKey _ _) fun _ => pure _
  · exact bind (bind (sharedSecret _ _ _) fun _ => deriveKey _ _ _) fun _ =>
      bind (unwrapKey _ _) fun _ => pure _

/-- `readMessage` throws without a code. -/
lemma readMessage (o : Opened) (cek : Bytes) : Uncoded (readMessage P C o cek) := by
  have hcontent : Uncoded (decryptContent C o cek) := by
    unfold decryptContent
    split
    · exact ok _
    · exact error rfl
  refine bind hcontent fun _ => bind (parseOr _ _) fun message => ?_
  cases message with
  | obj members => exact pure _
  | _ => exact error rfl

end Uncoded

/-- A frame that was decrypted with a key: its content is a JSON object. -/
def Decrypts (P : Platform) (C : Crypto) (frame : JsString) (recipient : Recipient)
    (sender : Option Json) : Prop :=
  ∃ o k cek legacy message, openJwe P frame recipient sender = .ok o ∧
    kekInputs C o recipient = .ok k ∧ unwrapCek C o k sender = .ok (cek, legacy) ∧
    readMessage P C o cek = .ok message

/-- A step whose errors carry no `code` was passed when the whole failed with one. -/
lemma bind_eq_error_coded {α β : Type} {x : Except JsError α} {f : α → Except JsError β}
    {err : JsError} (h : x >>= f = .error err) (hx : Uncoded x) (hcode : err.code ≠ none) :
    ∃ a, x = .ok a ∧ f a = .error err := by
  cases x with
  | error err' =>
    cases h
    exact absurd (hx err rfl) hcode
  | ok a => exact ⟨a, rfl, h⟩

/-- A refusal for good carries a code. -/
lemma permanentlyRefused.code_ne {err : JsError} (h : permanentlyRefused err = true) :
    err.code ≠ none := by
  intro hnone
  simp [permanentlyRefused, hnone] at h

/-- `unpack` refuses for good only what it decrypted. -/
lemma unpack_refused {frame : JsString} {sender : Option Json} {err : JsError}
    (h : unpack P C frame recipient sender = .error err) (hp : permanentlyRefused err = true) :
    Decrypts P C frame recipient sender := by
  have hcode := permanentlyRefused.code_ne hp
  obtain ⟨o, ho, h⟩ := bind_eq_error_coded h (.openJwe _ _ _) hcode
  obtain ⟨k, hk, h⟩ := bind_eq_error_coded h (.kekInputs _ _) hcode
  obtain ⟨⟨cek, legacy⟩, hcek, h⟩ := bind_eq_error_coded h (.unwrapCek _ _ _) hcode
  obtain ⟨message, hmessage, -⟩ := bind_eq_error_coded h (.readMessage _ _) hcode
  exact ⟨o, k, cek, legacy, message, ho, hk, hcek, hmessage⟩

/-- Of the errors of `senderFor`, only those of `resolveSender` have a code. -/
lemma answered_of_senderFor {skid : JsString} {resolveSender : Option ResolveSender}
    {err : JsError} (h : senderFor senderKeys skid resolveSender = .error err)
    (hcode : err.code ≠ none) :
    seededKey senderKeys skid = none ∧ Answered skid resolveSender (.error err) := by
  unfold senderFor at h
  cases hseeded : seededKey senderKeys skid with
  | some key =>
    rw [hseeded] at h
    cases h
  | none =>
    rw [hseeded] at h
    refine ⟨rfl, ?_⟩
    cases resolveSender with
    | none =>
      cases h
      exact absurd rfl hcode
    | some resolve =>
      cases hanswer : resolve (didOfKid skid) skid with
      | error err' =>
        simp only [hanswer] at h
        cases h
        exact ⟨resolve, rfl, hanswer⟩
      | ok entry =>
        -- an answer without the key is an error of this library
        simp only [hanswer] at h
        split at h
        · cases h
          exact absurd rfl hcode
        · cases h

/-- A frame is refused for good when it was decrypted with a key of its sender, or when
`resolveSender`, asked for a key, threw an error with such a code. -/
lemma unpackInbound_refused {frame : JsString}
    {resolveSender : Option ResolveSender} {err : JsError}
    (h : unpackInbound P C recipient senderKeys frame resolveSender = .error err)
    (hp : permanentlyRefused err = true) :
    (∃ skid key, peekSkid P frame = some skid ∧ IsKeyOf senderKeys skid resolveSender key ∧
        Decrypts P C frame recipient key.publicJwk) ∨
      ∃ skid, peekSkid P frame = some skid ∧ seededKey senderKeys skid = none ∧
        Answered skid resolveSender (.error err) := by
  have hcode := permanentlyRefused.code_ne hp
  unfold unpackInbound at h
  -- a frame without a header or without a skid is refused without a code
  split at h
  · cases h
    exact absurd rfl hcode
  · cases h
    exact absurd rfl hcode
  rename_i c skid hpeek
  cases hkey : senderFor senderKeys (c :: skid) resolveSender with
  | error err' =>
    rw [hkey] at h
    cases h
    exact .inr ⟨c :: skid, hpeek, answered_of_senderFor hkey hcode⟩
  | ok key =>
    rw [hkey, ok_bind] at h
    refine .inl ⟨c :: skid, key, hpeek, senderFor_eq_ok hkey, ?_⟩
    cases hunpack : unpack P C frame recipient key.publicJwk with
    | error err' =>
      rw [hunpack] at h
      cases h
      exact unpack_refused hunpack hp
    | ok r =>
      obtain ⟨o, k, cek, haccepts, -⟩ := unpack_eq_ok hunpack
      exact ⟨o, k, cek, r.legacyKekUsed, r.message, haccepts.opened, haccepts.inputs,
        haccepts.unwrapped, haccepts.read⟩

end VtiDidcomm
