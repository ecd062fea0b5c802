import VtiDidcomm.Codec.Base58
import VtiDidcomm.Did.Basic
import VtiDidcomm.Did.KeyConversion

/-!
# did:key

`resolve` of `did-key.js`: the document is made from the multikey that the identifier is, by the
codec of the key. `resolve_eq_ok` says when: exactly for `did:key:` and a multikey of one of the
four codecs with a key of its length.
-/

namespace VtiDidcomm.DidKey
open Js Multibase

/-! ## The documents -/

/-- `ed25519DidDocument` -/
def ed25519DidDocument (did multibaseStr : JsString) (edPubBytes : Bytes) : Except JsError Json := do
  let signingKid := did ++ js "#" ++ multibaseStr
  let xPubBytes ← ed25519PublicKeyToX25519 edPubBytes
  let xMultikeyStr := encodeMultikey x25519Pub xPubBytes
  let agreementKid := did ++ js "#" ++ xMultikeyStr
  return .obj [(js "@context", multikeyContext), (js "id", .str did),
    (js "verificationMethod", .arr [multikeyMethod signingKid did multibaseStr,
      multikeyMethod agreementKid did xMultikeyStr]),
    (js "authentication", .arr [.str signingKid]),
    (js "assertionMethod", .arr [.str signingKid]),
    (js "capabilityDelegation", .arr [.str signingKid]),
    (js "capabilityInvocation", .arr [.str signingKid]),
    (js "keyAgreement", .arr [.str agreementKid])]

/-- `x25519DidDocument` -/
def x25519DidDocument (did multibaseStr : JsString) : Json :=
  let kid := did ++ js "#" ++ multibaseStr
  .obj [(js "@context", multikeyContext), (js "id", .str did),
    (js "verificationMethod", .arr [multikeyMethod kid did multibaseStr]),
    (js "keyAgreement", .arr [.str kid])]

/-- `signingKeyDidDocument` -/
def signingKeyDidDocument (did multibaseStr : JsString) : Json :=
  let kid := did ++ js "#" ++ multibaseStr
  .obj [(js "@context", multikeyContext), (js "id", .str did),
    (js "verificationMethod", .arr [multikeyMethod kid did multibaseStr]),
    (js "authentication", .arr [.str kid]),
    (js "assertionMethod", .arr [.str kid]),
    (js "capabilityDelegation", .arr [.str kid]),
    (js "capabilityInvocation", .arr [.str kid])]

/-- `assertLen` -/
def assertLen (buf : Bytes) (expected : Nat) (label : JsString) : Except JsError Unit :=
  require (buf.length = expected)
    (error (js "did:key resolve: " ++ label ++ js " key must be " ++ natText expected ++
      js " bytes, got " ++ natText buf.length))

/-- `formatBytes` -/
def formatBytes (b : Bytes) : JsString :=
  js "0x" ++ b.flatMap fun (x : UInt8) =>
    [Json.hexDigit (x >>> 4).toUInt16, Json.hexDigit (x &&& 0xF).toUInt16]

/-- The document of a decoded multikey, by its codec. -/
def keyDocument (did multibaseStr : JsString) (m : Multikey) : Except JsError Json :=
  if m.codec = ed25519Pub then do
    assertLen m.key 32 (js "Ed25519")
    ed25519DidDocument did multibaseStr m.key
  else if m.codec = x25519Pub then do
    assertLen m.key 32 (js "X25519")
    return x25519DidDocument did multibaseStr
  else if m.codec = p256Pub then do
    assertLen m.key 33 (js "P-256")
    return signingKeyDidDocument did multibaseStr
  else if m.codec = secp256k1Pub then do
    assertLen m.key 33 (js "secp256k1")
    return signingKeyDidDocument did multibaseStr
  else
    .error (error (js "did:key resolve: unsupported multicodec " ++ formatBytes m.codec ++ js
      "; supported: Ed25519(0xed01), X25519(0xec01), P-256(0x8024), secp256k1(0xe701)"))

/-- `didKey.resolve` -/
def resolve (did : JsString) : Except JsError Resolution := do
  require (startsWith did (js "did:key:") = true)
    (error (js "did:key resolve: identifier must start with \"did:key:\" (got " ++
      Json.quote (sliceTo did 32) ++ js "…)"))
  let multibaseStr := sliceFrom did (js "did:key:").length
  require (startsWith multibaseStr (js "z") = true)
    (error (js "did:key resolve: only base58btc (z-prefix) is supported"))
  let m ← decodeMultikey (some (.str multibaseStr))
  let didDocument ← keyDocument did multibaseStr m
  return madeResolution didDocument

/-! ## The grammar -/

/-- The length of a key of a supported codec. -/
def keyLength (codec : Bytes) : Option Nat :=
  if codec = ed25519Pub then some 32
  else if codec = x25519Pub then some 32
  else if codec = p256Pub then some 33
  else if codec = secp256k1Pub then some 33
  else none

/-- A multikey of a supported codec with a key of its length. -/
def IsKey (m : Multikey) : Prop := keyLength m.codec = some m.key.length

instance (m : Multikey) : Decidable (IsKey m) := inferInstanceAs (Decidable (_ = _))

/-- The codecs of the keys a DID may have. -/
lemma IsKey.codec_mem {m : Multikey} (h : IsKey m) :
    m.codec ∈ [ed25519Pub, x25519Pub, p256Pub, secp256k1Pub] := by
  unfold IsKey keyLength at h
  split_ifs at h with h1 h2 h3 h4
  · simp [h1]
  · simp [h2]
  · simp [h3]
  · simp [h4]

/-- The codec of a key that a DID may have is a varint. -/
lemma IsKey.isVarint {m : Multikey} (h : IsKey m) : IsVarint m.codec := by
  have hvarint (b last : UInt8) (hb : b &&& 0x80 ≠ 0) (hlast : last &&& 0x80 = 0) :
      IsVarint [b, last] :=
    ⟨[b], last, rfl, List.forall_mem_singleton.mpr hb, hlast⟩
  have hall : ∀ c ∈ [ed25519Pub, x25519Pub, p256Pub, secp256k1Pub], IsVarint c := by
    simp only [List.forall_mem_cons]
    exact ⟨hvarint 0xed 0x01 (by decide) (by decide), hvarint 0xec 0x01 (by decide) (by decide),
      hvarint 0x80 0x24 (by decide) (by decide), hvarint 0xe7 0x01 (by decide) (by decide), by simp⟩
  exact hall _ h.codec_mem

/-- What is asserted is the length. -/
lemma assertLen_eq_ok {buf : Bytes} {expected : Nat} {label : JsString} :
    assertLen buf expected label = .ok () ↔ buf.length = expected := by
  simp [assertLen]

/-- A document is made exactly for a key of a supported codec and of its length. -/
lemma keyDocument_ok_iff {did multibaseStr : JsString} {m : Multikey} :
    (∃ doc, keyDocument did multibaseStr m = .ok doc) ↔ IsKey m := by
  have hlen {n : Nat} {label : JsString} {x : Except JsError Json}
      (hx : m.key.length = n → ∃ doc, x = .ok doc) :
      (∃ doc, (assertLen m.key n label >>= fun _ => x) = .ok doc) ↔ n = m.key.length := by
    constructor
    · intro ⟨doc, h⟩
      obtain ⟨_, hlen, -⟩ := bind_eq_ok.mp h
      exact (assertLen_eq_ok.mp hlen).symm
    · intro h
      obtain ⟨doc, hdoc⟩ := hx h.symm
      exact ⟨doc, bind_eq_ok.mpr ⟨(), assertLen_eq_ok.mpr h.symm, hdoc⟩⟩
  unfold keyDocument IsKey keyLength
  split_ifs with h1 h2 h3 h4
  · rw [Option.some.injEq]
    apply hlen
    intro hkey
    simp only [ed25519DidDocument, ed25519PublicKeyToX25519_eq hkey, ok_bind]
    exact ⟨_, rfl⟩
  · rw [Option.some.injEq]
    exact hlen fun _ => ⟨_, rfl⟩
  · rw [Option.some.injEq]
    exact hlen fun _ => ⟨_, rfl⟩
  · rw [Option.some.injEq]
    exact hlen fun _ => ⟨_, rfl⟩
  · simp

/-- What resolves: `did:key:` and the multikey that is decoded from the rest. -/
lemma resolve_eq_ok {did : JsString} {r : Resolution} :
    resolve did = .ok r ↔ ∃ m doc, did = js "did:key:" ++ encodeMultikey m.codec m.key ∧
      codecLen (m.codec ++ m.key) = m.codec.length ∧
      keyDocument did (encodeMultikey m.codec m.key) m = .ok doc ∧ r = madeResolution doc := by
  have hslice (s : JsString) : sliceFrom (js "did:key:" ++ s) (js "did:key:").length = s :=
    sliceFrom_append _ _
  constructor
  · intro h
    obtain ⟨_, hpre, h⟩ := bind_eq_ok.mp h
    obtain ⟨_, -, h⟩ := bind_eq_ok.mp h
    obtain ⟨m, hm, h⟩ := bind_eq_ok.mp h
    obtain ⟨doc, hdoc, h⟩ := bind_eq_ok.mp h
    cases h
    obtain ⟨rest, rfl⟩ := startsWith_iff.mp (require_eq_ok.mp hpre)
    rw [hslice] at hm hdoc
    obtain ⟨rfl, hlen⟩ := decodeMultikey_eq_ok.mp hm
    exact ⟨m, doc, rfl, hlen, hdoc, rfl⟩
  · intro ⟨m, doc, hdid, hlen, hdoc, hr⟩
    have hz : startsWith (encodeMultikey m.codec m.key) (js "z") = true := startsWith_append _ _
    rw [hr, hdid, resolve]
    rw [hdid] at hdoc
    simp only [require_of (startsWith_append (js "did:key:") _), hslice, require_of hz, ok_bind,
      decodeMultikey_eq_ok.mpr ⟨rfl, hlen⟩, hdoc]
    rfl

/-- The string resolves if and only if it is `did:key:` and the multikey of a key. -/
lemma resolves_iff (did : JsString) :
    (∃ r, resolve did = .ok r) ↔
      ∃ m, IsKey m ∧ did = js "did:key:" ++ encodeMultikey m.codec m.key := by
  constructor
  · intro ⟨r, h⟩
    obtain ⟨m, doc, hdid, -, hdoc, -⟩ := resolve_eq_ok.mp h
    exact ⟨m, keyDocument_ok_iff.mp ⟨doc, hdoc⟩, hdid⟩
  · intro ⟨m, hm, hdid⟩
    obtain ⟨doc, hdoc⟩ := keyDocument_ok_iff.mpr hm
    exact ⟨_, resolve_eq_ok.mpr ⟨m, doc, hdid, codecLen_append hm.isVarint _, hdoc, rfl⟩⟩

/-- A multikey tells its two parts: the codec ends where the varint does. -/
lemma encodeMultikey_injective {m m' : Multikey} (hm : IsKey m) (hm' : IsKey m')
    (h : encodeMultikey m.codec m.key = encodeMultikey m'.codec m'.key) : m = m' := by
  have hd := decodeMultikey_encodeMultikey hm.isVarint m.key
  rw [h, decodeMultikey_encodeMultikey hm'.isVarint] at hd
  exact (Except.ok.inj hd).symm

/-! ## The documents that are made -/

/-- The verification methods of a document. -/
def methodsOf (doc : Json) : List Json :=
  (Json.asArray (doc.get (js "verificationMethod"))).getD []

/-- The references a document lists under a relationship. -/
def relationshipOf (doc : Json) (name : JsString) : List Json :=
  (Json.asArray (doc.get name)).getD []

/-- The names of the relationships. -/
def relationshipNames : List JsString :=
  [js "authentication", js "assertionMethod", js "keyAgreement", js "capabilityInvocation",
    js "capabilityDelegation"]

/-- A document of verification methods, the first of which is of `multibase`, and of references to
them. -/
structure IsKeyDocument (did multibase : JsString) (doc : Json) : Prop where
  id : doc.get (js "id") = some (.str did)
  first : ∃ kid rest, methodsOf doc = multikeyMethod kid did multibase :: rest
  references : ∀ name ∈ relationshipNames, ∀ ref ∈ relationshipOf doc name,
    ∃ vm ∈ methodsOf doc, vm.get (js "id") = some ref

/-- The references of a document are looked up all at once. -/
lemma IsKeyDocument.of {did multibase kid : JsString} {doc : Json} {rest refs : List Json}
    (hid : doc.get (js "id") = some (.str did))
    (hmethods : methodsOf doc = multikeyMethod kid did multibase :: rest)
    (hrefs : relationshipNames.flatMap (relationshipOf doc) = refs)
    (hlisted : ∀ ref ∈ refs, ∃ vm ∈ multikeyMethod kid did multibase :: rest,
      vm.get (js "id") = some ref) : IsKeyDocument did multibase doc := by
  refine ⟨hid, ⟨kid, rest, hmethods⟩, fun name hname ref href => ?_⟩
  rw [hmethods]
  apply hlisted
  rw [← hrefs]
  exact List.mem_flatMap.mpr ⟨name, hname, href⟩

/-- The document of a signing key is one of its key. -/
lemma isKeyDocument_signing (did multibase : JsString) :
    IsKeyDocument did multibase (signingKeyDidDocument did multibase) := by
  let refs : List Json := List.replicate 4 (.str (did ++ js "#" ++ multibase))
  apply @IsKeyDocument.of _ _ _ _ [] refs rfl rfl rfl
  intro ref href
  rw [List.eq_of_mem_replicate href]
  exact ⟨_, List.mem_singleton_self _, rfl⟩

/-- The document of an X25519 key is one of its key. -/
lemma isKeyDocument_x25519 (did multibase : JsString) :
    IsKeyDocument did multibase (x25519DidDocument did multibase) := by
  apply @IsKeyDocument.of _ _ _ _ [] [.str (did ++ js "#" ++ multibase)] rfl rfl rfl
  intro ref href
  rw [List.mem_singleton.mp href]
  exact ⟨_, List.mem_singleton_self _, rfl⟩

/-- The document of an Ed25519 key is one of its key, with the X25519 key derived from it. -/
lemma isKeyDocument_ed25519 {did multibase : JsString} {key : Bytes} {doc : Json}
    (h : ed25519DidDocument did multibase key = .ok doc) : IsKeyDocument did multibase doc := by
  obtain ⟨x, -, h⟩ := bind_eq_ok.mp h
  cases h
  let agreement := encodeMultikey x25519Pub x
  let signingKid := did ++ js "#" ++ multibase
  let agreementKid := did ++ js "#" ++ agreement
  apply @IsKeyDocument.of _ _ _ _ [multikeyMethod agreementKid did agreement]
    [.str signingKid, .str signingKid, .str agreementKid, .str signingKid, .str signingKid]
    rfl rfl rfl
  intro ref href
  -- the agreement key is the second method, every other reference is to the first
  have hcases : ref = .str signingKid ∨ ref = .str agreementKid := by
    simp only [List.mem_cons, List.not_mem_nil, or_false] at href
    tauto
  rcases hcases with rfl | rfl
  · exact ⟨_, List.mem_cons_self, rfl⟩
  · exact ⟨_, List.mem_cons_of_mem _ (List.mem_singleton_self _), rfl⟩

/-- Every key's document is one of its key. -/
lemma isKeyDocument_keyDocument {did multibase : JsString} {m : Multikey} {doc : Json}
    (h : keyDocument did multibase m = .ok doc) : IsKeyDocument did multibase doc := by
  unfold keyDocument at h
  split_ifs at h
  · obtain ⟨_, -, h⟩ := bind_eq_ok.mp h
    exact isKeyDocument_ed25519 h
  · obtain ⟨_, -, h⟩ := bind_eq_ok.mp h
    cases h
    exact isKeyDocument_x25519 did multibase
  · obtain ⟨_, -, h⟩ := bind_eq_ok.mp h
    cases h
    exact isKeyDocument_signing did multibase
  · obtain ⟨_, -, h⟩ := bind_eq_ok.mp h
    cases h
    exact isKeyDocument_signing did multibase

/-- A string resolves if and only if it is `did:key:` and the multikey of a key of a supported codec
and of its length; such a multikey tells its codec and its key, and the first verification method of
the document decodes to them. Every reference of the document is to one of its methods. A multikey
of any varint and any key decodes to them. -/
theorem did_key_grammar :
    (∀ did, (∃ r, resolve did = .ok r) ↔
      ∃ m, IsKey m ∧ did = js "did:key:" ++ encodeMultikey m.codec m.key) ∧
    (∀ m m', IsKey m → IsKey m' → js "did:key:" ++ encodeMultikey m.codec m.key =
      js "did:key:" ++ encodeMultikey m'.codec m'.key → m = m') ∧
    (∀ m, IsKey m → ∀ r, resolve (js "did:key:" ++ encodeMultikey m.codec m.key) = .ok r →
      ∃ doc vm rest, r.didDocument = some doc ∧ methodsOf doc = vm :: rest ∧
        decodeMultikey (vm.get (js "publicKeyMultibase")) = .ok m ∧
        ∀ name ∈ relationshipNames, ∀ ref ∈ relationshipOf doc name,
          ∃ vm ∈ methodsOf doc, vm.get (js "id") = some ref) ∧
    ∀ codec key, IsVarint codec →
      decodeMultikey (some (.str (encodeMultikey codec key))) = .ok ⟨codec, key⟩ := by
  refine ⟨resolves_iff, ?_, ?_, fun codec key h => decodeMultikey_encodeMultikey h key⟩
  · intro m m' hm hm' h
    exact encodeMultikey_injective hm hm' (List.append_cancel_left h)
  · intro m hm r h
    obtain ⟨m', doc, hdid, hlen, hdoc, rfl⟩ := resolve_eq_ok.mp h
    have hsame := encodeMultikey_injective hm (keyDocument_ok_iff.mp ⟨doc, hdoc⟩)
      (List.append_cancel_left hdid)
    subst hsame
    have hspec := isKeyDocument_keyDocument hdoc
    obtain ⟨kid, rest, hmethods⟩ := hspec.first
    exact ⟨doc, _, rest, rfl, hmethods, decodeMultikey_encodeMultikey hm.isVarint m.key,
      hspec.references⟩

/-- An X25519 key of zeros: its DID resolves, to its key, and to no other. -/
theorem did_key_grammar_example :
    (∃ r, resolve (js "did:key:" ++ encodeMultikey x25519Pub (List.replicate 32 0)) = .ok r ∧
      ∃ doc vm rest, r.didDocument = some doc ∧ methodsOf doc = vm :: rest ∧
        decodeMultikey (vm.get (js "publicKeyMultibase")) =
          .ok ⟨x25519Pub, List.replicate 32 0⟩) ∧
    (∀ m, IsKey m → js "did:key:" ++ encodeMultikey m.codec m.key =
      js "did:key:" ++ encodeMultikey x25519Pub (List.replicate 32 0) →
        m = ⟨x25519Pub, List.replicate 32 0⟩) ∧
    decodeMultikey (some (.str (encodeMultikey [0x05] [1, 2]))) = .ok ⟨[0x05], [1, 2]⟩ := by
  obtain ⟨hiff, hinj, hdoc, hvarint⟩ := did_key_grammar
  have hkey : IsKey ⟨x25519Pub, List.replicate 32 0⟩ := by decide
  obtain ⟨r, hr⟩ := (hiff _).mpr ⟨_, hkey, rfl⟩
  obtain ⟨doc, vm, rest, h1, h2, h3, -⟩ := hdoc _ hkey r hr
  refine ⟨⟨r, hr, doc, vm, rest, h1, h2, h3⟩, fun m hm => hinj m _ hm hkey, ?_⟩
  exact hvarint [0x05] [1, 2] ⟨[], 0x05, rfl, by simp, by decide⟩

end VtiDidcomm.DidKey
