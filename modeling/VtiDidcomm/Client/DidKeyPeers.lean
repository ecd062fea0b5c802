import VtiDidcomm.Client.Calls
import VtiDidcomm.Client.KeyAgreementAgree
import VtiDidcomm.Client.VtaRestAuth
import VtiDidcomm.Did.Key
import VtiDidcomm.Did.Reference
import VtiDidcomm.Envelope.Inbound

/-!
# Peers that are did:keys

A did:key is resolved from itself: two clients of `generateEphemeralClient` that know each other's
DID talk without a request (`ephemeral_clients_converse`), and a frame that authenticates as a
did:key was wrapped under the key that the DID is, whoever sent it (`did_key_sender_bound`).
-/

namespace VtiDidcomm
open Js Multibase Effect

/-! ## References to a did:key -/

/-- No did:key is a did:scid. -/
lemma SrcShape.not_didKey {u did src fragment : JsString} (h : SrcShape u did src fragment)
    (rest : JsString) : startsWith (did ++ rest) (js "did:key:") ≠ true := by
  intro hkey
  have hscid := (startsWith_iff.mp h.scid).trans (List.prefix_append did rest)
  have hpre := List.prefix_of_prefix_length_le (startsWith_iff.mp hkey) hscid (by decide)
  exact absurd hpre (by decide)

/-- A did:key has no locator. -/
lemma scidSrc_didKey {u : JsString} (h : startsWith u (js "did:key:") = true) : scidSrc u = none := by
  rw [Option.eq_none_iff_forall_not_mem]
  intro src hsrc
  obtain ⟨did, rest, hs⟩ := scidSrc_eq_some.mp hsrc
  rw [hs.eq, List.append_assoc] at h
  exact hs.not_didKey _ h

/-- A reference to a did:key URL is that very URL. -/
lemma sameReference_didKey {a b : JsString} (h : startsWith b (js "did:key:") = true) :
    sameReference a b = true ↔ a = b := by
  have hb : stripScidSrc b = b := stripScidSrc_eq_self_iff.mpr (scidSrc_didKey h)
  rw [sameReference_iff, hb]
  constructor
  · intro hab
    cases stripScidSrc_cases a with
    | inl hsame => rw [← hsame.1, hab]
    | inr hshape =>
      obtain ⟨did, src, rest, hs, e⟩ := hshape
      rw [← hab, e] at h
      exact absurd h (hs.not_didKey rest)
  · rintro rfl
    exact hb

/-- The identity of a did:key reference is the DID. -/
lemma identityOfKid_didKey {did frag : JsString} (h : startsWith did (js "did:key:") = true)
    (hh : hash ∉ did) (hf : IsFragment frag) : identityOfKid (did ++ frag) = did := by
  rw [identityOfKid, scidIdentity, splitHead_append_fragment hh hf]
  exact stripScidSrc_eq_self_iff.mpr (scidSrc_didKey h)

/-! ## The key a did:key agrees with -/

/-- The X25519 key of the key a did:key is: the key itself, or what an Ed25519 key converts to. -/
inductive Agrees : Multikey → Bytes → Prop where
  | x25519 (key) : Agrees ⟨x25519Pub, key⟩ key
  | ed25519 {key x} : ed25519PublicKeyToX25519 key = .ok x → Agrees ⟨ed25519Pub, key⟩ x

/-- The did:key of a multikey. -/
def didKeyOf (m : Multikey) : JsString := js "did:key:" ++ encodeMultikey m.codec m.key

/-- A did:key has one key-agreement key. -/
lemma Agrees.unique {m : Multikey} {key key' : Bytes} (h : Agrees m key) (h' : Agrees m key') :
    key = key' := by
  cases h with
  | x25519 key =>
    cases h' with
    | x25519 key => rfl
  | ed25519 hx =>
    cases h' with
    | ed25519 hx' => exact Except.ok.inj (hx.symm.trans hx')

/-- The verification method of a key-agreement key, whose id is the one a client has by default. -/
def agreementMethod (did : JsString) (key : Bytes) : Json :=
  multikeyMethod (defaultClientKid did key) did (encodeMultikey x25519Pub key)

/-- A document with one key-agreement key, whose method follows methods of other ids of the DID. -/
structure HasAgreement (did : JsString) (key : Bytes) (doc : Json) : Prop where
  entries : doc.get (js "keyAgreement") = some (.arr [.str (defaultClientKid did key)])
  methods : ∃ before, methodsOf doc = before ++ [agreementMethod did key] ∧
    ∀ v ∈ before, ∃ frag, methodId v = some (did ++ js "#" ++ frag) ∧
      frag ≠ encodeMultikey x25519Pub key

/-- The codec of X25519 keys is a varint. -/
lemma isVarint_x25519Pub : IsVarint x25519Pub :=
  ⟨[0xec], 0x01, rfl, List.forall_mem_singleton.mpr (by decide), by decide⟩

/-- The codec of Ed25519 keys is a varint. -/
lemma isVarint_ed25519Pub : IsVarint ed25519Pub :=
  ⟨[0xed], 0x01, rfl, List.forall_mem_singleton.mpr (by decide), by decide⟩

/-- The document of a did:key has the key-agreement key of the DID's key, or none. -/
lemma hasAgreement_of_keyDocument {did : JsString} {m : Multikey} {doc : Json}
    (h : DidKey.keyDocument did (encodeMultikey m.codec m.key) m = .ok doc) :
    (∃ key, Agrees m key ∧ HasAgreement did key doc) ∨
      doc.get (js "keyAgreement") = none ∧ ∀ key, ¬ Agrees m key := by
  obtain ⟨codec, key⟩ := m
  have hnone (hne : codec ≠ ed25519Pub ∧ codec ≠ x25519Pub) (x : Bytes) : ¬ Agrees ⟨codec, key⟩ x := by
    rintro (_ | _)
    · exact hne.2 rfl
    · exact hne.1 rfl
  unfold DidKey.keyDocument at h
  split_ifs at h with hed hx
  · obtain rfl : codec = ed25519Pub := hed
    obtain ⟨_, -, h⟩ := bind_eq_ok.mp h
    obtain ⟨x, hx, h⟩ := bind_eq_ok.mp h
    cases h
    refine .inl ⟨x, .ed25519 hx, rfl, [_], rfl, List.forall_mem_singleton.mpr ⟨_, rfl, ?_⟩⟩
    intro hsame
    -- the two multikeys tell their codecs
    have hed := decodeMultikey_encodeMultikey isVarint_ed25519Pub key
    rw [hsame, decodeMultikey_encodeMultikey isVarint_x25519Pub] at hed
    simp [ed25519Pub, x25519Pub] at hed
  · obtain rfl : codec = x25519Pub := hx
    obtain ⟨_, -, h⟩ := bind_eq_ok.mp h
    cases h
    exact .inl ⟨key, .x25519 key, rfl, [], rfl, by simp⟩
  · obtain ⟨_, -, h⟩ := bind_eq_ok.mp h
    cases h
    exact .inr ⟨rfl, hnone ⟨hed, hx⟩⟩
  · obtain ⟨_, -, h⟩ := bind_eq_ok.mp h
    cases h
    exact .inr ⟨rfl, hnone ⟨hed, hx⟩⟩

section HasAgreement
variable {did : JsString} {key : Bytes} {doc : Json}

/-- The key-agreement method has the key. -/
lemma methodKey_agreementMethod : methodKey (agreementMethod did key) = some key := by
  have hdecode : decodeMultikey ((agreementMethod did key).get (js "publicKeyMultibase")) =
      .ok ⟨x25519Pub, key⟩ := decodeMultikey_encodeMultikey isVarint_x25519Pub key
  rw [methodKey, hdecode]
  rfl

/-- A search that tells the key's id from other ids finds the method. -/
lemma HasAgreement.methodNamed (h : HasAgreement did key doc) {named : JsString → Bool}
    (hnamed : ∀ frag, named (did ++ js "#" ++ frag) = true ↔ frag = encodeMultikey x25519Pub key) :
    methodNamed doc named = some (agreementMethod did key) := by
  obtain ⟨before, hmethods, hbefore⟩ := h.methods
  have hself : (methodId (agreementMethod did key)).any named = true := (hnamed _).mpr rfl
  rw [VtiDidcomm.methodNamed, hmethods, List.find?_append, List.find?_eq_none.mpr]
  · simp [hself]
  · intro v hv htrue
    obtain ⟨frag, hid, hne⟩ := hbefore v hv
    rw [hid] at htrue
    exact hne ((hnamed frag).mp htrue)

variable (hdid : startsWith did (js "did:key:") = true)
include hdid

/-- What starts with a did:key starts with `did:key:`. -/
lemma didKey_append (s : JsString) : startsWith (did ++ s) (js "did:key:") = true :=
  startsWith_iff.mpr ((startsWith_iff.mp hdid).trans (List.prefix_append _ _))

/-- A did:key client's key id starts with its DID. -/
lemma didKey_kid : startsWith (defaultClientKid did key) (js "did:key:") = true :=
  didKey_append (didKey_append hdid _) _

/-- References to the key, by whatever comparison. -/
lemma sameReference_kid (frag : JsString) :
    sameReference (did ++ js "#" ++ frag) (defaultClientKid did key) = true ↔
      frag = encodeMultikey x25519Pub key := by
  rw [sameReference_didKey (didKey_kid hdid)]
  exact List.append_right_inj _

/-- Every reader of the first entry returns the key. -/
lemma HasAgreement.extract (h : HasAgreement did key doc) :
    x25519KeyAgreement doc did = .ok ⟨some (.str (defaultClientKid did key)), key⟩ ∧
      extractX25519KeyAgreement doc did = .ok ⟨some (.str (defaultClientKid did key)), key⟩ ∧
      vtaRecipient doc did = .ok ⟨some (.str (defaultClientKid did key)), key⟩ := by
  have hentry : firstEntry doc = some (.str (defaultClientKid did key)) := by
    rw [firstEntry, h.entries]
    rfl
  have hread : readMethod (agreementMethod did key) =
      some ⟨some (.str (defaultClientKid did key)), key⟩ :=
    readMethod_eq_some.mpr ⟨methodKey_agreementMethod, rfl⟩
  have hfirst : firstMethod doc sameReference = some (agreementMethod did key) := by
    rw [firstMethod_of_str hentry]
    exact h.methodNamed (sameReference_kid hdid)
  refine ⟨x25519KeyAgreement_eq_ok.mpr ⟨_, hfirst, hread⟩,
    extractX25519KeyAgreement_eq_ok.mpr ⟨_, hfirst, hread⟩,
    vtaRecipient_eq_ok.mpr ⟨agreementMethod did key, ?_, hread⟩⟩
  rw [firstMethod_of_str hentry]
  apply h.methodNamed
  intro frag
  exact decide_eq_true_iff.trans (List.append_right_inj _)

/-- A did:key client's key id is a DID URL. -/
lemma did_kid : startsWith (defaultClientKid did key) (js "did:") = true := by
  have hpre := startsWith_iff.mp (@didKey_kid did key hdid)
  exact startsWith_iff.mpr ((by decide : js "did:" <+: js "did:key:").trans hpre)

/-- The search by id finds the key under its id, and nothing under another. -/
lemma HasAgreement.findKey (h : HasAgreement did key doc) {skid : JsString} {v : Json} :
    findKey (methodsFound (doc.get (js "verificationMethod"))) did skid
        [.str (defaultClientKid did key)] = .ok (some v) ↔
      skid = defaultClientKid did key ∧ v = agreementMethod did key := by
  by_cases hskid : skid = defaultClientKid did key
  · subst hskid
    have hnamed : VtiDidcomm.methodNamed doc (namesAbsolutely did (defaultClientKid did key)) =
        some (agreementMethod did key) := by
      apply h.methodNamed
      intro frag
      have habs : startsWith (did ++ js "#" ++ frag) (js "did:") = true := by
        have hpre := startsWith_iff.mp (didKey_append (didKey_append hdid (js "#")) frag)
        exact startsWith_iff.mpr ((by decide : js "did:" <+: js "did:key:").trans hpre)
      rw [namesAbsolutely_of_did habs]
      exact sameReference_kid hdid frag
    rw [findKey_reference (sameReference_refl _) (did_kid hdid), hnamed]
    simp [eq_comm]
  · have hnames : namesKey did skid (some (.str (defaultClientKid did key))) = false := by
      rw [namesKey_eq]
      change namesAbsolutely did skid (defaultClientKid did key) = false
      rw [namesAbsolutely_of_did (did_kid hdid), ← Bool.not_eq_true, sameReference_iff,
        eq_comm, ← sameReference_iff, sameReference_didKey (didKey_kid hdid)]
      exact hskid
    rw [VtiDidcomm.findKey, hnames]
    simp [VtiDidcomm.findKey, hskid]

/-- The key is read under its id, and under no other. -/
lemma HasAgreement.byKid (h : HasAgreement did key doc) {skid : JsString} {k : AgreementKey} :
    x25519KeyAgreementKey doc did skid = .ok k ↔
      skid = defaultClientKid did key ∧ k = ⟨some (.str skid), key⟩ := by
  have hlist : keyAgreementList (doc.get (js "keyAgreement")) =
      .ok [.str (defaultClientKid did key)] := by
    rw [h.entries]
    rfl
  obtain ⟨kid, bytes⟩ := k
  rw [x25519KeyAgreementKey_eq_ok, hlist]
  simp only [Except.ok.injEq, exists_and_left, exists_eq_left', h.findKey hdid, AgreementKey.mk.injEq]
  constructor
  · intro ⟨v, ⟨hskid, hv⟩, hkey, hkid⟩
    rw [hv, methodKey_agreementMethod, Option.some.injEq] at hkey
    exact ⟨hskid, hkid, hkey.symm⟩
  · intro ⟨hskid, hkid, hkey⟩
    exact ⟨_, ⟨hskid, rfl⟩, hkey ▸ methodKey_agreementMethod, hkid⟩

end HasAgreement

/-! ## The did:key of a key -/

/-- The DID of a key is a did:key. -/
lemma didKey_didKeyOf (m : Multikey) : startsWith (didKeyOf m) (js "did:key:") = true :=
  startsWith_append _ _

/-- What a multikey is written with. -/
lemma mem_encodeMultikey {c : CodeUnit} {codec key : List UInt8} (h : c ∈ encodeMultikey codec key) :
    isSurrogate c = false ∧ c ≠ hash := by
  have hall : (js "z" ++ b58).all (fun c => !isSurrogate c && c ≠ hash) = true := by decide +kernel
  have hc : c ∈ js "z" ++ b58 := by
    cases List.mem_append.mp h with
    | inl h => exact List.mem_append_left _ h
    | inr h => exact List.mem_append_right _ (mem_b58_of_mem_encode h)
  simpa using List.all_eq_true.mp hall c hc

/-- No character of it is a surrogate or a `#`. -/
lemma mem_didKeyOf {c : CodeUnit} {m : Multikey} (h : c ∈ didKeyOf m) :
    isSurrogate c = false ∧ c ≠ hash := by
  have hall : (js "did:key:").all (fun c => !isSurrogate c && c ≠ hash) = true := by decide
  cases List.mem_append.mp h with
  | inl h => simpa using List.all_eq_true.mp hall c h
  | inr h => exact mem_encodeMultikey h

/-- A did:key has no fragment. -/
lemma hash_notMem_didKeyOf (m : Multikey) : hash ∉ didKeyOf m := fun h => (mem_didKeyOf h).2 rfl

/-- A multikey is at most twice as long as its bytes. -/
lemma length_encodeMultikey_le (codec key : List UInt8) :
    (encodeMultikey codec key).length ≤ 1 + 2 * (codec.length + key.length) := by
  have := length_base58btcEncode_le (codec ++ key)
  rw [List.length_append] at this
  rw [encodeMultikey, List.length_append]
  exact Nat.add_le_add_left this 1

/-- A did:key has at most 79 characters. -/
lemma length_didKeyOf_le {m : Multikey} (hm : DidKey.IsKey m) : (didKeyOf m).length ≤ 79 := by
  have hlen : DidKey.keyLength m.codec = some m.key.length := hm
  have hcodec : m.codec.length = 2 ∧ m.key.length ≤ 33 := by
    unfold DidKey.keyLength at hlen
    split_ifs at hlen with h1 h2 h3 h4
    all_goals
      have := Option.some.inj hlen
      refine ⟨?_, by omega⟩
    · exact congrArg List.length h1
    · exact congrArg List.length h2
    · exact congrArg List.length h3
    · exact congrArg List.length h4
  have := length_encodeMultikey_le m.codec m.key
  have : (js "did:key:").length = 8 := rfl
  rw [didKeyOf, List.length_append]
  omega

/-- A key-agreement key has 32 bytes. -/
lemma Agrees.length_eq {m : Multikey} {key : Bytes} (h : Agrees m key) (hm : DidKey.IsKey m) :
    key.length = 32 := by
  have hlen : DidKey.keyLength m.codec = some m.key.length := hm
  cases h with
  | x25519 key =>
    exact Option.some.inj (hlen.symm.trans (by decide : DidKey.keyLength x25519Pub = some 32))
  | @ed25519 edKey x hx =>
    have hlen32 : edKey.length = 32 :=
      Option.some.inj (hlen.symm.trans (by decide : DidKey.keyLength ed25519Pub = some 32))
    rw [ed25519PublicKeyToX25519_eq hlen32] at hx
    cases hx
    exact (leValue_montgomeryU _).1

/-- A client whose DID is the did:key of its key, or of an Ed25519 key that converts to it, and whose
key has the id it has by default. -/
structure Client.IsDidKey (client : Client) : Prop where
  did : ∃ m, DidKey.IsKey m ∧ client.did = didKeyOf m ∧ Agrees m client.publicKey
  kid : client.kid = defaultClientKid client.did client.publicKey

/-- The identity of a client's key id is its DID. -/
lemma Client.IsDidKey.identity {client : Client} (h : client.IsDidKey) :
    identityOfKid client.kid = client.did := by
  obtain ⟨m, -, hdid, -⟩ := h.did
  rw [h.kid, hdid, defaultClientKid, List.append_assoc]
  exact identityOfKid_didKey (didKey_didKeyOf m) (hash_notMem_didKeyOf m) (.inr ⟨_, rfl⟩)

/-- A did:key client can send. -/
lemma Client.IsDidKey.speaks {client : Client} (h : client.IsDidKey) :
    Speaks client.kid client.did := by
  obtain ⟨m, hm, hdid, hagrees⟩ := h.did
  have hstart := didKey_didKeyOf m
  have hkid : client.kid = didKeyOf m ++ hash :: encodeMultikey x25519Pub client.publicKey := by
    rw [h.kid, hdid, defaultClientKid, List.append_assoc]
    rfl
  have hsrc : scidSrc client.did = none := by
    rw [hdid]
    exact scidSrc_didKey hstart
  refine ⟨⟨hdid ▸ hash_notMem_didKeyOf m, ?_, ?_, ?_⟩, ?_, ?_⟩
  · rw [h.identity, hdid]
    simpa using identityOfKid_didKey hstart (hash_notMem_didKeyOf m) (.inl rfl)
  · rw [h.identity, hdid]
    have hpre := startsWith_iff.mp hstart
    exact startsWith_iff.mpr ((by decide : js "did:" <+: js "did:key:").trans hpre)
  · apply isWellFormed_of_forall
    intro c hc
    rw [hkid] at hc
    obtain hc | rfl | hc := by simpa using hc
    · exact (mem_didKeyOf hc).1
    · rfl
    · exact (mem_encodeMultikey hc).1
  · rw [hsrc]
    rintro src ⟨⟩
  · have hself : senderKid client.kid (some (.str client.did)) = client.kid := by
      simp [senderKid, Json.asString, hsrc]
    have hdidLen := length_didKeyOf_le hm
    have hkeyLen := length_encodeMultikey_le x25519Pub client.publicKey
    have hkidLen := length_textEncode_le client.kid
    rw [hagrees.length_eq hm] at hkeyLen
    rw [hkid, List.length_append, List.length_cons] at hkidLen
    have hcodec : x25519Pub.length = 2 := rfl
    rw [hself, hkid]
    omega

/-! ## Resolving a did:key -/

section Resolve
variable {T : Type} [LinearOrder T] [Add T] [Zero T] {b : Resolver.Builtin} {C : Crypto}

/-- A did:key has its method. -/
lemma parseMethod_didKey {did : JsString} (h : startsWith did (js "did:key:") = true) :
    Resolver.parseMethod did = .ok (js "key") := by
  obtain ⟨rest, rfl⟩ := startsWith_iff.mp h
  rfl

/-- A document with a member is one. -/
lemma documentOf_of_get {doc v : Json} {key message : JsString} (h : doc.get key = some v) :
    documentOf (some doc) message = .ok doc := by
  cases doc with
  | obj members => rfl
  | null | bool _ | num _ | str _ | arr _ => cases h

/-- A document that is taken was there. -/
lemma documentOf_eq_ok {didDocument : Option Json} {doc : Json} {message : JsString}
    (h : documentOf didDocument message = .ok doc) : didDocument = some doc := by
  unfold documentOf at h
  split at h
  · cases h
    rfl
  · cases h
    rfl
  · cases h

/-- A did:key is resolved without a request. -/
lemma runs_resolve_didKey (hb : b.didKey = DidKey.resolve) {o o' : Resolver.Owned T}
    {times : Resolver.Times T} {did : JsString} {options : ResolveOptions} {tr : List Exchange}
    {r : Resolution} (hdid : startsWith did (js "did:key:") = true)
    (run : Prog.Runs (b.resolve o times did options).run tr (.ok (r, o'))) :
    tr = [] ∧ DidKey.resolve did = .ok r := by
  obtain ⟨o'', heq⟩ := Resolver.resolve_didKey (b := b) o times options (parseMethod_didKey hdid)
  rw [heq, hb] at run
  cases hr : DidKey.resolve did with
  | error err =>
    rw [hr] at run
    cases run.2
  | ok r' =>
    rw [hr] at run
    cases run.2
    exact ⟨run.1, rfl⟩

/-- What a session resolves a did:key sender to is the key of the did:key, under its own id. -/
lemma runs_resolveSender_didKey (hb : b.didKey = DidKey.resolve) {o o' : Resolver.Owned T}
    {times : Resolver.Times T} {args : VtaDidcomm.Args} {did skid : JsString} {tr : List Exchange}
    {sender : AgreementKey} {jwk : Json} (hdid : startsWith did (js "did:key:") = true)
    (run : Prog.Runs (VtaDidcomm.resolveSender b o times args did skid).run tr
      (.ok (sender, jwk, o'))) :
    tr = [] ∧ ∃ m key, DidKey.IsKey m ∧ did = didKeyOf m ∧ Agrees m key ∧
      skid = defaultClientKid did key ∧ sender = ⟨some (.str skid), key⟩ ∧
      Jwk.publicJwk (js "X25519") key none = .ok jwk := by
  obtain ⟨⟨own, o₁⟩, tr₁, tr₂, rfl, hkey, hjwk⟩ := Prog.runs_run_bind.mp run
  obtain ⟨jwk', hjwk', hreturn⟩ := runs_lift_bind.mp hjwk
  obtain ⟨rfl, hsame⟩ := runs_return.mp hreturn
  cases hsame
  obtain ⟨⟨r, o₂⟩, tr₃, tr₄, rfl, hresolve, hread⟩ := Prog.runs_run_bind.mp hkey
  obtain ⟨rfl, hr⟩ := runs_resolve_didKey hb hdid hresolve
  obtain ⟨doc', hdoc, hread⟩ := runs_lift_bind.mp hread
  obtain ⟨own', hown, hreturn⟩ := runs_lift_bind.mp hread
  obtain ⟨rfl, hsame⟩ := runs_return.mp hreturn
  cases hsame
  obtain ⟨m, doc, hm, -, hkeyDoc, rfl⟩ := DidKey.resolve_eq_ok.mp hr
  cases documentOf_eq_ok hdoc
  refine ⟨rfl, m, ?_⟩
  cases hasAgreement_of_keyDocument hkeyDoc with
  | inl hagrees =>
    obtain ⟨key, hagrees, hdocument⟩ := hagrees
    obtain ⟨hskid, hsender⟩ := (hdocument.byKid hdid).mp hown
    subst hsender
    exact ⟨key, DidKey.keyDocument_ok_iff.mp ⟨_, hkeyDoc⟩, hm, hagrees, hskid, rfl, hjwk'⟩
  | inr hnone =>
    -- a document without entries has no key to return
    obtain ⟨entries, v, hentries, hfind, -⟩ := x25519KeyAgreementKey_eq_ok.mp hown
    rw [hnone.1] at hentries
    cases hentries
    cases hfind

/-- The did:key of a key that agrees is resolved to it, by its place and by its id. -/
lemma exists_resolve_didKey (hb : b.didKey = DidKey.resolve) (o : Resolver.Owned T)
    (times : Resolver.Times T) {m : Multikey} {key : Bytes} (hm : DidKey.IsKey m)
    (hagrees : Agrees m key) :
    ∃ doc, HasAgreement (didKeyOf m) key doc ∧ ∀ options, ∃ o',
      Prog.Runs (b.resolve o times (didKeyOf m) options).run [] (.ok (madeResolution doc, o')) := by
  obtain ⟨doc, hdoc⟩ : ∃ doc,
      DidKey.keyDocument (didKeyOf m) (encodeMultikey m.codec m.key) m = .ok doc :=
    DidKey.keyDocument_ok_iff.mpr hm
  have hr : DidKey.resolve (didKeyOf m) = .ok (madeResolution doc) :=
    DidKey.resolve_eq_ok.mpr ⟨m, doc, rfl, codecLen_append hm.isVarint _, hdoc, rfl⟩
  refine ⟨doc, ?_, fun options => ?_⟩
  · cases hasAgreement_of_keyDocument hdoc with
    | inl h =>
      obtain ⟨key', hagrees', hdocument⟩ := h
      rwa [hagrees.unique hagrees']
    | inr hnone => exact absurd hagrees (hnone.2 key)
  · obtain ⟨o', heq⟩ :=
      Resolver.resolve_didKey (b := b) o times options (parseMethod_didKey (didKey_didKeyOf m))
    refine ⟨o', ?_⟩
    rw [heq, hb, hr]
    exact ⟨rfl, rfl⟩

/-- What resolves a VTA, or a mediator, that is a did:key. -/
lemma exists_resolveX25519KeyAgreement (hb : b.didKey = DidKey.resolve) (o : Resolver.Owned T)
    (times : Resolver.Times T) {m : Multikey} {key : Bytes} (hm : DidKey.IsKey m)
    (hagrees : Agrees m key) (netPolicy : Option NetPolicy) :
    ∃ o', Prog.Runs (VtaDidcomm.resolveX25519KeyAgreement b o times (didKeyOf m) netPolicy).run []
      (.ok (⟨some (.str (defaultClientKid (didKeyOf m) key)), key⟩, o')) := by
  obtain ⟨doc, hdocument, hresolve⟩ := exists_resolve_didKey hb o times hm hagrees
  obtain ⟨o', hrun⟩ := hresolve { netPolicy }
  refine ⟨o', Prog.runs_run_bind.mpr ⟨_, [], [], rfl, hrun, ?_⟩⟩
  refine runs_lift_bind.mpr ⟨doc, documentOf_of_get hdocument.entries, ?_⟩
  exact runs_lift_bind.mpr ⟨_, (hdocument.extract (didKey_didKeyOf m)).1, runs_return.mpr ⟨rfl, rfl⟩⟩

/-- What resolves a sender that is a did:key. -/
lemma exists_resolveSender_didKey (hb : b.didKey = DidKey.resolve) (o : Resolver.Owned T)
    (times : Resolver.Times T) (args : VtaDidcomm.Args) {m : Multikey} {key : Bytes} {jwk : Json}
    (hm : DidKey.IsKey m) (hagrees : Agrees m key) (hjwk : Jwk.publicJwk (js "X25519") key none = .ok jwk) :
    ∃ o', Prog.Runs (VtaDidcomm.resolveSender b o times args (didKeyOf m)
        (defaultClientKid (didKeyOf m) key)).run []
      (.ok (⟨some (.str (defaultClientKid (didKeyOf m) key)), key⟩, jwk, o')) := by
  obtain ⟨doc, hdocument, hresolve⟩ := exists_resolve_didKey hb o times hm hagrees
  obtain ⟨o', hrun⟩ := hresolve { netPolicy := args.netPolicy }
  let sender : AgreementKey := ⟨some (.str (defaultClientKid (didKeyOf m) key)), key⟩
  refine ⟨o', Prog.runs_run_bind.mpr ⟨(sender, o'), [], [], rfl, ?_, ?_⟩⟩
  · refine Prog.runs_run_bind.mpr ⟨_, [], [], rfl, hrun, ?_⟩
    refine runs_lift_bind.mpr ⟨doc, documentOf_of_get hdocument.entries, ?_⟩
    refine runs_lift_bind.mpr ⟨_, (hdocument.byKid (didKey_didKeyOf m)).mpr ⟨rfl, rfl⟩, ?_⟩
    exact runs_return.mpr ⟨rfl, rfl⟩
  · exact runs_lift_bind.mpr ⟨jwk, hjwk, runs_return.mpr ⟨rfl, rfl⟩⟩

end Resolve

/-! ## Two did:keys -/

section Peers
variable {T : Type} [LinearOrder T] [Add T] [Zero T] {b : Resolver.Builtin} {C : Crypto}
  {number : List UInt8 → List UInt8}

/-- The DID of a client's key id is its own. -/
lemma Client.IsDidKey.didOfKid {client : Client} (h : client.IsDidKey) :
    didOfKid client.kid = client.did := by
  obtain ⟨m, -, hdid, -⟩ := h.did
  rw [h.kid, hdid, defaultClientKid, List.append_assoc, VtiDidcomm.didOfKid]
  exact splitHead_append_fragment (hash_notMem_didKeyOf m) (.inr ⟨_, rfl⟩)

/-- A did:key client's key id is its own `skid`. -/
lemma Client.IsDidKey.senderKid {client : Client} (h : client.IsDidKey) :
    senderKid client.kid (some (.str client.did)) = client.kid := by
  obtain ⟨m, -, hdid, -⟩ := h.did
  simp [VtiDidcomm.senderKid, Json.asString, hdid, scidSrc_didKey (didKey_didKeyOf m)]

/-- An ephemeral client is the did:key of its key. -/
lemma isDidKey_of_generate (hC : C.Lawful) {secretKey : Bytes} {client : Client}
    (h : VtaRestAuth.generateEphemeralClient C secretKey = .ok client) :
    client.IsDidKey ∧ C.getPublicKey .x25519 client.privateKey = .ok client.publicKey := by
  obtain ⟨⟨privateKey, publicKey⟩, hpair, h⟩ := bind_eq_ok.mp h
  obtain ⟨publicKey', hpublic, hpair⟩ := bind_eq_ok.mp hpair
  cases hpair
  cases h
  have hkey := raised_eq_ok.mp hpublic
  refine ⟨⟨⟨⟨x25519Pub, publicKey⟩, ?_, rfl, .x25519 _⟩, rfl⟩, hkey⟩
  rw [DidKey.IsKey, hC.x25519_length hkey]
  rfl

/-- The key a session finds for the `skid` of a did:key client. -/
lemma Client.IsDidKey.senderFor {client : Client} (h : client.IsDidKey) {jwk : Json}
    (hjwk : Json.truthy (some jwk) = true) {resolve : ResolveSender}
    (hresolve : resolve client.did client.kid = .ok [⟨some client.kid, some jwk⟩]) :
    senderFor (fun _ => []) client.kid (some resolve) = .ok ⟨some client.kid, some jwk⟩ := by
  have habsolute : absoluteKid client.did client.kid = client.kid := by
    obtain ⟨m, -, hdid, -⟩ := h.did
    rw [h.kid, hdid]
    rfl
  have hnamed : SenderKey.isNamed client.did client.kid ⟨some client.kid, some jwk⟩ = true := by
    simp [SenderKey.isNamed, hjwk, habsolute, sameReference_refl]
  simp [VtiDidcomm.senderFor, seededKey, keyForSkid, h.didOfKid, hresolve, hnamed]

/-- What a did:key client packs for another opens for it, once it has the key of the `skid`. -/
lemma packTo_didKey {P : Platform} (hP : P.ReadsJson number) (hC : C.Lawful) {alice bob : Client}
    (halice : alice.IsDidKey) (hbob : bob.IsDidKey)
    (hpairA : C.getPublicKey .x25519 alice.privateKey = .ok alice.publicKey)
    (hpairB : C.getPublicKey .x25519 bob.privateKey = .ok bob.publicKey) {draw : Draw}
    {members : List (JsString × Json)} (hdraw : draw.entropy.Fresh C .x25519)
    (hfrom : Json.lookup (js "from") members = some (.str alice.did))
    (hplain : Json.Plain number (.obj members)) :
    ∃ text jwk privateJwk, Jwk.publicJwk (js "X25519") alice.publicKey none = .ok jwk ∧
      Jwk.privateJwk (js "X25519") bob.privateKey bob.publicKey none = .ok privateJwk ∧
      packTo C draw alice (.obj members) ⟨some (.str bob.kid), bob.publicKey⟩ = .ok text ∧
      peekSkid P text = some alice.kid ∧
      ∀ resolve : ResolveSender, resolve alice.did alice.kid = .ok [⟨some alice.kid, some jwk⟩] →
        unpackInbound P C ⟨bob.kid, some privateJwk⟩ (fun _ => []) text (some resolve) =
          .ok (openedFrom alice (.obj members)) := by
  obtain ⟨a, haPriv, haPub, -, haJwk⟩ := KeyPair.of_pair hC hpairA
  obtain ⟨r, hrPriv, hrPub, hrJwk, -⟩ := KeyPair.of_pair hC hpairB
  have hne : bob.kid ≠ [] := hbob.speaks.toNamesSender.kid_ne
  have hkid : AgreementKey.kidText ⟨some (.str bob.kid), bob.publicKey⟩ = bob.kid := by
    have htruthy : Json.truthy (some (.str bob.kid)) = true := by simp [Json.truthy, hne]
    exact if_pos htruthy
  have hkey : AgreementKey.IsOf ⟨some (.str bob.kid), bob.publicKey⟩ r := by
    refine ⟨hrPub.symm, ?_⟩
    rw [hkid]
    exact hne
  obtain ⟨jwe, -, -, hpack, hopens⟩ :=
    packTo_opens hP hC hdraw ⟨haPriv, haPub, halice.speaks⟩ hkey hfrom hplain
  have hskid : (openedFrom alice (.obj members)).senderKid = some alice.kid :=
    congrArg some halice.senderKid
  obtain ⟨skid, hskid', hpeek⟩ := peekSkid_of_unpack hopens rfl
  cases hskid.symm.trans hskid'
  refine ⟨_, a.publicJwk, r.privateJwk, haJwk, hrJwk, hpack, hpeek, fun resolve hresolve => ?_⟩
  rw [hkid] at hopens
  exact unpackInbound_of_unpack (halice.senderFor a.isPublic.truthy hresolve) hopens rfl hskid
    halice.speaks.toNamesSender.kid_ne

/-- did:key clients need nobody to talk: an ephemeral client is one, and of any two, with their own
X25519 keys or converted Ed25519 ones, each resolves the other's DID without a request. What one packs
for the key it found opens for the other, which knows no sender and asks its resolver for the very
`skid` of the frame. -/
theorem did_key_peers_converse (hb : b.didKey = DidKey.resolve) (hP : b.pf.ReadsJson number)
    (hC : C.Lawful) :
    (∀ secretKey client, VtaRestAuth.generateEphemeralClient C secretKey = .ok client →
      client.IsDidKey ∧ C.getPublicKey .x25519 client.privateKey = .ok client.publicKey) ∧
    ∀ {alice bob : Client}, alice.IsDidKey → bob.IsDidKey →
      C.getPublicKey .x25519 alice.privateKey = .ok alice.publicKey →
      C.getPublicKey .x25519 bob.privateKey = .ok bob.publicKey →
      ∀ {draw : Draw} {members : List (JsString × Json)}, draw.entropy.Fresh C .x25519 →
      Json.lookup (js "from") members = some (.str alice.did) → Json.Plain number (.obj members) →
      ∀ (o o' : Resolver.Owned T) (times times' : Resolver.Times T) (netPolicy : Option NetPolicy)
        (args : VtaDidcomm.Args),
      ∃ key o₁ text sender jwk o₂ privateJwk,
        Prog.Runs (VtaDidcomm.resolveX25519KeyAgreement b o times bob.did netPolicy).run []
          (.ok (key, o₁)) ∧
        key = ⟨some (.str bob.kid), bob.publicKey⟩ ∧
        packTo C draw alice (.obj members) key = .ok text ∧
        peekSkid b.pf text = some alice.kid ∧ didOfKid alice.kid = alice.did ∧
        Prog.Runs (VtaDidcomm.resolveSender b o' times' args alice.did alice.kid).run []
          (.ok (sender, jwk, o₂)) ∧
        sender = ⟨some (.str alice.kid), alice.publicKey⟩ ∧
        Jwk.privateJwk (js "X25519") bob.privateKey bob.publicKey none = .ok privateJwk ∧
        ∀ resolve : ResolveSender,
          resolve alice.did alice.kid = .ok [⟨some alice.kid, some jwk⟩] →
          unpackInbound b.pf C ⟨bob.kid, some privateJwk⟩ (fun _ => []) text (some resolve) =
            .ok (openedFrom alice (.obj members)) := by
  refine ⟨fun secretKey client h => isDidKey_of_generate hC h, ?_⟩
  intro alice bob halice hbob hpairA hpairB draw members hdraw hfrom hplain o o' times times' netPolicy
    args
  obtain ⟨text, jwk, privateJwk, hjwk, hprivate, hpack, hpeek, hopens⟩ :=
    packTo_didKey hP hC halice hbob hpairA hpairB hdraw hfrom hplain
  obtain ⟨mA, hmA, hdidA, hagreesA⟩ := halice.did
  obtain ⟨mB, hmB, hdidB, hagreesB⟩ := hbob.did
  obtain ⟨o₁, hvta⟩ := exists_resolveX25519KeyAgreement hb o times hmB hagreesB netPolicy
  obtain ⟨o₂, hsender⟩ := exists_resolveSender_didKey hb o' times' args hmA hagreesA hjwk
  rw [← hdidB, ← hbob.kid] at hvta
  rw [← hdidA, ← halice.kid] at hsender
  exact ⟨_, o₁, text, _, jwk, o₂, privateJwk, hvta, rfl, hpack, hpeek, halice.didOfKid, hsender, rfl,
    hprivate, hopens⟩

/-- A resolver with the handler of did:key, and the client of a sample key. -/
def Resolver.Builtin.sampleDidKey : Resolver.Builtin := { Resolver.Builtin.sample with
  didKey := DidKey.resolve }

/-- The sample primitives generate clients. -/
lemma exists_ephemeral_sample (n : UInt8) : ∃ client,
    VtaRestAuth.generateEphemeralClient Crypto.sample (List.replicate 32 n) = .ok client := ⟨_, rfl⟩

/-- A message that says who it is from. -/
def sampleFrom (client : Client) : Json := .obj [(js "from", .str client.did)]

/-- The sample message is plain. -/
lemma plain_sampleFrom (client : Client) : Json.Plain id (sampleFrom client) :=
  .of_names [js "from"] rfl (by decide) (by simp [Json.Plain.str])

theorem did_key_peers_converse_example : ∃ alice bob text privateJwk jwk,
    VtaRestAuth.generateEphemeralClient Crypto.sample (List.replicate 32 5) = .ok alice ∧
    VtaRestAuth.generateEphemeralClient Crypto.sample (List.replicate 32 7) = .ok bob ∧
    unpackInbound Platform.json Crypto.sample ⟨bob.kid, some privateJwk⟩ (fun _ => []) text
        (some fun _ _ => .ok [⟨some alice.kid, some jwk⟩]) =
      .ok (openedFrom alice (sampleFrom alice)) := by
  obtain ⟨alice, halice⟩ := exists_ephemeral_sample 5
  obtain ⟨bob, hbob⟩ := exists_ephemeral_sample 7
  let o : Resolver.Owned Int := ⟨Resolver.init 1 0, ⟨1, .empty, by decide, by decide⟩⟩
  obtain ⟨hgenerated, hconverse⟩ := did_key_peers_converse (T := Int) (b := .sampleDidKey) rfl
    Platform.json_readsJson Crypto.sample_lawful
  obtain ⟨halice', hpairA⟩ := hgenerated _ _ halice
  obtain ⟨hbob', hpairB⟩ := hgenerated _ _ hbob
  obtain ⟨key, o₁, text, sender, jwk, o₂, privateJwk, -, -, -, -, -, -, -, -, hopens⟩ :=
    hconverse halice' hbob' hpairA hpairB ready_sample.fresh rfl (plain_sampleFrom alice) o o ⟨0, 0⟩
      ⟨0, 0⟩ none VtaDidcomm.Args.sample
  exact ⟨alice, bob, text, privateJwk, jwk, halice, hbob, hopens (fun _ _ => _) rfl⟩

/-- A did:key cannot be spoken for by another key. A frame that opens as from a did:key without a
seeded key, when the session's resolver answers for its `skid`, names the one key-agreement key of the
DID: its X25519 key or what its Ed25519 key converts to. The content key was wrapped under that very
key. Keys of the other codecs speak for nobody. -/
theorem did_key_sender_bound (hb : b.didKey = DidKey.resolve) {P : Platform} {recipient : Recipient}
    {senderKeys : JsString → List SenderKey} {frame did : JsString} {resolve : ResolveSender}
    {r : Unpacked} (h : unpackInbound P C recipient senderKeys frame (some resolve) = .ok r)
    (hsender : r.senderDid = some did) (hdid : startsWith did (js "did:key:") = true)
    (hseeds : senderKeys did = [])
    (hresolve : ∀ skid entry, peekSkid P frame = some skid → resolve did skid = .ok entry →
      ∃ (o o' : Resolver.Owned T) (times : Resolver.Times T) (args : VtaDidcomm.Args)
        (tr : List Exchange) (sender : AgreementKey) (jwk : Json),
        Prog.Runs (VtaDidcomm.resolveSender b o times args did skid).run tr (.ok (sender, jwk, o')) ∧
        entry = [⟨Json.asString sender.kid, some jwk⟩]) :
    ∃ m key o k cek kek, DidKey.IsKey m ∧ did = didKeyOf m ∧ Agrees m key ∧
      r.senderKid = some (defaultClientKid did key) ∧
      (∃ jwk, Accepts P C frame recipient (some jwk) r o k cek) ∧
      recipientKekAuthcrypt C k.recipientPriv k.ephemeralPublic key
        (authcryptInfo k.apu k.apv o.tag r.legacyKekUsed) o.crv = .ok kek ∧
      unwrapKey C kek k.encryptedKey = .ok cek := by
  obtain ⟨skid, claimed, hauth⟩ := unpackInbound_authentic h
  have hidentity : identityOfKid skid = did := Option.some.inj (hauth.senderDid.symm.trans hsender)
  have hdidOf : didOfKid skid = did := by
    rw [← sameReference_didKey hdid, sameReference_iff]
    rw [stripScidSrc_eq_self_iff.mpr (scidSrc_didKey hdid)]
    exact hidentity
  obtain ⟨senderKey, o, k, cek, hkeyOf, haccepts, hunder⟩ := hauth.unwrapped
  -- no key is seeded, so the key is one that was resolved
  obtain ⟨entry, hentry, hmem⟩ : ∃ entry, resolve did skid = .ok entry ∧ senderKey ∈ entry := by
    obtain hmem | hmem | ⟨entry, ⟨_, ⟨⟩, hanswer⟩, hmem⟩ := hkeyOf.1
    · rw [hidentity, hseeds] at hmem
      cases hmem
    · rw [hdidOf, hseeds] at hmem
      cases hmem
    · exact ⟨entry, hdidOf ▸ hanswer, hmem⟩
  obtain ⟨_, _, _, _, tr, sender, jwk, run, rfl⟩ := hresolve skid entry hauth.peek hentry
  cases List.mem_singleton.mp hmem
  obtain ⟨-, m, key, hm, hdidM, hagrees, hskid, -, hjwk⟩ := runs_resolveSender_didKey hb hdid run
  obtain ⟨senderPublic, kek, hraw, hkek, hunwrap⟩ := hunder
  have hpublic : senderPublic = key := by
    have hspells := (Jwk.spells_publicJwk (C := C) hjwk fun hec => absurd hec (by decide)).1
    exact Except.ok.inj (hraw.symm.trans (Jwk.spells_iff.mpr hspells).2)
  rw [hpublic] at hkek
  exact ⟨m, key, o, k, cek, kek, hm, hdidM, hagrees, hskid ▸ hauth.senderKid, ⟨jwk, haccepts⟩, hkek,
    hunwrap⟩

theorem did_key_sender_bound_example : ∃ (alice bob : Client) (text : JsString)
    (privateJwk jwk : Json),
    unpackInbound Platform.json Crypto.sample ⟨bob.kid, some privateJwk⟩ (fun _ => []) text
        (some fun _ _ => .ok [⟨some alice.kid, some jwk⟩]) =
      .ok (openedFrom alice (sampleFrom alice)) ∧
    ∃ m key, DidKey.IsKey m ∧ alice.did = didKeyOf m ∧ Agrees m key ∧
      alice.kid = defaultClientKid alice.did key := by
  obtain ⟨alice, halice⟩ := exists_ephemeral_sample 5
  obtain ⟨bob, hbob⟩ := exists_ephemeral_sample 7
  obtain ⟨halice, hpairA⟩ := isDidKey_of_generate Crypto.sample_lawful halice
  obtain ⟨hbob, hpairB⟩ := isDidKey_of_generate Crypto.sample_lawful hbob
  obtain ⟨text, jwk, privateJwk, hjwk, -, -, hpeek, hopens⟩ := packTo_didKey Platform.json_readsJson
    Crypto.sample_lawful halice hbob hpairA hpairB ready_sample.fresh rfl (plain_sampleFrom alice)
  have hunpack := hopens (fun _ _ => .ok [⟨some alice.kid, some jwk⟩]) rfl
  obtain ⟨m, hm, hdid, hagrees⟩ := halice.did
  let o : Resolver.Owned Int := ⟨Resolver.init 1 0, ⟨1, .empty, by decide, by decide⟩⟩
  obtain ⟨m', key, _, _, _, _, hm', hdid', hagrees', hkid, -⟩ :=
    did_key_sender_bound (T := Int) (b := .sampleDidKey) rfl hunpack (congrArg some halice.identity)
      (hdid ▸ didKey_didKeyOf m) rfl (by
        intro skid entry hskid hentry
        cases hpeek.symm.trans hskid
        cases hentry
        obtain ⟨o', run⟩ := exists_resolveSender_didKey (b := .sampleDidKey) rfl o ⟨0, 0⟩
          VtaDidcomm.Args.sample hm hagrees hjwk
        rw [← hdid, ← halice.kid] at run
        exact ⟨o, o', ⟨0, 0⟩, _, [], _, jwk, run, rfl⟩)
  refine ⟨alice, bob, text, privateJwk, jwk, hunpack, m', key, hm', hdid', hagrees', ?_⟩
  exact halice.senderKid.symm.trans (Option.some.inj hkid)

end Peers

end VtiDidcomm
