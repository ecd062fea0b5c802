import VtiDidcomm.Did.Key
import VtiDidcomm.Did.PeerDocument

/-!
# The keys of a did:peer DID

`did-peer.js` decodes each key element and drops what it decoded, so that it accepts whatever has
the shape of a multikey: an empty one, an unterminated varint, a short key, an unknown codec.
`did_peer_keys_iff` says which accepted identifiers have only keys in their documents: those whose
key elements did:key resolves.
-/

namespace VtiDidcomm.DidPeer
open Js Multibase

/-- The multibase text of a verification method decodes to a whole varint of a named codec, and to a
key of the length the codec requires. -/
def HasKey (vm : Json) : Prop :=
  ∃ m, decodeMultikey (vm.get (js "publicKeyMultibase")) = .ok m ∧ IsVarint m.codec ∧ DidKey.IsKey m

/-- did:key resolves the multikeys of keys, and no other text. -/
lemma hasKey_iff (id did value : JsString) :
    HasKey (multikeyMethod id did value) ↔ ∃ r, DidKey.resolve (js "did:key:" ++ value) = .ok r := by
  have hget : (multikeyMethod id did value).get (js "publicKeyMultibase") = some (.str value) := rfl
  rw [HasKey, hget, DidKey.resolves_iff]
  constructor
  · intro ⟨m, hm, _, hkey⟩
    obtain ⟨e, -⟩ := decodeMultikey_eq_ok.mp hm
    exact ⟨m, hkey, by rw [e]⟩
  · intro ⟨m, hkey, e⟩
    have hvalue : value = encodeMultikey m.codec m.key := List.append_cancel_left e
    exact ⟨m, hvalue ▸ decodeMultikey_encodeMultikey hkey.isVarint m.key, hkey.isVarint, hkey⟩

/-- The methods of the keys: one for each, whatever its number. -/
lemma forall_keyMethods {did : JsString} {keys : List (JsString × JsString)} {φ : Json → Prop}
    {ψ : JsString → Prop} (h : ∀ id value, φ (multikeyMethod id did value) ↔ ψ value) :
    (∀ vm ∈ keyMethods did keys, φ vm) ↔ ∀ k ∈ keys, ψ k.2 := by
  unfold keyMethods
  rw [List.forall_mem_map]
  constructor
  · intro hall k hk
    rw [← List.zipIdx_map_fst 1 keys] at hk
    obtain ⟨p, hp, rfl⟩ := List.mem_map.mp hk
    exact (h _ _).mp (hall p hp)
  · intro hall p hp
    exact (h _ _).mpr (hall p.1 (List.fst_mem_of_mem_zipIdx hp))

/-- Every verification method of an accepted identifier is of a key if and only if did:key resolves
the text of each of its key elements. -/
theorem did_peer_keys_iff {pf : Platform} {did : JsString} {doc : PeerDocument}
    (h : resolve pf did = .ok doc) :
    (∀ vm ∈ doc.verificationMethod, HasKey vm) ↔
      ∀ k ∈ keysOf (elementsOf did).tail, ∃ r, DidKey.resolve (js "did:key:" ++ k.2) = .ok r := by
  obtain ⟨r, hbuilt, rfl⟩ := resolve_eq_ok h
  have hmethods : (r.document did).verificationMethod =
      keyMethods did (keysOf (elementsOf did).tail) := hbuilt.methods
  rw [hmethods]
  exact forall_keyMethods fun id value => hasKey_iff id did value

/-- An identifier with one X25519 key. -/
theorem did_peer_keys_example :
    ∃ doc, resolve Platform.plain
        (js "did:peer:2.Ez6LSbgBAXJos6Tik6PNmXeWxKbDUr9Y7hcB9syigVTeXiNmm") = .ok doc ∧
      ∀ vm ∈ doc.verificationMethod, HasKey vm := by
  obtain ⟨doc, hdoc⟩ := exists_of_isOk (x := resolve Platform.plain
    (js "did:peer:2.Ez6LSbgBAXJos6Tik6PNmXeWxKbDUr9Y7hcB9syigVTeXiNmm")) (by decide +kernel)
  have hkeys : keysOf (elementsOf
      (js "did:peer:2.Ez6LSbgBAXJos6Tik6PNmXeWxKbDUr9Y7hcB9syigVTeXiNmm")).tail =
        [(js "keyAgreement", js "z6LSbgBAXJos6Tik6PNmXeWxKbDUr9Y7hcB9syigVTeXiNmm")] := by
    decide +kernel
  refine ⟨doc, hdoc, (did_peer_keys_iff hdoc).mpr ?_⟩
  rw [hkeys]
  intro k hk
  rw [List.mem_singleton.mp hk]
  exact exists_of_isOk (by decide +kernel)

/-- An empty multikey is accepted: its codec is no varint. -/
theorem did_peer_accepts_empty_key :
    ∃ doc, resolve Platform.plain (js "did:peer:2.Ez") = .ok doc ∧
      ¬ ∀ vm ∈ doc.verificationMethod, HasKey vm := by
  obtain ⟨doc, hdoc⟩ := exists_of_isOk (x := resolve Platform.plain (js "did:peer:2.Ez"))
    (by decide +kernel)
  refine ⟨doc, hdoc, fun hall => ?_⟩
  obtain ⟨r, hbuilt, rfl⟩ := resolve_eq_ok hdoc
  have hkeys : keysOf (elementsOf (js "did:peer:2.Ez")).tail = [(js "keyAgreement", js "z")] := by
    decide +kernel
  have hmethods : (r.document (js "did:peer:2.Ez")).verificationMethod =
      keyMethods (js "did:peer:2.Ez") [(js "keyAgreement", js "z")] := hkeys ▸ hbuilt.methods
  rw [hmethods] at hall
  obtain ⟨_, hresolve⟩ := (forall_keyMethods fun id value =>
    hasKey_iff id (js "did:peer:2.Ez") value).mp hall _ (List.mem_singleton_self _)
  have hrefused : (DidKey.resolve (js "did:key:" ++ js "z")).isOk = false := by decide +kernel
  rw [hresolve] at hrefused
  cases hrefused

end VtiDidcomm.DidPeer
