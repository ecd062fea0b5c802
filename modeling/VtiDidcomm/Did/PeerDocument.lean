import VtiDidcomm.Did.Peer
import Mathlib.Data.List.Forall2

/-!
# The document of a did:peer DID

What the loop over the elements has built after each of them (`Built`): the verification methods are
the key elements numbered from one, each id stands in the relationship of its purpose code, and the
services are those of all service elements, the ones without an id numbered from zero. A service
element leaves the keys as they are and a key element the services, so that the two numberings do
not disturb each other.
-/

namespace VtiDidcomm.DidPeer
open Js Multibase

/-! ## What an identifier says -/

/-- The relationship and the multibase text of a key element. -/
def keyElement : JsString → Option (JsString × JsString)
  | code :: value => (purposeRelationship code).map fun relationship => (relationship, value)
  | [] => none

/-- The text of a service element. -/
def serviceElement : JsString → Option JsString
  | code :: value => if code = 0x53 then some value else none
  | [] => none

/-- The key elements, in order. -/
def keysOf (elements : List JsString) : List (JsString × JsString) := elements.filterMap keyElement

/-- The verification methods of the keys, numbered from one. -/
def keyMethods (did : JsString) (keys : List (JsString × JsString)) : List Json :=
  (keys.zipIdx 1).map fun k => multikeyMethod (keyId did k.2) did k.1.2

/-- The ids of the keys of a relationship. -/
def references (did name : JsString) (keys : List (JsString × JsString)) : List JsString :=
  ((keys.zipIdx 1).filter (·.1.1 = name)).map fun k => keyId did k.2

/-- Services with the ids of those that lack one, numbered from `n` on. -/
def numberServices (did : JsString) (n : Nat) (expanded : List Service) : List Service :=
  expanded.mapIdx fun i service => withId did (n + (expanded.take i).countP lacksId) service

variable {pf : Platform} {did : JsString}

/-- The services of the service elements: the values they encode, expanded. -/
structure Encodes (pf : Platform) (elements : List JsString) (values : List Json)
    (expanded : List Service) : Prop where
  parsed : ∃ lists, values = lists.flatten ∧
    List.Forall₂ (fun value list => parseService pf value = .ok list)
      (elements.filterMap serviceElement) lists
  expanded : List.Forall₂ (fun svc service => expandService svc = .ok service) values expanded

/-! ## Services -/

/-- The numbering goes on where the first services left it. -/
lemma numberServices_append (n : Nat) (a b : List Service) :
    numberServices did n (a ++ b) =
      numberServices did n a ++ numberServices did (n + a.countP lacksId) b := by
  unfold numberServices
  rw [List.mapIdx_append]
  congr 1
  · apply List.mapIdx_eq_mapIdx_iff.mpr
    intro i hi
    rw [List.take_append_of_le_length (by omega)]
  · apply List.mapIdx_eq_mapIdx_iff.mpr
    intro i hi
    rw [List.take_append, List.take_of_length_le (by omega), List.countP_append, Nat.add_sub_cancel,
      Nat.add_assoc]

/-- A service without an id takes the next number. -/
lemma numberServices_cons (n : Nat) (service : Service) (expanded : List Service) :
    numberServices did n (service :: expanded) = withId did n service ::
      numberServices did (if lacksId service then n + 1 else n) expanded := by
  have h : numberServices did n ([service] ++ expanded) = _ :=
    numberServices_append n [service] expanded
  rw [List.singleton_append, List.countP_singleton] at h
  rw [h]
  simp only [numberServices, List.mapIdx_cons, List.mapIdx_nil, List.take_zero, List.countP_nil,
    Nat.add_zero, List.singleton_append]
  split <;> rfl

/-- The callback over a list: each value is expanded, and numbered after those before it. -/
lemma expandServices_eq_ok {n n' : Nat} {list : List Json} {services : List Service}
    (h : expandServices did n list = .ok (services, n')) :
    ∃ expanded, List.Forall₂ (fun svc service => expandService svc = .ok service) list expanded ∧
      services = numberServices did n expanded ∧ n' = n + expanded.countP lacksId := by
  induction list generalizing n n' services with
  | nil =>
    cases h
    exact ⟨[], .nil, rfl, rfl⟩
  | cons svc list ih =>
    obtain ⟨service, hservice, h⟩ := bind_eq_ok.mp h
    obtain ⟨⟨services', m⟩, hrest, h⟩ := bind_eq_ok.mp h
    cases h
    obtain ⟨expanded, hall, rfl, rfl⟩ := ih hrest
    refine ⟨service :: expanded, .cons hservice hall, (numberServices_cons n service expanded).symm, ?_⟩
    rw [List.countP_cons]
    split <;> omega

/-! ## The loop -/

/-- What has been read after the elements `done`. -/
structure Built (pf : Platform) (did : JsString) (done : List JsString) (r : Reading) : Prop where
  keyN : r.keyN = (keysOf done).length
  methods : r.verificationMethod = keyMethods did (keysOf done)
  decodes : ∀ k ∈ keysOf done, ∃ m, decodeMultikey (some (.str k.2)) = .ok m
  references : r.relationships =
    relationshipNames.map fun name => (name, references did name (keysOf done))
  services : ∃ values expanded, Encodes pf done values expanded ∧
    r.services = numberServices did 0 expanded ∧ r.serviceN = expanded.countP lacksId

/-- Nothing is built at the start. -/
lemma built_start : Built pf did [] Reading.start :=
  ⟨rfl, rfl, by simp [keysOf], rfl, [], [], ⟨⟨[], rfl, .nil⟩, .nil⟩, rfl, rfl⟩

/-- The keys are those of the parts. -/
lemma keysOf_append (a b : List JsString) : keysOf (a ++ b) = keysOf a ++ keysOf b :=
  List.filterMap_append

/-- The last key's method comes last. -/
lemma keyMethods_append (keys : List (JsString × JsString)) (k : JsString × JsString) :
    keyMethods did (keys ++ [k]) =
      keyMethods did keys ++ [multikeyMethod (keyId did (keys.length + 1)) did k.2] := by
  simp [keyMethods, List.zipIdx_append, Nat.add_comm]

/-- The last key's reference comes last, under its own relationship. -/
lemma references_append (name : JsString) (keys : List (JsString × JsString))
    (k : JsString × JsString) :
    references did name (keys ++ [k]) = references did name keys ++
      if k.1 = name then [keyId did (keys.length + 1)] else [] := by
  unfold references
  rw [List.zipIdx_append, List.filter_append, List.map_append]
  congr 1
  by_cases hk : k.1 = name
  · simp [hk, Nat.add_comm]
  · simp [hk]

/-- A key element adds its method, and its id to its relationship. -/
lemma Built.key {done : List JsString} {r : Reading} {element : JsString} {k : JsString × JsString}
    {m : Multikey} (h : Built pf did done r) (hk : keyElement element = some k)
    (hs : serviceElement element = none) (hm : decodeMultikey (some (.str k.2)) = .ok m) :
    Built pf did (done ++ [element]) { r with
      keyN := r.keyN + 1
      verificationMethod :=
        r.verificationMethod ++ [multikeyMethod (keyId did (r.keyN + 1)) did k.2]
      relationships := pushReference k.1 (keyId did (r.keyN + 1)) r.relationships } := by
  have hkeys : keysOf (done ++ [element]) = keysOf done ++ [k] := by
    rw [keysOf_append]
    simp [keysOf, hk]
  refine ⟨?_, ?_, ?_, ?_, ?_⟩
  · rw [hkeys, List.length_append, h.keyN]
    rfl
  · rw [hkeys, keyMethods_append, h.methods, h.keyN]
  · rw [hkeys]
    intro k' hk'
    cases List.mem_append.mp hk' with
    | inl hk' => exact h.decodes k' hk'
    | inr hk' =>
      rw [List.mem_singleton.mp hk']
      exact ⟨m, hm⟩
  · simp only [pushReference, h.references, h.keyN, hkeys, List.map_map, references_append]
    apply List.map_congr_left
    intro name _
    -- the reference is pushed to the list of the key's purpose only
    by_cases hname : name = k.1
    · simp [hname]
    · simp [hname, Ne.symm hname]
  · obtain ⟨values, expanded, ⟨⟨lists, hvalues, hparsed⟩, hexpanded⟩, hservices⟩ := h.services
    refine ⟨values, expanded, ⟨⟨lists, hvalues, ?_⟩, hexpanded⟩, hservices⟩
    rw [List.filterMap_append]
    simpa [hs] using hparsed

/-- A service element is its services expanded and numbered. -/
lemma decodeService_eq_ok {value : JsString} {n n' : Nat} {services : List Service}
    (h : decodeService pf value did n = .ok (services, n')) :
    ∃ list expanded, parseService pf value = .ok list ∧
      List.Forall₂ (fun svc service => expandService svc = .ok service) list expanded ∧
      services = numberServices did n expanded ∧ n' = n + expanded.countP lacksId := by
  obtain ⟨list, hlist, h⟩ := bind_eq_ok.mp h
  obtain ⟨expanded, hall, hservices, hn⟩ := expandServices_eq_ok h
  exact ⟨list, expanded, hlist, hall, hservices, hn⟩

/-- A service element adds its services, numbered after those read before. -/
lemma Built.service {done : List JsString} {r : Reading} {element value : JsString}
    {services : List Service} {n' : Nat} (h : Built pf did done r)
    (hk : keyElement element = none) (hs : serviceElement element = some value)
    (hd : decodeService pf value did r.serviceN = .ok (services, n')) :
    Built pf did (done ++ [element])
      { r with services := r.services ++ services, serviceN := n' } := by
  have hkeys : keysOf (done ++ [element]) = keysOf done := by
    rw [keysOf_append]
    simp [keysOf, hk]
  obtain ⟨values, expanded, ⟨⟨lists, hvalues, hparsed⟩, hexpanded⟩, hnumbered, hn⟩ := h.services
  obtain ⟨list, more, hlist, hmore, rfl, rfl⟩ := decodeService_eq_ok hd
  refine ⟨by rw [hkeys, h.keyN], by rw [hkeys, h.methods], by rw [hkeys]; exact h.decodes,
    by rw [hkeys, h.references], values ++ list, expanded ++ more, ⟨?_, ?_⟩, ?_, ?_⟩
  · refine ⟨lists ++ [list], by rw [hvalues, List.flatten_append, List.flatten_singleton], ?_⟩
    rw [List.filterMap_append]
    simp only [List.filterMap_cons, hs, List.filterMap_nil]
    exact List.rel_append hparsed (.cons hlist .nil)
  · exact List.rel_append hexpanded hmore
  · rw [numberServices_append, hnumbered, hn, Nat.zero_add]
  · rw [List.countP_append, hn]

/-- The body of the loop keeps what has been built, for one more element. -/
lemma Built.addElement {done : List JsString} {r r' : Reading} {element : JsString} {i : Nat}
    (h : Built pf did done r) (hstep : addElement pf did i element r = .ok r') :
    Built pf did (done ++ [element]) r' := by
  match element, hstep with
  | [], hstep => cases hstep
  | [_], hstep => cases hstep
  | code :: c :: value, hstep =>
    simp only [DidPeer.addElement] at hstep
    -- `S` is a service, and any other code the purpose of a key
    by_cases hS : code = 0x53
    · rw [if_pos hS] at hstep
      obtain ⟨⟨services, n'⟩, hd, hstep⟩ := bind_eq_ok.mp hstep
      cases hstep
      apply h.service _ _ hd
      · rw [hS]
        rfl
      · simp [serviceElement, hS]
    · rw [if_neg hS] at hstep
      cases hp : purposeRelationship code with
      | none =>
        rw [hp] at hstep
        cases hstep
      | some relationship =>
        rw [hp] at hstep
        obtain ⟨m, hm, hstep⟩ := bind_eq_ok.mp hstep
        cases hstep
        apply h.key (k := (relationship, c :: value)) _ _ hm
        · simp [keyElement, hp]
        · simp [serviceElement, hS]

/-- The elements are built in one after the other. -/
lemma Built.addElements {done elements : List JsString} {r r' : Reading} {i : Nat}
    (h : Built pf did done r) (hrun : addElements pf did i r elements = .ok r') :
    Built pf did (done ++ elements) r' := by
  induction elements generalizing done r i with
  | nil =>
    cases hrun
    rwa [List.append_nil]
  | cons element elements ih =>
    obtain ⟨r₁, hstep, hrun⟩ := bind_eq_ok.mp hrun
    have hdone := ih (h.addElement hstep) hrun
    rwa [List.append_assoc, List.singleton_append] at hdone

/-- An accepted identifier: its document is that of what its elements build. -/
lemma resolve_eq_ok {doc : PeerDocument} (h : resolve pf did = .ok doc) :
    ∃ r, Built pf did (elementsOf did).tail r ∧ doc = r.document did := by
  obtain ⟨_, -, h⟩ := bind_eq_ok.mp h
  obtain ⟨_, -, h⟩ := bind_eq_ok.mp h
  obtain ⟨_, -, h⟩ := bind_eq_ok.mp h
  obtain ⟨r, hr, h⟩ := bind_eq_ok.mp h
  cases h
  exact ⟨r, built_start.addElements hr, rfl⟩

/-! ## Ids -/

/-- The ids of keys differ. -/
lemma keyId_injective (did : JsString) : Function.Injective (keyId did) := by
  intro m n h
  exact natText_injective (List.append_cancel_left h)

/-- The ids of services differ. -/
lemma serviceId_injective (did : JsString) : Function.Injective (serviceId did) := by
  -- a numbered id is longer than the first one
  have hne (n : Nat) (h : did ++ js "#service" = did ++ js "#service-" ++ natText n) : False := by
    have hlen := congrArg List.length h
    simp [show (js "#service").length = 8 from rfl, show (js "#service-").length = 9 from rfl] at hlen
    omega
  intro m n h
  unfold serviceId at h
  by_cases hm : m = 0
  · by_cases hn : n = 0
    · rw [hm, hn]
    · rw [if_pos hm, if_neg hn] at h
      exact (hne n h).elim
  · by_cases hn : n = 0
    · rw [if_neg hm, if_pos hn] at h
      exact (hne m h.symm).elim
    · rw [if_neg hm, if_neg hn] at h
      exact natText_injective (List.append_cancel_left h)

/-- The id of a key stands under a relationship exactly where the key has it. -/
lemma mem_references {name : JsString} {keys : List (JsString × JsString)} {n : Nat} :
    keyId did (n + 1) ∈ references did name keys ↔ ∃ k, keys[n]? = some k ∧ k.1 = name := by
  have hindex (k : JsString × JsString) : (k, n + 1) ∈ keys.zipIdx 1 ↔ keys[n]? = some k := by
    rw [List.mk_mem_zipIdx_iff_le_and_getElem?_sub, Nat.add_sub_cancel]
    simp
  unfold references
  simp only [List.mem_map, List.mem_filter, decide_eq_true_eq]
  constructor
  · intro ⟨p, ⟨hp, hname⟩, hid⟩
    obtain ⟨k, m⟩ := p
    have e : m = n + 1 := keyId_injective did hid
    subst e
    exact ⟨k, (hindex k).mp hp, hname⟩
  · intro ⟨k, hk, hname⟩
    exact ⟨(k, n + 1), ⟨(hindex k).mpr hk, hname⟩, rfl⟩

/-- No key is referred to twice. -/
lemma nodup_references (did name : JsString) (keys : List (JsString × JsString)) :
    (references did name keys).Nodup := by
  have hindex : ((keys.zipIdx 1).filter (·.1.1 = name)).map Prod.snd |>.Nodup := by
    have hall : ((keys.zipIdx 1).map Prod.snd).Nodup := by
      rw [List.zipIdx_map_snd]
      exact List.nodup_range'
    exact hall.sublist (List.filter_sublist.map _)
  have hmap : references did name keys =
      (((keys.zipIdx 1).filter (·.1.1 = name)).map Prod.snd).map (keyId did) := by
    rw [references, List.map_map]
    rfl
  rw [hmap]
  exact hindex.map (keyId_injective did)

/-- The ids that are given, to the services that lack one: the numbers from `n` on, in order. -/
lemma given_ids (did : JsString) (n : Nat) (expanded : List Service) :
    (((expanded.zip (numberServices did n expanded)).filter (lacksId ·.1)).map
      fun p => p.2.get (js "id")) =
      (List.range' n (expanded.countP lacksId)).map fun m => some (.json (.str (serviceId did m))) := by
  induction expanded generalizing n with
  | nil => rfl
  | cons service expanded ih =>
    rw [numberServices_cons, List.zip_cons_cons, List.countP_cons]
    by_cases hl : lacksId service = true
    · simp only [hl, if_true, List.filter_cons_of_pos, List.map_cons, ih, withId,
        OrderedMap.get_set_self, List.range'_succ]
    · simp only [hl, Bool.false_eq_true, if_false, List.filter_cons_of_neg, not_false_eq_true, ih,
        Nat.add_zero]

/-! ## The document -/

/-- The structure of the document of `did`: the keys, the references of each, and the services with
the ids that are given. -/
structure IsPeerDocument (pf : Platform) (did : JsString) (elements : List JsString)
    (doc : PeerDocument) : Prop where
  id : doc.id = did
  methods : doc.verificationMethod = keyMethods did (keysOf elements)
  /-- A relationship is there exactly if it has references, which are its keys' ids in order. -/
  relationships : ∀ name refs, (name, refs) ∈ doc.relationships ↔
    name ∈ relationshipNames ∧ refs ≠ [] ∧ refs = references did name (keysOf elements)
  /-- Each id stands once, in the relationship of its key. -/
  once : ∀ n k, (keysOf elements)[n]? = some k →
    (∃ refs, (k.1, refs) ∈ doc.relationships ∧ refs.count (keyId did (n + 1)) = 1) ∧
      ∀ name refs, (name, refs) ∈ doc.relationships → keyId did (n + 1) ∈ refs → name = k.1
  services : ∃ values expanded, Encodes pf elements values expanded ∧
    doc.service =
      (if expanded = [] then none else some (numberServices did 0 expanded)) ∧
    (((expanded.zip (numberServices did 0 expanded)).filter (lacksId ·.1)).map
      fun p => p.2.get (js "id")) = (List.range (expanded.countP lacksId)).map fun m =>
        some (.json (.str (serviceId did m)))
  /-- Ids of different numbers differ. -/
  distinct : Function.Injective (keyId did) ∧ Function.Injective (serviceId did)

/-- The relationship of a purpose code is one of a document. -/
lemma purposeRelationship_mem {code : CodeUnit} {name : JsString}
    (h : purposeRelationship code = some name) : name ∈ relationshipNames := by
  unfold purposeRelationship at h
  split_ifs at h
  all_goals
    cases h
    decide

/-- The relationship of a key is one of a document. -/
lemma mem_relationshipNames_of_key {elements : List JsString} {k : JsString × JsString}
    (h : k ∈ keysOf elements) : k.1 ∈ relationshipNames := by
  obtain ⟨element, -, hk⟩ := List.mem_filterMap.mp h
  cases element with
  | nil => cases hk
  | cons code value =>
    obtain ⟨name, hname, rfl⟩ := Option.map_eq_some_iff.mp hk
    exact purposeRelationship_mem hname

/-- The document of an accepted identifier has its verification methods, relationships and services
from the elements of the identifier, whatever their order. -/
theorem did_peer_document {pf : Platform} {did : JsString} {doc : PeerDocument}
    (h : resolve pf did = .ok doc) : IsPeerDocument pf did (elementsOf did).tail doc := by
  obtain ⟨r, hbuilt, rfl⟩ := resolve_eq_ok h
  generalize (elementsOf did).tail = elements at hbuilt ⊢
  -- a relationship without references is left out
  have hrel (name : JsString) (refs : List JsString) :
      (name, refs) ∈ (r.document did).relationships ↔
        name ∈ relationshipNames ∧ refs ≠ [] ∧ refs = references did name (keysOf elements) := by
    simp only [Reading.document, List.mem_filter, hbuilt.references, List.mem_map, Prod.mk.injEq,
      decide_eq_true_eq, List.length_pos_iff]
    constructor
    · intro ⟨⟨name', hname, e, hrefs⟩, hne⟩
      subst e
      exact ⟨hname, hne, hrefs.symm⟩
    · intro ⟨hname, hne, hrefs⟩
      exact ⟨⟨name, hname, rfl, hrefs.symm⟩, hne⟩
  refine ⟨rfl, hbuilt.methods, hrel, fun n k hk => ⟨?_, ?_⟩, ?_,
    keyId_injective did, serviceId_injective did⟩
  · have hmem : keyId did (n + 1) ∈ references did k.1 (keysOf elements) :=
      mem_references.mpr ⟨k, hk, rfl⟩
    refine ⟨_, (hrel _ _).mpr ⟨?_, List.ne_nil_of_mem hmem, rfl⟩, ?_⟩
    · exact mem_relationshipNames_of_key (List.mem_of_getElem? hk)
    · exact List.count_eq_one_of_mem (nodup_references _ _ _) hmem
  · intro name refs hrefs hid
    obtain ⟨-, -, rfl⟩ := (hrel _ _).mp hrefs
    obtain ⟨k', hk', rfl⟩ := mem_references.mp hid
    rw [hk, Option.some.injEq] at hk'
    rw [hk']
  · obtain ⟨values, expanded, henc, hservices, -⟩ := hbuilt.services
    refine ⟨values, expanded, henc, ?_, ?_⟩
    · cases expanded with
      | nil => simp [Reading.document, hservices, numberServices]
      | cons service expanded =>
        rw [Reading.document, hservices, numberServices_cons]
        simp
    · rw [given_ids, List.range_eq_range']

/-- A key agreement key and an authentication key, and a service between them. -/
def peerExample : JsString :=
  js "did:peer:2.Ez6LSbgBAXJos6Tik6PNmXeWxKbDUr9Y7hcB9syigVTeXiNmm.Se30" ++
    js ".Vz6LSbgBAXJos6Tik6PNmXeWxKbDUr9Y7hcB9syigVTeXiNmm"

/-- The service between the keys does not shift their numbers. -/
theorem did_peer_document_example :
    ∃ doc, resolve Platform.plain peerExample = .ok doc ∧
      doc.verificationMethod = keyMethods peerExample
        [(js "keyAgreement", js "z6LSbgBAXJos6Tik6PNmXeWxKbDUr9Y7hcB9syigVTeXiNmm"),
          (js "authentication", js "z6LSbgBAXJos6Tik6PNmXeWxKbDUr9Y7hcB9syigVTeXiNmm")] := by
  obtain ⟨doc, hdoc⟩ := exists_of_isOk (x := resolve Platform.plain peerExample) (by decide +kernel)
  have hkeys : keysOf (elementsOf peerExample).tail =
      [(js "keyAgreement", js "z6LSbgBAXJos6Tik6PNmXeWxKbDUr9Y7hcB9syigVTeXiNmm"),
        (js "authentication", js "z6LSbgBAXJos6Tik6PNmXeWxKbDUr9Y7hcB9syigVTeXiNmm")] := by
    decide +kernel
  exact ⟨doc, hdoc, hkeys ▸ (did_peer_document hdoc).methods⟩

end VtiDidcomm.DidPeer
