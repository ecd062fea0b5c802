import VtiDidcomm.Did.PeerDocument

/-!
# The fields of a did:peer service

What `expandService` makes of the fields of a service object. A field keeps its name and its value,
the abbreviations apart, unless the name or the type is one that every object inherits from
`Object.prototype`: the lookup in the table then finds the inherited member, and the field is
renamed to the text of it, or the type replaced by it. `did_peer_services_iff` is exact about it.
-/

namespace VtiDidcomm.DidPeer
open Js

/-! ## The specification -/

/-- The name of a field, the abbreviations written out. -/
def renamed (k : JsString) : JsString :=
  if k = js "t" then js "type"
  else if k = js "s" then js "serviceEndpoint"
  else if k = js "r" then js "routingKeys"
  else if k = js "a" then js "accept"
  else k

/-- The value of a field: a type of exactly `dm` is written out. -/
def expandedValue (name : JsString) : Json → Json
  | .str s =>
    if name = js "type" ∧ s = js "dm" then .str (js "DIDCommMessaging") else .str s
  | v => v

/-- The fields of a service object, with the abbreviations written out. -/
def expandedFields (members : List (JsString × Json)) : List (JsString × FieldValue) :=
  members.map fun m => (renamed m.1, .json (expandedValue (renamed m.1) m.2))

/-- Whether no two fields of an object have one name after the expansion. -/
def NoCollision (members : List (JsString × Json)) : Prop :=
  (members.map fun m => renamed m.1).Nodup

/-- Whether an object has an id that is not empty. What counts as empty is a parameter: the empty
text, or also the other values that are falsy. -/
def hasId (empty : Json → Bool) (members : List (JsString × Json)) : Bool :=
  match Json.lookup (js "id") members with
  | none => false
  | some j => !empty j

/-- The emitted service has the fields of the object, and an id that the object lacked. -/
structure PreservesFields (empty : Json → Bool) (members : List (JsString × Json)) (out : Service) :
    Prop where
  own : hasId empty members = true → out.entries = expandedFields members
  given : hasId empty members = false →
    out.entries.filter (·.1 ≠ js "id") = (expandedFields members).filter (·.1 ≠ js "id") ∧
      ∃ id, out.get (js "id") = some (.json (.str id))

/-- Whether no field name and no type is the name of a member of `Object.prototype`. -/
def OwnNames (members : List (JsString × Json)) : Prop :=
  ∀ m ∈ members, m.1 ∉ objectPrototype ∧
    (renamed m.1 = js "type" → ∀ s, m.2 = .str s → s ∉ objectPrototype)

/-- Whether an id that the code reads as absent counts as empty. -/
def ReadsId (empty : Json → Bool) (members : List (JsString × Json)) : Prop :=
  ∀ j, Json.lookup (js "id") members = some j → Json.truthy (some j) = false → empty j = true

/-! ## Names and values -/

/-- A key that is not inherited is found in the table or not at all. -/
lemma find_of_notMem {table : List (JsString × JsString)} {key : JsString}
    (h : key ∉ objectPrototype) :
    find table key = (table.find? (·.1 = key)).map fun entry => .own entry.2 := by
  unfold find
  cases table.find? (·.1 = key) with
  | some entry => rfl
  | none => simp [h]

/-- A field whose name is not inherited is renamed by the table. -/
lemma fieldKey_of_notMem {k : JsString} (h : k ∉ objectPrototype) : fieldKey k = renamed k := by
  rw [fieldKey, find_of_notMem h]
  unfold renamed serviceField
  by_cases ht : k = js "t"
  · subst ht
    rfl
  by_cases hs : k = js "s"
  · subst hs
    rfl
  by_cases hr : k = js "r"
  · subst hr
    rfl
  by_cases ha : k = js "a"
  · subst ha
    rfl
  · simp [Ne.symm ht, Ne.symm hs, Ne.symm hr, Ne.symm ha, ht, hs, hr, ha]

/-- A property of an object never has the name of an inherited member. -/
lemma fieldKey_notMem (k : JsString) : fieldKey k ∉ objectPrototype := by
  by_cases hk : k ∈ objectPrototype
  · have hall : ∀ k ∈ objectPrototype, fieldKey k ∉ objectPrototype := by decide
    exact hall k hk
  · rw [fieldKey_of_notMem hk]
    unfold renamed
    split_ifs
    · decide
    · decide
    · decide
    · decide
    · exact hk

/-- A type whose name is not inherited is expanded by the table. -/
lemma fieldValue_of_notMem {name : JsString} {v : Json}
    (h : name = js "type" → ∀ s, v = .str s → s ∉ objectPrototype) :
    fieldValue name v = .json (expandedValue name v) := by
  cases v with
  | str s =>
    by_cases hname : name = js "type"
    · have hs := h hname s rfl
      simp only [fieldValue, hname, if_true, find_of_notMem hs, serviceType, expandedValue, true_and]
      by_cases hdm : s = js "dm"
      · subst hdm
        rfl
      · simp [hdm, Ne.symm hdm]
    · simp [fieldValue, expandedValue, hname]
  | null | bool _ | num _ | arr _ | obj _ => rfl

/-- An inherited type is not the string it was. -/
lemma fieldValue_inherited {s : JsString} (h : s ∈ objectPrototype) :
    fieldValue (js "type") (.str s) = .inherited s := by
  have hnone : serviceType.find? (·.1 = s) = none := by
    revert s
    decide
  simp [fieldValue, find, hnone, h]

/-! ## The expanded object -/

/-- Every name of the object is the expansion of a name. -/
lemma mem_expandFields {out : Service} {entries : List (JsString × Json)} {key : JsString}
    {value : FieldValue} (h : (key, value) ∈ (expandFields out entries).entries) :
    (key, value) ∈ out.entries ∨
      ∃ m ∈ entries, key = fieldKey m.1 ∧ value = fieldValue (fieldKey m.1) m.2 := by
  induction entries generalizing out with
  | nil => exact .inl h
  | cons e entries ih =>
    cases ih h with
    | inl h =>
      rw [OrderedMap.mem_entries, OrderedMap.get_set] at h
      split at h
      · rename_i hkey
        exact .inr ⟨e, List.mem_cons_self, hkey, (Option.some.inj h).symm⟩
      · exact .inl (OrderedMap.mem_entries.mpr h)
    | inr h =>
      obtain ⟨m, hm, hkey, hvalue⟩ := h
      exact .inr ⟨m, List.mem_cons_of_mem _ hm, hkey, hvalue⟩

/-- Fields with different expanded names are added one after the other. -/
lemma entries_expandFields {out : Service} {entries : List (JsString × Json)}
    (hnodup : (entries.map fun m => fieldKey m.1).Nodup)
    (hnew : ∀ m ∈ entries, out.has (fieldKey m.1) = false) :
    (expandFields out entries).entries = out.entries ++
      entries.map fun m => (fieldKey m.1, fieldValue (fieldKey m.1) m.2) := by
  induction entries generalizing out with
  | nil => simp [expandFields]
  | cons e entries ih =>
    rw [List.map_cons, List.nodup_cons] at hnodup
    obtain ⟨he, hnodup⟩ := hnodup
    obtain ⟨hnew, hrest⟩ := List.forall_mem_cons.mp hnew
    rw [expandFields, ih hnodup, OrderedMap.entries_set_of_not_has _ hnew, List.append_assoc]
    · rfl
    · intro m hm
      have hne : fieldKey m.1 ≠ fieldKey e.1 := by
        intro heq
        exact he (heq ▸ List.mem_map_of_mem hm)
      rw [OrderedMap.has_eq_false, OrderedMap.get_set_ne hne]
      exact OrderedMap.has_eq_false.mp (hrest m hm)

/-- With names of its own, the object has the expanded fields. -/
lemma entries_of_ownNames {members : List (JsString × Json)} (hno : NoCollision members)
    (hown : OwnNames members) :
    (expandFields OrderedMap.empty members).entries = expandedFields members := by
  have hkeys : members.map (fun m => fieldKey m.1) = members.map fun m => renamed m.1 := by
    apply List.map_congr_left
    intro m hm
    exact fieldKey_of_notMem (hown m hm).1
  rw [entries_expandFields (by rwa [hkeys]) (fun _ _ => rfl), expandedFields]
  apply List.map_congr_left
  intro m hm
  obtain ⟨hname, htype⟩ := hown m hm
  rw [fieldKey_of_notMem hname, fieldValue_of_notMem htype]

/-! ## The id -/

/-- Setting a field leaves the others. -/
lemma filter_set_self (service : Service) (k : JsString) (v : FieldValue) :
    (service.set k v).entries.filter (·.1 ≠ k) = service.entries.filter (·.1 ≠ k) := by
  cases hk : service.has k with
  | false =>
    rw [OrderedMap.entries_set_of_not_has v hk, List.filter_append]
    simp
  | true =>
    obtain ⟨pre, old, post, e⟩ := OrderedMap.exists_entries_of_has hk
    rw [OrderedMap.entries_set_of_has e, e]
    simp

/-- Only `id` is renamed to `id`. -/
lemma renamed_eq_id {k : JsString} : renamed k = js "id" ↔ k = js "id" := by
  constructor
  · intro h
    unfold renamed at h
    split_ifs at h
    · exact absurd h (by decide)
    · exact absurd h (by decide)
    · exact absurd h (by decide)
    · exact absurd h (by decide)
    · exact h
  · rintro rfl
    rfl

/-- The id that the object has is the one the service has. -/
lemma get_id_of_entries {members : List (JsString × Json)} {service : Service}
    (h : service.entries = expandedFields members) :
    service.get (js "id") = (Json.lookup (js "id") members).map .json := by
  rw [OrderedMap.get, h]
  clear h
  induction members with
  | nil => rfl
  | cons m members ih =>
    obtain ⟨k, v⟩ := m
    rw [expandedFields, List.map_cons, ← expandedFields, Json.lookup]
    by_cases hk : k = js "id"
    · have hvalue : expandedValue (renamed k) v = v := by
        rw [hk]
        cases v with
        | str s => rfl
        | null | bool _ | num _ | arr _ | obj _ => rfl
      rw [if_pos hk, List.find?_cons_of_pos (by simpa using renamed_eq_id.mpr hk), hvalue]
      rfl
    · rw [if_neg hk, List.find?_cons_of_neg (by simpa using mt renamed_eq_id.mp hk), ih]

/-- An expanded service lacks an id when its members do. -/
lemma lacksId_of_entries {members : List (JsString × Json)} {service : Service}
    (h : service.entries = expandedFields members) :
    lacksId service = !Json.truthy (Json.lookup (js "id") members) := by
  rw [lacksId, get_id_of_entries h]
  cases Json.lookup (js "id") members with
  | none => rfl
  | some j => rfl

/-! ## One service -/

/-- A name that the emitted service has is one that the expanded object has, or the id. -/
lemma mem_withId {did : JsString} {n : Nat} {service : Service} {key : JsString} {value : FieldValue}
    (h : (key, value) ∈ (withId did n service).entries) (hne : key ≠ js "id") :
    (key, value) ∈ service.entries := by
  unfold withId at h
  split at h
  · rw [OrderedMap.mem_entries, OrderedMap.get_set_ne hne] at h
    exact OrderedMap.mem_entries.mpr h
  · exact h

section
variable {empty : Json → Bool} {members : List (JsString × Json)} {out : Service} {did : JsString}
  {n : Nat}

/-- A field of the object is a field of a service that preserves them. -/
lemma PreservesFields.mem (h : PreservesFields empty members out) {m : JsString × Json}
    (hm : m ∈ members) (hne : renamed m.1 ≠ js "id") :
    (renamed m.1, .json (expandedValue (renamed m.1) m.2)) ∈ out.entries := by
  have hspec : (renamed m.1, FieldValue.json (expandedValue (renamed m.1) m.2)) ∈
      expandedFields members := List.mem_map_of_mem hm
  cases hid : hasId empty members with
  | true =>
    rw [h.own hid]
    exact hspec
  | false =>
    have hfilter : (renamed m.1, FieldValue.json (expandedValue (renamed m.1) m.2)) ∈
        (expandedFields members).filter (·.1 ≠ js "id") :=
      List.mem_filter.mpr ⟨hspec, by simpa using hne⟩
    rw [← (h.given hid).1] at hfilter
    exact (List.mem_filter.mp hfilter).1

/-- A field keeps its name only if the name is not inherited. -/
lemma PreservesFields.name_notMem
    (h : PreservesFields empty members (withId did n (expandFields OrderedMap.empty members)))
    {m : JsString × Json} (hm : m ∈ members) : m.1 ∉ objectPrototype := by
  intro hproto
  have hall : ∀ k ∈ objectPrototype, renamed k = k ∧ k ≠ js "id" := by decide
  obtain ⟨hkeep, hne⟩ := hall _ hproto
  have hmem := mem_withId (h.mem hm (by rwa [hkeep])) (by rwa [hkeep])
  cases mem_expandFields hmem with
  | inl h => cases h
  | inr h =>
    obtain ⟨m', -, hkey, -⟩ := h
    rw [hkeep] at hkey
    apply fieldKey_notMem m'.1
    rwa [← hkey]

/-- A type is kept only if it is not inherited. -/
lemma PreservesFields.type_notMem
    (h : PreservesFields empty members (withId did n (expandFields OrderedMap.empty members)))
    (hno : NoCollision members) {m : JsString × Json} (hm : m ∈ members)
    (htype : renamed m.1 = js "type") {s : JsString} (hs : m.2 = .str s) :
    s ∉ objectPrototype := by
  intro hproto
  have hne : renamed m.1 ≠ js "id" := by
    rw [htype]
    decide
  cases mem_expandFields (mem_withId (h.mem hm hne) hne) with
  | inl h => cases h
  | inr found =>
    obtain ⟨m', hm', hkey, hvalue⟩ := found
    -- without a collision the field of that name is `m` itself
    rw [fieldKey_of_notMem (h.name_notMem hm')] at hkey hvalue
    obtain rfl : m = m' := List.inj_on_of_nodup_map hno hm hm' hkey
    rw [htype, hs, fieldValue_inherited hproto] at hvalue
    cases hvalue

/-- A numbered id counts as present. -/
lemma truthy_serviceId (did : JsString) (n : Nat) :
    Json.truthy (some (.str (serviceId did n))) = true := by
  have hne : serviceId did n ≠ [] := by
    unfold serviceId
    split
    · exact List.append_ne_nil_of_right_ne_nil _ (by decide)
    · apply List.append_ne_nil_of_left_ne_nil
      exact List.append_ne_nil_of_right_ne_nil _ (by decide)
  simpa [Json.truthy] using hne

/-- An id that the code reads as absent is replaced by a text that is not empty. -/
lemma PreservesFields.readsId
    (h : PreservesFields empty members (withId did n (expandFields OrderedMap.empty members)))
    (hentries : (expandFields OrderedMap.empty members).entries = expandedFields members) :
    ReadsId empty members := by
  intro j hj hfalsy
  by_contra hempty
  have hid : hasId empty members = true := by
    rw [hasId, hj]
    simpa using hempty
  have hget := get_id_of_entries (h.own hid)
  rw [withId, lacksId_of_entries hentries, hj, hfalsy] at hget
  simp only [Bool.not_false, if_true, OrderedMap.get_set_self, Option.map_some, Option.some.injEq,
    FieldValue.json.injEq] at hget
  rw [← hget, truthy_serviceId] at hfalsy
  cases hfalsy

/-- The emitted service preserves the fields of the object if and only if no name and no type is
inherited, and an id that is read as absent is an empty one. -/
lemma preservesFields_iff (hno : NoCollision members)
    (hempty : ∀ j, empty j = true → Json.truthy (some j) = false) (did : JsString) (n : Nat) :
    PreservesFields empty members (withId did n (expandFields OrderedMap.empty members)) ↔
      OwnNames members ∧ ReadsId empty members := by
  constructor
  · intro h
    have hown : OwnNames members := by
      intro m hm
      exact ⟨h.name_notMem hm, fun htype s hs => h.type_notMem hno hm htype hs⟩
    exact ⟨hown, h.readsId (entries_of_ownNames hno hown)⟩
  · intro ⟨hown, hreads⟩
    have hentries := entries_of_ownNames hno hown
    -- an id is given to exactly the services that are encoded without one
    have hlacks : lacksId (expandFields OrderedMap.empty members) = !hasId empty members := by
      rw [lacksId_of_entries hentries, hasId]
      cases hj : Json.lookup (js "id") members with
      | none => rfl
      | some j =>
        cases hf : Json.truthy (some j) with
        | false => simp [hreads j hj hf]
        | true =>
          have hne : empty j = false := by
            by_contra hne
            rw [hempty j (by simpa using hne)] at hf
            cases hf
          simp [hne]
    constructor
    · intro hid
      rw [withId, hlacks, hid]
      exact hentries
    · intro hid
      rw [withId, hlacks, hid]
      simp only [Bool.not_false, if_true]
      refine ⟨?_, _, OrderedMap.get_set_self _ _ _⟩
      rw [filter_set_self, hentries]

end

/-! ## The services of an identifier -/

/-- A service is numbered by those before it that lack an id. -/
lemma getElem?_numberServices (did : JsString) (expanded : List Service) (i : Nat) :
    (numberServices did 0 expanded)[i]? =
      expanded[i]?.map (withId did ((expanded.take i).countP lacksId)) := by
  simp [numberServices]

/-- A service that is expanded is its members, one after the other. -/
lemma expandService_obj {members : List (JsString × Json)} {service : Service}
    (h : expandService (.obj members) = .ok service) :
    service = expandFields OrderedMap.empty members := by
  obtain ⟨_, -, h⟩ := bind_eq_ok.mp h
  cases h
  rfl

/-- The services of the document are those that were read. -/
lemma document_service (did : JsString) (r : Reading) :
    (r.document did).service.getD [] = r.services := by
  rw [Reading.document]
  cases r.services with
  | nil => rfl
  | cons service services => rfl

/-- The services of an accepted identifier are one for each value that its service elements encode,
and the one for an object without colliding names preserves the fields of the object if and only if
no name and no type is the name of a member of `Object.prototype`, and an id that is read as absent
is an empty one. -/
theorem did_peer_services_iff {pf : Platform} {did : JsString} {doc : PeerDocument}
    (h : resolve pf did = .ok doc) {empty : Json → Bool}
    (hempty : ∀ j, empty j = true → Json.truthy (some j) = false) :
    ∃ lists : List (List Json),
      List.Forall₂ (fun value list => parseService pf value = .ok list)
        ((elementsOf did).tail.filterMap serviceElement) lists ∧
      (doc.service.getD []).length = lists.flatten.length ∧
      ∀ (i : Nat) (members : List (JsString × Json)) (out : Service),
        lists.flatten[i]? = some (.obj members) → (doc.service.getD [])[i]? = some out →
          NoCollision members →
            (PreservesFields empty members out ↔ OwnNames members ∧ ReadsId empty members) := by
  obtain ⟨r, hbuilt, rfl⟩ := resolve_eq_ok h
  obtain ⟨values, expanded, ⟨⟨lists, rfl, hparsed⟩, hexpanded⟩, hservices, -⟩ := hbuilt.services
  rw [document_service, hservices]
  refine ⟨lists, hparsed, ?_, ?_⟩
  · rw [numberServices, List.length_mapIdx, hexpanded.length_eq]
  · intro i members out hmembers hout hno
    rw [getElem?_numberServices] at hout
    obtain ⟨service, hservice, rfl⟩ := Option.map_eq_some_iff.mp hout
    obtain ⟨hi, hget⟩ := List.getElem?_eq_some_iff.mp hmembers
    obtain ⟨hi', hget'⟩ := List.getElem?_eq_some_iff.mp hservice
    have hexpand := (List.forall₂_iff_get.mp hexpanded).2 i hi hi'
    simp only [List.get_eq_getElem, hget, hget'] at hexpand
    rw [expandService_obj hexpand]
    exact preservesFields_iff hno hempty did _

/-- The values of a service that are read as an absent id. -/
def falsy (j : Json) : Bool := !Json.truthy (some j)

/-- A platform that also parses one text of a JSON object. -/
def parsing (text : JsString) (members : List (JsString × Json)) : Platform where
  __ := Platform.plain
  parseJson s := if s = text then .ok (.obj members) else Platform.plain.parseJson s

/-- The fields of a DIDComm service without an endpoint. -/
def didcommService : List (JsString × Json) := [(js "t", .str (js "dm"))]

/-- A service with a field of the name of an inherited member. -/
def constructorService : List (JsString × Json) := [(js "constructor", .num [0x31])]

/-- The type of a DIDComm service is written out. -/
theorem did_peer_services_example :
    ∃ doc out, resolve (parsing (js "\x7b\"t\":\"dm\"\x7d") didcommService)
        (js "did:peer:2.SeyJ0IjoiZG0ifQ") = .ok doc ∧
      (doc.service.getD [])[0]? = some out ∧ PreservesFields falsy didcommService out := by
  obtain ⟨doc, hdoc⟩ := exists_of_isOk
    (x := resolve (parsing (js "\x7b\"t\":\"dm\"\x7d") didcommService)
      (js "did:peer:2.SeyJ0IjoiZG0ifQ")) (by decide +kernel)
  have hempty : ∀ j, falsy j = true → Json.truthy (some j) = false := by simp [falsy]
  obtain ⟨lists, hparsed, hlength, hiff⟩ := did_peer_services_iff hdoc hempty
  have hvalues : (elementsOf (js "did:peer:2.SeyJ0IjoiZG0ifQ")).tail.filterMap serviceElement =
      [js "eyJ0IjoiZG0ifQ"] := by decide +kernel
  rw [hvalues] at hparsed
  cases hparsed with
  | cons hlist hnil =>
    cases hnil
    cases hlist
    have hlt : 0 < (doc.service.getD []).length := by
      rw [hlength]
      decide
    refine ⟨doc, _, hdoc, List.getElem?_eq_getElem hlt, ?_⟩
    apply (hiff 0 _ _ rfl (List.getElem?_eq_getElem hlt) (List.nodup_singleton _)).mpr
    constructor
    · intro m hm
      rw [List.mem_singleton.mp hm]
      refine ⟨by decide, fun _ s hs => ?_⟩
      cases hs
      decide
    · intro j hj
      cases hj

/-- A field named `constructor` is not kept. -/
theorem did_peer_renames_constructor :
    ∃ doc out, resolve (parsing (js "\x7b\"constructor\":1\x7d") constructorService)
        (js "did:peer:2.SeyJjb25zdHJ1Y3RvciI6MX0") = .ok doc ∧
      (doc.service.getD [])[0]? = some out ∧ NoCollision constructorService ∧
      ¬ PreservesFields falsy constructorService out := by
  refine ⟨_, _, rfl, rfl, List.nodup_singleton _, ?_⟩
  intro h
  have hnames := h.name_notMem (List.mem_singleton_self _)
  exact hnames (by decide)

end VtiDidcomm.DidPeer
