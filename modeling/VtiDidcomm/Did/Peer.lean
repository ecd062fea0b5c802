import VtiDidcomm.Codec.Base64url
import VtiDidcomm.Codec.Base58
import VtiDidcomm.Did.Basic
import VtiDidcomm.Js.OrderedMap
import VtiDidcomm.Js.Platform
import VtiDidcomm.Js.Utf8

/-!
# did:peer, numalgo 2

`resolve` of `did-peer.js`: the elements of the identifier are taken in one after the other
(`addElement`), a key element under the relationship of its purpose code, a service element as the
services it encodes.

The two abbreviation tables are object literals, so that a lookup also finds what every object
inherits from `Object.prototype`: a function, or the prototype itself. A field of a service may
therefore hold a value that is no JSON (`FieldValue.inherited`).
-/

namespace VtiDidcomm.DidPeer
open Js Multibase

/-! ## Lookups in an object literal -/

/-- What `table[key]` finds: an entry of the literal, or the member it inherits. -/
inductive Found where
  | own (value : JsString)
  | inherited (name : JsString)

/-- `table[key]` of an object literal, `none` for `undefined`. -/
def find (table : List (JsString × JsString)) (key : JsString) : Option Found :=
  match table.find? (·.1 = key) with
  | some entry => some (.own entry.2)
  | none => if key ∈ objectPrototype then some (.inherited key) else none

/-- `String(Object.prototype[name])`: the prototype itself is an object, every other member a
function. -/
def inheritedText (name : JsString) : JsString :=
  if name = js "__proto__" then js "[object Object]"
  else if name = js "constructor" then js "function Object() \x7b [native code] \x7d"
  else js "function " ++ name ++ js "() \x7b [native code] \x7d"

/-- `SERVICE_FIELD` -/
def serviceField : List (JsString × JsString) :=
  [(js "t", js "type"), (js "s", js "serviceEndpoint"), (js "r", js "routingKeys"),
    (js "a", js "accept")]

/-- `SERVICE_TYPE` -/
def serviceType : List (JsString × JsString) := [(js "dm", js "DIDCommMessaging")]

/-! ## Services -/

/-- A value of a service: JSON, or the member of `Object.prototype` of that name. -/
inductive FieldValue where
  | json (j : Json)
  | inherited (name : JsString)

/-- A service object. -/
abbrev Service := OrderedMap JsString FieldValue

/-- `SERVICE_FIELD[k] ?? k`, as a property key. -/
def fieldKey (k : JsString) : JsString :=
  match find serviceField k with
  | some (.own value) => value
  | some (.inherited name) => inheritedText name
  | none => k

/-- The value of a field: the type is expanded if it is a string. -/
def fieldValue (key : JsString) (v : Json) : FieldValue :=
  match v with
  | .str s =>
    if key = js "type" then
      match find serviceType s with
      | some (.own value) => .json (.str value)
      | some (.inherited name) => .inherited name
      | none => .json v
    else .json v
  | v => .json v

/-- `Object.entries(svc)` of a value that is an object or an array. -/
def objectEntries : Json → List (JsString × Json)
  | .obj members => members
  | .arr items => items.mapIdx fun i j => (natText i, j)
  | _ => []

/-- The loop of `expandService`. -/
def expandFields (out : Service) : List (JsString × Json) → Service
  | [] => out
  | (k, v) :: entries => expandFields (out.set (fieldKey k) (fieldValue (fieldKey k) v)) entries

/-- `expandService` -/
def expandService (svc : Json) : Except JsError Service := do
  require (Json.truthy (some svc) = true ∧ svc.isObjectType = true)
    (error (js "did:peer resolve: service element must be a JSON object"))
  return expandFields OrderedMap.empty (objectEntries svc)

/-- `!service.id` -/
def lacksId (service : Service) : Bool :=
  match service.get (js "id") with
  | none => true
  | some (.json j) => !Json.truthy (some j)
  | some (.inherited _) => false

/-- The id of the service that is the `n`-th without one. -/
def serviceId (did : JsString) (n : Nat) : JsString :=
  if n = 0 then did ++ js "#service" else did ++ js "#service-" ++ natText n

/-- A service without an id gets the one for `n`. -/
def withId (did : JsString) (n : Nat) (service : Service) : Service :=
  if lacksId service then service.set (js "id") (.json (.str (serviceId did n))) else service

/-- The callback of `list.map`, over the list, from the running index `n` on. -/
def expandServices (did : JsString) (n : Nat) : List Json → Except JsError (List Service × Nat)
  | [] => .ok ([], n)
  | svc :: list => do
    let expanded ← expandService svc
    let next := if lacksId expanded then n + 1 else n
    let (services, n') ← expandServices did next list
    return (withId did n expanded :: services, n')

variable (pf : Platform)

/-- The services that an `S` element encodes. -/
def parseService (value : JsString) : Except JsError (List Json) :=
  let parsed : Except JsError Json := do
    let bytes ← Base64url.decode (some (.str value))
    pf.parseJson (textDecode bytes)
  match parsed with
  | .ok (.arr items) => .ok items
  | .ok j => .ok [j]
  | .error e =>
    .error (error (js "did:peer resolve: service element is not base64url JSON: " ++ e.message))

/-- `decodeService`, with the running index before and after it. -/
def decodeService (value did : JsString) (n : Nat) : Except JsError (List Service × Nat) := do
  let list ← parseService pf value
  expandServices did n list

/-! ## Elements -/

/-- `PURPOSE_RELATIONSHIP[code]` -/
def purposeRelationship (code : CodeUnit) : Option JsString :=
  if code = 0x41 then some (js "assertionMethod")
  else if code = 0x45 then some (js "keyAgreement")
  else if code = 0x56 then some (js "authentication")
  else if code = 0x49 then some (js "capabilityInvocation")
  else if code = 0x44 then some (js "capabilityDelegation")
  else none

/-- What `resolve` has read so far. -/
structure Reading where
  verificationMethod : List Json
  relationships : List (JsString × List JsString)
  services : List Service
  keyN : Nat
  serviceN : Nat

/-- The names of `relationships`, in order. -/
def relationshipNames : List JsString :=
  [js "authentication", js "assertionMethod", js "keyAgreement", js "capabilityInvocation",
    js "capabilityDelegation"]

/-- Before the first element. -/
def Reading.start : Reading where
  verificationMethod := []
  relationships := relationshipNames.map fun name => (name, [])
  services := []
  keyN := 0
  serviceN := 0

/-- The id of the `n`-th key. -/
def keyId (did : JsString) (n : Nat) : JsString := did ++ js "#key-" ++ natText n

/-- `relationships[relationship].push(id)` -/
def pushReference (relationship id : JsString) (relationships : List (JsString × List JsString)) :
    List (JsString × List JsString) :=
  relationships.map fun r => if r.1 = relationship then (r.1, r.2 ++ [id]) else r

/-- The body of the loop over the elements, for the element at position `i`. -/
def addElement (did : JsString) (i : Nat) (element : JsString) (r : Reading) :
    Except JsError Reading :=
  match element with
  | code :: c :: value => do
    let value := c :: value
    if code = 0x53 then
      let (services, serviceN) ← decodeService pf value did r.serviceN
      return { r with services := r.services ++ services, serviceN := serviceN }
    else
      match purposeRelationship code with
      | none =>
        .error (error (js "did:peer resolve: unknown purpose code " ++ Json.quote [code] ++
          js " at position " ++ natText i))
      | some relationship =>
        let _ ← decodeMultikey (some (.str value))
        let keyN := r.keyN + 1
        let id := keyId did keyN
        return { r with
          keyN := keyN
          verificationMethod := r.verificationMethod ++ [multikeyMethod id did value]
          relationships := pushReference relationship id r.relationships }
  | _ => .error (error (js "did:peer resolve: empty element at position " ++ natText i))

/-- The loop over the elements, from position `i` on. -/
def addElements (did : JsString) (i : Nat) (r : Reading) : List JsString → Except JsError Reading
  | [] => .ok r
  | element :: elements => do
    let r ← addElement pf did i element r
    addElements did (i + 1) r elements

/-! ## The document -/

/-- A did:peer document, its members in order: a relationship without references and an empty
service list are left out. -/
structure PeerDocument where
  context : Json := multikeyContext
  id : JsString
  verificationMethod : List Json
  relationships : List (JsString × List JsString)
  service : Option (List Service)

/-- The document of what was read. -/
def Reading.document (did : JsString) (r : Reading) : PeerDocument where
  id := did
  verificationMethod := r.verificationMethod
  relationships := r.relationships.filter fun entry => 0 < entry.2.length
  service := if 0 < r.services.length then some r.services else none

/-- `PREFIX` -/
def peerPrefix : JsString := js "did:peer:"

/-- The elements of an identifier: what stands between the dots after the numalgo. -/
def elementsOf (did : JsString) : List JsString :=
  split 0x2E (sliceFrom (sliceFrom did peerPrefix.length) 1)

/-- `didPeer.resolve`: the `didDocument` of its result. -/
def resolve (did : JsString) : Except JsError PeerDocument := do
  require (startsWith did peerPrefix = true)
    (error (js "did:peer resolve: identifier must start with \"did:peer:\" (got " ++
      Json.quote (sliceTo did 32) ++ js "…)"))
  let numalgo := (sliceFrom did peerPrefix.length).head?
  require (numalgo = some 0x32)
    (error (js "did:peer resolve: only numalgo 2 is supported (got numalgo " ++
      Json.stringifyOpt (numalgo.map fun c => .str [c]) ++ js ")"))
  let elements := elementsOf did
  require (¬ (elements.length < 2 ∨ elements.head? ≠ some []))
    (error (js "did:peer resolve: malformed numalgo-2 identifier (expected '.'-prefixed elements)"))
  let r ← addElements pf did 1 Reading.start elements.tail
  return r.document did

end VtiDidcomm.DidPeer
