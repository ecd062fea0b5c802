import VtiDidcomm.Codec.Multibase
import VtiDidcomm.Did.Scid
import VtiDidcomm.Envelope.Unpack

/-!
# Key-agreement keys of a DID document

The readers of a DID document's X25519 key-agreement key: `extractX25519KeyAgreement` of
`mediator-auth.js`, `resolveX25519KeyAgreement` and `resolveX25519KeyAgreementKey` of
`vta-didcomm.js`, and `resolveVtaRecipient` of `vta-rest-auth.js`, after their resolution. Three of
them take the first entry, and differ in their error texts and in how a reference is matched
(`Extractor`).
-/

namespace VtiDidcomm
open Js

/-- A key-agreement key: `{ kid, x25519Pub }`. -/
structure AgreementKey where
  kid : Option Json
  x25519Pub : Bytes

/-- A resolved document, unless `!didDocument || typeof didDocument !== "object"`. -/
def documentOf (didDocument : Option Json) (message : JsString) : Except JsError Json :=
  match didDocument with
  | some (.arr items) => .ok (.arr items)
  | some (.obj members) => .ok (.obj members)
  | _ => .error (error message)

/-- What the readers of the first entry differ in. -/
structure Extractor where
  /-- `v.id === vm` or `sameReference(v.id, vm)` -/
  isNamed : Option Json → JsString → Bool
  noEntries : JsString → JsString
  unresolvable : JsString → JsString
  noMultibase : JsString
  notX25519 : JsString

/-- `v.key` of a value that may be `undefined`, which throws on `undefined` and `null`. -/
def memberOf (v : Option Json) (key : JsString) : Except JsError (Option Json) :=
  match v with
  | none =>
    .error (typeError (js "Cannot read properties of undefined (reading '" ++ key ++ js "')"))
  | some j => member j key

/-- `v.length === 0`, of a value that is there. -/
def hasLengthZero : Json → Bool
  | .arr items => items.isEmpty
  | .str s => s.isEmpty
  | .obj members =>
    match Json.lookup (js "length") members with
    | some (.num text) => text = [0x30]
    | _ => false
  | _ => false

/-- `v[0]`, of a value that is there. -/
def firstItem : Json → Option Json
  | .arr items => items.head?
  | .str s => (s.head?).map fun c => .str [c]
  | .obj members => Json.lookup (js "0") members
  | _ => none

/-- `v ?? []` as the receiver of `find`. -/
def methodList (v : Option Json) : Except JsError (List Json) :=
  if Json.isNullish v then .ok []
  else
    match Json.asArray v with
    | some items => .ok items
    | none =>
      .error (typeError (js "(didDocument.verificationMethod ?? []).find is not a function"))

/-- `methods.find((v) => isNamed(v.id))` -/
def findMethod (isNamed : Option Json → Bool) : List Json → Except JsError (Option Json)
  | [] => .ok none
  | v :: methods => do
    let id ← member v (js "id")
    if isNamed id then pure (some v) else findMethod isNamed methods

/-- The verification method an entry of `keyAgreement` is, or names. -/
def Extractor.dereference (x : Extractor) (didDocument : Json) (entry : Option Json) :
    Except JsError (Option Json) :=
  match Json.asString entry with
  | none => .ok entry
  | some ref => do
    let methods ← methodList (didDocument.get (js "verificationMethod"))
    let found ← findMethod (x.isNamed · ref) methods
    require (found.isSome = true) (error (x.unresolvable ref))
    pure found

/-- `b.toString(16)` of a byte that may be `undefined`. -/
def hexOf : Option UInt8 → Except JsError JsString
  | none => .error (typeError (js "Cannot read properties of undefined (reading 'toString')"))
  | some b => .ok (js (String.ofList (Nat.toDigits 16 b.toNat)))

/-- Whether a multicodec is X25519's. -/
def isX25519Codec (codec : List UInt8) : Bool := codec[0]? = some 0xec && codec[1]? = some 0x01

/-- The error of a multikey that is not X25519. -/
def notX25519Error (message : JsString) (codec : List UInt8) : Except JsError AgreementKey := do
  let high ← hexOf codec[0]?
  let low ← hexOf codec[1]?
  .error (error (message ++ js " (multicodec 0x" ++ high ++ low ++ js ")"))

/-- The X25519 key of the first `keyAgreement` entry. -/
def Extractor.extract (x : Extractor) (didDocument : Json) (did : JsString) :
    Except JsError AgreementKey :=
  match didDocument.get (js "keyAgreement") with
  | none => .error (error (x.noEntries did))
  | some ka => do
    require (Json.truthy (some ka) = true ∧ hasLengthZero ka = false) (error (x.noEntries did))
    let vm ← x.dereference didDocument (firstItem ka)
    let multibase ← memberOf vm (js "publicKeyMultibase")
    require (Json.truthy multibase = true) (error x.noMultibase)
    let decoded ← Multibase.decodeMultikey multibase
    if isX25519Codec decoded.codec then
      pure { kid := vm.bind (·.get (js "id")), x25519Pub := decoded.key }
    else notX25519Error x.notX25519 decoded.codec

/-- `sameReference(v.id, ref)` -/
def sameReferenceAs (id : Option Json) (ref : JsString) : Bool :=
  match Json.asString id with
  | some id => sameReference id ref
  | none => false

/-- What `mediator-auth.js` and `vta-didcomm.js` read alike, but for the name in their errors. -/
def Extractor.bySameReference (who : JsString) : Extractor where
  isNamed := sameReferenceAs
  noEntries did := who ++ js ": " ++ did ++ js " has no keyAgreement entries"
  unresolvable ref := who ++ js ": keyAgreement ref " ++ ref ++ js " not resolvable"
  noMultibase := who ++ js ": keyAgreement entry has no publicKeyMultibase"
  notX25519 := who ++ js ": keyAgreement not X25519"

/-- `extractX25519KeyAgreement` of `mediator-auth.js` -/
def extractX25519KeyAgreement : Json → JsString → Except JsError AgreementKey :=
  (Extractor.bySameReference (js "mediator-auth")).extract

/-- `resolveX25519KeyAgreement` of `vta-didcomm.js`, on the resolved document. -/
def x25519KeyAgreement : Json → JsString → Except JsError AgreementKey :=
  (Extractor.bySameReference (js "vta-didcomm")).extract

/-- `resolveVtaRecipient` of `vta-rest-auth.js`, on the resolved document. A reference is matched
exactly. -/
def vtaRecipient : Json → JsString → Except JsError AgreementKey :=
  Extractor.extract
    { isNamed := fun id ref => Json.asString id = some ref
      noEntries := fun did => js "vta-rest-auth: " ++ did ++ js " has no keyAgreement entries"
      unresolvable := fun ref => js "vta-rest-auth: keyAgreement reference " ++ ref ++
        js " not in verificationMethod[]"
      noMultibase := js
        "vta-rest-auth: keyAgreement entry has no publicKeyMultibase (only Multikey supported)"
      notX25519 := js "vta-rest-auth: keyAgreement is not X25519" }

/-! ## The key a `skid` names -/

/-- `abs(id)`: a bare fragment is a key of `did`. -/
def absoluteId (did : JsString) (id : Option Json) : Option JsString :=
  (Json.asString id).map fun id => if startsWith id (js "#") then did ++ id else id

/-- `sameReference(abs(id), kid)` -/
def namesKey (did kid : JsString) (id : Option Json) : Bool :=
  (absoluteId did id).any (sameReference · kid)

/-- The loop over `keyAgreement` of `resolveX25519KeyAgreementKey`: the verification method of the
first entry that names `kid`. -/
def findKey (methods : Except JsError (List Json)) (did kid : JsString) :
    List Json → Except JsError (Option Json)
  | [] => .ok none
  | entry :: entries =>
    match entry with
    | .str _ =>
      if namesKey did kid (some entry) then do findMethod (namesKey did kid) (← methods)
      else findKey methods did kid entries
    | _ =>
      if namesKey did kid (entry.get (js "id")) then .ok (some entry)
      else findKey methods did kid entries

/-- `[...s]` -/
def codePoints : JsString → List JsString
  | [] => []
  | [c] => [[c]]
  | c :: d :: s =>
    if Json.isHighSurrogate c && Json.isLowSurrogate d then [c, d] :: codePoints s
    else [c] :: codePoints (d :: s)

/-- `didDocument.keyAgreement ?? []` as what is iterated. -/
def keyAgreementList (v : Option Json) : Except JsError (List Json) :=
  if Json.isNullish v then .ok []
  else
    match v with
    | some (.arr items) => .ok items
    | some (.str s) => .ok ((codePoints s).map .str)
    | _ => .error (typeError (js "(didDocument.keyAgreement ?? []) is not iterable"))

/-- `methods.find`, which is called only on a match. -/
def methodsFound (v : Option Json) : Except JsError (List Json) :=
  if Json.isNullish v then .ok []
  else
    match Json.asArray v with
    | some items => .ok items
    | none => .error (typeError (js "methods.find is not a function"))

/-- `resolveX25519KeyAgreementKey` of `vta-didcomm.js`, on the resolved document. -/
def x25519KeyAgreementKey (didDocument : Json) (did kid : JsString) :
    Except JsError AgreementKey := do
  let entries ← keyAgreementList (didDocument.get (js "keyAgreement"))
  let vm ← findKey (methodsFound (didDocument.get (js "verificationMethod"))) did kid entries
  require (Json.truthy vm = true)
    (error (js "vta-didcomm: " ++ did ++ js " lists no keyAgreement key " ++ kid))
  let multibase ← memberOf vm (js "publicKeyMultibase")
  require (Json.truthy multibase = true)
    (error (js "vta-didcomm: keyAgreement entry has no publicKeyMultibase"))
  let decoded ← Multibase.decodeMultikey multibase
  require (isX25519Codec decoded.codec = true)
    (error (js "vta-didcomm: keyAgreement key is not X25519"))
  pure { kid := some (.str kid), x25519Pub := decoded.key }

end VtiDidcomm
