import VtiDidcomm.Js.Error

/-!
# DID resolution data

The options a resolution is called with and the W3C DID Resolution result it returns, with the parts
that every document made from its identifier has.
-/

namespace VtiDidcomm
open Js

/-- `NetPolicy`: what a caller allows for endpoints it did not choose. -/
structure NetPolicy where
  allowInsecure : Bool := false
  allowPrivate : Bool := false
  allowHosts : Option (List JsString) := none
  deriving Repr, DecidableEq

/-- What a caller may pass as `versionTime`: a `Date`, by its time value (`none` for an invalid
one), or any other value. -/
inductive VersionTime where
  | date (time : Option Int)
  | value (v : Json)

/-- The per-call `options` of `resolve`. -/
structure ResolveOptions where
  versionTime : Option VersionTime := none
  netPolicy : Option NetPolicy := none

/-- A DID Resolution result. -/
structure Resolution where
  didDocument : Option Json
  didResolutionMetadata : Option Json
  didDocumentMetadata : Option Json

/-- The `@context` of a document that is made from its identifier. -/
def multikeyContext : Json :=
  .arr [.str (js "https://www.w3.org/ns/did/v1"), .str (js "https://w3id.org/security/multikey/v1")]

/-- A verification method of type `Multikey`. -/
def multikeyMethod (id did multibase : JsString) : Json :=
  .obj [(js "id", .str id), (js "type", .str (js "Multikey")), (js "controller", .str did),
    (js "publicKeyMultibase", .str multibase)]

/-- The result of a resolution that makes the document from the identifier. -/
def madeResolution (didDocument : Json) : Resolution where
  didDocument := some didDocument
  didResolutionMetadata :=
    some (.obj [(js "contentType", .str (js "application/did+ld+json"))])
  didDocumentMetadata := some (.obj [])

end VtiDidcomm
