import VtiDidcomm.Js.Error

/-!
# The platform

The parts of the JavaScript runtime whose tables are outside the language's core: the WHATWG URL
parser, Unicode case folding and normalization, percent-decoding, `JSON.parse` and `Date` parsing. A
development takes one `Platform` and holds for every one; the laws are the ones the platforms
document.
-/

namespace Js

/-- A parsed URL, as `new URL` canonicalises it. -/
structure Url where
  href : JsString
  protocol : JsString
  username : JsString
  password : JsString
  host : JsString
  hostname : JsString
  port : JsString
  pathname : JsString
  deriving Repr, DecidableEq

/-- The runtime functions a program is given. -/
structure Platform where
  /-- `new URL(s)`, `none` when it throws. -/
  parseUrl : JsString → Option Url
  /-- `s.toLowerCase()` -/
  toLowerCase : JsString → JsString
  /-- `s.normalize("NFC")` -/
  normalizeNfc : JsString → JsString
  /-- `decodeURIComponent(s)` -/
  decodeURIComponent : JsString → Except JsError JsString
  /-- `JSON.parse(s)` -/
  parseJson : JsString → Except JsError Json
  /-- `new Date(s).getTime()` and `Date.parse(s)`, `none` for `NaN`. -/
  parseDate : JsString → Option Int
  /-- `date.toISOString()` -/
  toISOString : Int → JsString
  /-- `n + x` for an integral number `n`, the numbers `x` and `n + x` by the bytes of their texts. -/
  addNumber : Int → List UInt8 → List UInt8
  /-- Case folding of ASCII text. -/
  toLowerCase_ascii : ∀ s : JsString, (∀ c ∈ s, c < 0x80) → toLowerCase s = s.map asciiLower

/-- `new URL(s)` for an absolute URL `scheme://host/path` in canonical form, without credentials or
a port. -/
def plainUrl (s : JsString) : Option Url :=
  match indexOfStr (js "://") s with
  | none => none
  | some i =>
    let rest := sliceFrom s (i + 3)
    let host := splitHead 0x2f rest
    if host = [] then none
    else some
      { href := s
        protocol := sliceTo s i ++ js ":"
        username := []
        password := []
        host := host
        hostname := host
        port := []
        pathname := sliceFrom rest host.length }

/-- A platform restricted to plain ASCII text: canonical URLs, no percent-encoding, no dates, and
the one JSON text of an empty object. -/
def Platform.plain : Platform where
  parseUrl := plainUrl
  toLowerCase s := s.map asciiLower
  normalizeNfc s := s
  decodeURIComponent := .ok
  parseJson s :=
    if s = js "\x7b\x7d" then .ok (.obj [])
    else .error { name := js "SyntaxError", message := js "Unexpected token in JSON" }
  parseDate _ := none
  toISOString _ := []
  addNumber _ x := x
  toLowerCase_ascii _ _ := rfl

end Js
