import VtiDidcomm.Js.String

/-!
# JSON values

The values `JSON.parse` produces, the property reads a program makes on them, and `JSON.stringify`.
A number is kept as the bytes of the ASCII text `JSON.stringify` prints for it, which determine it.
A JavaScript value that may be `undefined` is an `Option Json`.
-/

namespace Js

/-- The property names of `Object.prototype`, which a lookup in an object literal finds as well. -/
def objectPrototype : List JsString :=
  [js "constructor", js "__defineGetter__", js "__defineSetter__", js "hasOwnProperty",
    js "__lookupGetter__", js "__lookupSetter__", js "isPrototypeOf", js "propertyIsEnumerable",
    js "toString", js "valueOf", js "__proto__", js "toLocaleString"]

/-- A JSON value. -/
inductive Json where
  /-- `null` -/
  | null
  /-- `true` or `false` -/
  | bool (b : Bool)
  /-- A number, by the bytes of its text. -/
  | num (text : List UInt8)
  /-- A string. -/
  | str (s : JsString)
  /-- An array. -/
  | arr (items : List Json)
  /-- An object, its members in property order. -/
  | obj (members : List (JsString × Json))
  deriving Repr, Inhabited

namespace Json

/-- The member `key` of an object, or `undefined`. -/
def lookup (key : JsString) : List (JsString × Json) → Option Json
  | [] => none
  | (k, v) :: members => if k = key then some v else lookup key members

/-- `j?.key`, for a name no prototype of a JSON value owns. -/
def get (j : Json) (key : JsString) : Option Json :=
  match j with
  | obj members => lookup key members
  | _ => none

/-- Whether a value is neither `undefined`, `null`, `false`, `0` nor the empty string. -/
def truthy : Option Json → Bool
  | none => false
  | some null => false
  | some (bool b) => b
  | some (num text) => text != [0x30]
  | some (str s) => s != []
  | some _ => true

/-- The string a value is, if it is one. -/
def asString : Option Json → Option JsString
  | some (str s) => some s
  | _ => none

/-- `typeof j === "object"`, `null` included. -/
def isObjectType : Json → Bool
  | null | arr _ | obj _ => true
  | _ => false

/-- `v == null`. -/
def isNullish : Option Json → Bool
  | none | some null => true
  | _ => false

/-- `typeof v` -/
def typeOf : Option Json → JsString
  | none => js "undefined"
  | some null => js "object"
  | some (bool _) => js "boolean"
  | some (num _) => js "number"
  | some (str _) => js "string"
  | some (arr _) => js "object"
  | some (obj _) => js "object"

/-- The items of an array. -/
def asArray : Option Json → Option (List Json)
  | some (arr items) => some items
  | _ => none

/-! ## `JSON.stringify` -/

/-- A high (leading) surrogate. -/
def isHighSurrogate (c : CodeUnit) : Bool := 0xD800 ≤ c && c ≤ 0xDBFF

/-- A low (trailing) surrogate. -/
def isLowSurrogate (c : CodeUnit) : Bool := 0xDC00 ≤ c && c ≤ 0xDFFF

/-- A lowercase hexadecimal digit. -/
def hexDigit (n : UInt16) : CodeUnit := if n < 10 then 0x30 + n else 0x57 + n

/-- `\\uXXXX` -/
def unicodeEscape (c : CodeUnit) : JsString :=
  js "\\u" ++ [hexDigit (c >>> 12), hexDigit ((c >>> 8) &&& 0xF), hexDigit ((c >>> 4) &&& 0xF),
    hexDigit (c &&& 0xF)]

/-- A code unit inside a JSON string: escaped where JSON needs it, and where it is a surrogate that
belongs to no pair. -/
def quoteUnit (c : CodeUnit) : JsString :=
  if c = 0x22 then js "\\\""
  else if c = 0x5C then js "\\\\"
  else if c = 0x08 then js "\\b"
  else if c = 0x09 then js "\\t"
  else if c = 0x0A then js "\\n"
  else if c = 0x0C then js "\\f"
  else if c = 0x0D then js "\\r"
  else if c < 0x20 || isHighSurrogate c || isLowSurrogate c then unicodeEscape c
  else [c]

/-- The inside of a JSON string. -/
def quoteBody : JsString → JsString
  | [] => []
  | [c] => quoteUnit c
  | c :: d :: s =>
    if isHighSurrogate c && isLowSurrogate d then c :: d :: quoteBody s
    else quoteUnit c ++ quoteBody (d :: s)

/-- A JSON string. -/
def quote (s : JsString) : JsString := 0x22 :: quoteBody s ++ [0x22]

mutual
/-- `JSON.stringify(j)` -/
def stringify : Json → JsString
  | null => js "null"
  | bool b => if b then js "true" else js "false"
  | num text => text.map (·.toUInt16)
  | str s => quote s
  | arr items => 0x5B :: stringifyItems items ++ [0x5D]
  | obj members => 0x7B :: stringifyMembers members ++ [0x7D]
/-- The items of an array, separated by commas. -/
def stringifyItems : List Json → JsString
  | [] => []
  | [j] => stringify j
  | j :: k :: items => stringify j ++ 0x2C :: stringifyItems (k :: items)
/-- The members of an object, separated by commas. -/
def stringifyMembers : List (JsString × Json) → JsString
  | [] => []
  | [(k, j)] => quote k ++ 0x3A :: stringify j
  | (k, j) :: m :: members => quote k ++ 0x3A :: stringify j ++ 0x2C :: stringifyMembers (m :: members)
end

/-- A value in an error text: `JSON.stringify(undefined)` prints `undefined`. -/
def stringifyOpt : Option Json → JsString
  | none => js "undefined"
  | some j => stringify j

/-- Only a string is read as one. -/
lemma asString_eq_some {v : Option Json} {s : JsString} :
    asString v = some s ↔ v = some (str s) := by
  cases v with
  | none => simp [asString]
  | some j => cases j <;> simp [asString]

@[simp] lemma get_obj (members : List (JsString × Json)) (key : JsString) :
    (obj members).get key = lookup key members := rfl

@[simp] lemma lookup_cons_self (key : JsString) (v : Json) (members : List (JsString × Json)) :
    lookup key ((key, v) :: members) = some v := by
  simp [lookup]

/-- A lookup skips a member of another name. -/
lemma lookup_cons_ne {k key : JsString} (v : Json) (members : List (JsString × Json))
    (h : k ≠ key) : lookup key ((k, v) :: members) = lookup key members := by
  simp [lookup, h]

end Json

end Js
