import Mathlib.Data.Nat.Digits.Defs
import VtiDidcomm.Js.Error

/-!
# Multikeys

`multibase.js`: base58btc, and the multikeys of a DID document, a multicodec varint and the bytes of
a key in base58btc behind a `z`. Both directions of base58btc keep a number as digits from the
lowest up, and take in one digit of the other base at a time (`mulAdd`).
-/

namespace VtiDidcomm.Multibase
open Js

/-- `B58` -/
def b58 : JsString := js "123456789ABCDEFGHJKLMNPQRSTUVWXYZabcdefghijkmnopqrstuvwxyz"

/-- `B58[i]` -/
def b58Char (i : Nat) : CodeUnit := b58.getD i 0

/-- `B58_LOOKUP[c]` -/
def b58Lookup (c : CodeUnit) : Option Nat := indexOf b58 c

/-- `MULTICODEC.ED25519_PUB` -/
def ed25519Pub : List UInt8 := [0xed, 0x01]
/-- `MULTICODEC.X25519_PUB` -/
def x25519Pub : List UInt8 := [0xec, 0x01]
/-- `MULTICODEC.P256_PUB` -/
def p256Pub : List UInt8 := [0x80, 0x24]
/-- `MULTICODEC.SECP256K1_PUB` -/
def secp256k1Pub : List UInt8 := [0xe7, 0x01]

/-- The loops over `digits`: the number they write in `base`, times `mult`, plus `carry`. -/
def mulAdd (base mult carry : Nat) : List Nat → List Nat
  | [] => Nat.digits base carry
  | d :: ds => (carry + d * mult) % base :: mulAdd base mult ((carry + d * mult) / base) ds

/-- `base58btcEncode` -/
def base58btcEncode (bytes : List UInt8) : JsString :=
  let zeros := bytes.takeWhile (· = 0)
  let digits := (bytes.drop zeros.length).foldl (fun ds b => mulAdd 58 256 b.toNat ds) []
  zeros.map (fun _ => b58Char 0) ++ digits.reverse.map b58Char

/-- The decoding loop at position `i`, on the `bytes` read so far, the lowest first. -/
def decodeLoop (i : Nat) (bytes : List Nat) : JsString → Except JsError (List Nat)
  | [] => .ok bytes
  | c :: s =>
    match b58Lookup c with
    | none =>
      .error (error (js "base58btcDecode: invalid char " ++ Json.quote [c] ++ js " at " ++ natText i))
    | some v => decodeLoop (i + 1) (mulAdd 256 58 v bytes) s

/-- `base58btcDecode` -/
def base58btcDecode (s : JsString) : Except JsError (List UInt8) := do
  let zeros := s.takeWhile (· = b58Char 0)
  let bytes ← decodeLoop zeros.length [] (s.drop zeros.length)
  pure (zeros.map (fun _ => 0) ++ bytes.reverse.map (·.toUInt8))

/-- `encodeMultikey` -/
def encodeMultikey (multicodecVarint keyBytes : List UInt8) : JsString :=
  js "z" ++ base58btcEncode (multicodecVarint ++ keyBytes)

/-- The length of the varint `bytes` begin with: up to the first byte without its high bit. -/
def codecLen : List UInt8 → Nat
  | [] => 0
  | b :: bytes => if b &&& 0x80 = 0 then 1 else codecLen bytes + 1

/-- A decoded multikey: `{ codec, key }`. -/
structure Multikey where
  codec : List UInt8
  key : List UInt8
  deriving Repr, DecidableEq

/-- `decodeMultikey` -/
def decodeMultikey (s : Option Json) : Except JsError Multikey :=
  match Json.asString s with
  | some (c :: rest) =>
    if c = 0x7A then do
      let raw ← base58btcDecode rest
      pure ⟨raw.take (codecLen raw), raw.drop (codecLen raw)⟩
    else .error (error (js "multikey: must be base58btc multibase (starts with 'z')"))
  | _ => .error (error (js "multikey: must be base58btc multibase (starts with 'z')"))

end VtiDidcomm.Multibase
