import VtiDidcomm.Codec.Base64url
import VtiDidcomm.Envelope.Crypto

/-!
# JSON Web Keys

`jwk.js`: the conversions between JWKs and raw key bytes for the curves OKP/X25519, OKP/Ed25519 and
EC/P-256. A JWK is the JSON value it is received as, so every reader checks its shape first
(`assertShape`). `Spells` says that a JWK holds a key of a curve, which is what it is read as
(`spells_iff`); the JWKs that this module builds do.
-/

namespace VtiDidcomm.Jwk
open Js

/-- `OKP_CURVES` -/
def okpCurves : List JsString := [js "X25519", js "Ed25519"]
/-- `EC_CURVES` -/
def ecCurves : List JsString := [js "P-256"]

/-- The member of a JWK, `undefined` for anything without members. -/
def field (jwk : Option Json) (name : JsString) : Option Json := jwk.bind (·.get name)

/-- `SET.has(crv)` -/
def isCurveIn (curves : List JsString) (crv : Option Json) : Bool :=
  match Json.asString crv with
  | some crv => crv ∈ curves
  | none => false

/-- `assertOkpCurve` -/
def assertOkpCurve (crv : Option Json) : Except JsError Unit :=
  require (isCurveIn okpCurves crv = true)
    (error (js "jwk: unsupported OKP curve: " ++ Json.toStrOpt crv ++
      js ". Expected one of X25519, Ed25519"))

/-- `assertShape` -/
def assertShape (jwk : Option Json) : Except JsError Unit := do
  require (Json.truthy jwk = true ∧ Json.typeOf jwk = js "object")
    (typeError (js "jwk: JWK must be an object"))
  if Json.asString (field jwk (js "kty")) = some (js "OKP") then
    assertOkpCurve (field jwk (js "crv"))
    require ((Json.asString (field jwk (js "x"))).isSome = true)
      (error (js "jwk: OKP JWK 'x' must be a string"))
  else if Json.asString (field jwk (js "kty")) = some (js "EC") then
    require (isCurveIn ecCurves (field jwk (js "crv")) = true)
      (error (js "jwk: unsupported EC curve: " ++ Json.toStrOpt (field jwk (js "crv")) ++
        js ". Expected one of P-256"))
    require ((Json.asString (field jwk (js "x"))).isSome = true ∧
        (Json.asString (field jwk (js "y"))).isSome = true)
      (error (js "jwk: EC JWK 'x' and 'y' must be strings"))
  else
    .error (error (js "jwk: JWK kty must be 'OKP' or 'EC', got " ++
      Json.stringifyOpt (field jwk (js "kty"))))

/-- `curveOf`: the checked `crv`. -/
def curveOf (jwk : Option Json) : Except JsError JsString := do
  assertShape jwk
  pure ((Json.asString (field jwk (js "crv"))).getD [])

/-- `rawPublic` -/
def rawPublic (C : Crypto) (jwk : Option Json) : Except JsError Bytes := do
  assertShape jwk
  if Json.asString (field jwk (js "kty")) = some (js "EC") then
    let x ← Base64url.decode (field jwk (js "x"))
    let y ← Base64url.decode (field jwk (js "y"))
    require (x.length = 32 ∧ y.length = 32)
      (error (js "jwk: " ++ Json.toStrOpt (field jwk (js "crv")) ++
        js " JWK 'x'/'y' must each decode to 32 bytes"))
    pointFromCoordinates C x y
  else
    let bytes ← Base64url.decode (field jwk (js "x"))
    require (bytes.length = 32)
      (error (js "jwk: " ++ Json.toStrOpt (field jwk (js "crv")) ++
        js " JWK 'x' must decode to 32 bytes, got " ++ natText bytes.length))
    pure bytes

/-- `rawPrivate` -/
def rawPrivate (jwk : Option Json) : Except JsError Bytes := do
  assertShape jwk
  require (Json.truthy (field jwk (js "d")) = true)
    (error (js "jwk: JWK has no 'd' — this is a public-only key"))
  let bytes ← Base64url.decode (field jwk (js "d"))
  require (bytes.length = 32)
    (error (js "jwk: " ++ Json.toStrOpt (field jwk (js "crv")) ++
      js " JWK 'd' must decode to 32 bytes, got " ++ natText bytes.length))
  pure bytes

/-- The `kid` of a JWK that is built: `if (kid) jwk.kid = kid`. -/
def keepKid (kid : Option Json) : List (JsString × Json) :=
  match kid with
  | none => []
  | some v => if Json.truthy (some v) then [(js "kid", v)] else []

/-- The public JWK of an OKP key. -/
def okpJwk (crv : JsString) (x : Bytes) (kid : Option Json) : Json :=
  .obj ([(js "kty", .str (js "OKP")), (js "crv", .str crv), (js "x", .str (Base64url.encode x))] ++
    keepKid kid)

/-- The public JWK of an EC key. -/
def ecJwk (crv : JsString) (x y : Bytes) (kid : Option Json) : Json :=
  .obj ([(js "kty", .str (js "EC")), (js "crv", .str crv), (js "x", .str (Base64url.encode x)),
    (js "y", .str (Base64url.encode y))] ++ keepKid kid)

/-- `publicJwk` -/
def publicJwk (crv : JsString) (keyBytes : Bytes) (kid : Option Json) : Except JsError Json :=
  if crv ∈ ecCurves then do
    let (x, y) ← pointCoordinates keyBytes
    pure (ecJwk crv x y kid)
  else do
    assertOkpCurve (some (.str crv))
    require (keyBytes.length = 32)
      (error (js "jwk: " ++ crv ++ js " public key must be 32 bytes, got " ++
        natText keyBytes.length))
    pure (okpJwk crv keyBytes kid)

/-- `{ ...jwk, d }` -/
def withPrivate (jwk : Json) (d : Bytes) : Json :=
  match jwk with
  | .obj members => .obj (members ++ [(js "d", .str (Base64url.encode d))])
  | jwk => jwk

/-- `privateJwk` -/
def privateJwk (crv : JsString) (privateBytes publicBytes : Bytes) (kid : Option Json) :
    Except JsError Json := do
  let pub ← publicJwk crv publicBytes kid
  require (privateBytes.length = 32)
    (error (js "jwk: " ++ crv ++ js " private key must be 32 bytes, got " ++
      natText privateBytes.length))
  pure (withPrivate pub privateBytes)

/-! ## Shapes -/

/-- An OKP JWK: its curve and its coordinate. -/
structure IsOkp (jwk : Json) (crv x : JsString) : Prop where
  kty : field (some jwk) (js "kty") = some (.str (js "OKP"))
  curve : crv ∈ okpCurves
  crv : field (some jwk) (js "crv") = some (.str crv)
  x : field (some jwk) (js "x") = some (.str x)

/-- An EC JWK: its curve and its coordinates. -/
structure IsEc (jwk : Json) (crv x y : JsString) : Prop where
  kty : field (some jwk) (js "kty") = some (.str (js "EC"))
  curve : crv ∈ ecCurves
  crv : field (some jwk) (js "crv") = some (.str crv)
  x : field (some jwk) (js "x") = some (.str x)
  y : field (some jwk) (js "y") = some (.str y)

/-- A curve is one of a list when it is a string of it. -/
lemma isCurveIn_iff {curves : List JsString} {v : Option Json} :
    isCurveIn curves v = true ↔ ∃ crv ∈ curves, v = some (.str crv) := by
  unfold isCurveIn
  split
  · rename_i crv hcrv
    rw [Json.asString_eq_some] at hcrv
    simp [hcrv]
  · rename_i hnone
    simp only [Bool.false_eq_true, false_iff, not_exists, not_and]
    rintro crv - rfl
    cases hnone

/-- What has a member is an object. -/
lemma isObject_of_field {jwk v : Json} {name : JsString} (h : field (some jwk) name = some v) :
    Json.truthy (some jwk) = true ∧ Json.typeOf (some jwk) = js "object" := by
  cases jwk with
  | obj members => exact ⟨rfl, rfl⟩
  | _ => cases h

/-- The shapes that are accepted. -/
lemma assertShape_eq_ok {jwk : Json} : assertShape (some jwk) = .ok () ↔
    (∃ crv x, IsOkp jwk crv x) ∨ ∃ crv x y, IsEc jwk crv x y := by
  unfold assertShape
  constructor
  · intro h
    obtain ⟨_, -, h⟩ := bind_eq_ok.mp h
    split at h
    · rename_i hkty
      obtain ⟨_, hcurve, h⟩ := bind_eq_ok.mp h
      obtain ⟨crv, hmem, hcrv⟩ := isCurveIn_iff.mp (require_eq_ok.mp hcurve)
      obtain ⟨x, hx⟩ := Option.isSome_iff_exists.mp (require_eq_ok.mp h)
      exact .inl ⟨crv, x, Json.asString_eq_some.mp hkty, hmem, hcrv, Json.asString_eq_some.mp hx⟩
    split at h
    · rename_i hkty
      obtain ⟨_, hcurve, h⟩ := bind_eq_ok.mp h
      obtain ⟨crv, hmem, hcrv⟩ := isCurveIn_iff.mp (require_eq_ok.mp hcurve)
      obtain ⟨hx, hy⟩ := require_eq_ok.mp h
      obtain ⟨x, hx⟩ := Option.isSome_iff_exists.mp hx
      obtain ⟨y, hy⟩ := Option.isSome_iff_exists.mp hy
      exact .inr ⟨crv, x, y, Json.asString_eq_some.mp hkty, hmem, hcrv, Json.asString_eq_some.mp hx,
        Json.asString_eq_some.mp hy⟩
    · cases h
  · rintro (⟨crv, x, h⟩ | ⟨crv, x, y, h⟩)
    · have hcurve : isCurveIn okpCurves (field (some jwk) (js "crv")) = true :=
        isCurveIn_iff.mpr ⟨crv, h.curve, h.crv⟩
      refine bind_eq_ok.mpr ⟨(), require_eq_ok.mpr (isObject_of_field h.kty), ?_⟩
      rw [if_pos (Json.asString_eq_some.mpr h.kty)]
      refine bind_eq_ok.mpr ⟨(), require_eq_ok.mpr hcurve, require_eq_ok.mpr ?_⟩
      rw [h.x]
      rfl
    · have hcurve : isCurveIn ecCurves (field (some jwk) (js "crv")) = true :=
        isCurveIn_iff.mpr ⟨crv, h.curve, h.crv⟩
      have hne : Json.asString (field (some jwk) (js "kty")) ≠ some (js "OKP") := by
        rw [h.kty]
        decide
      refine bind_eq_ok.mpr ⟨(), require_eq_ok.mpr (isObject_of_field h.kty), ?_⟩
      rw [if_neg hne, if_pos (Json.asString_eq_some.mpr h.kty)]
      refine bind_eq_ok.mpr ⟨(), require_eq_ok.mpr hcurve, require_eq_ok.mpr ?_⟩
      rw [h.x, h.y]
      exact ⟨rfl, rfl⟩

/-- An OKP JWK has a shape that is accepted. -/
lemma IsOkp.shape {jwk : Json} {crv x : JsString} (h : IsOkp jwk crv x) :
    assertShape (some jwk) = .ok () := assertShape_eq_ok.mpr (.inl ⟨crv, x, h⟩)

/-- An EC JWK has a shape that is accepted. -/
lemma IsEc.shape {jwk : Json} {crv x y : JsString} (h : IsEc jwk crv x y) :
    assertShape (some jwk) = .ok () := assertShape_eq_ok.mpr (.inr ⟨crv, x, y, h⟩)

/-! ## Keys -/

/-- A JWK that is read as the key `key` of the curve named `crv`. -/
inductive Spells (C : Crypto) (jwk : Json) : JsString → Bytes → Prop where
  | okp {crv x key} : IsOkp jwk crv x → Base64url.decodeText x = .ok key → key.length = 32 →
    Spells C jwk crv key
  | ec {crv x y px py} : IsEc jwk crv x y → Base64url.decodeText x = .ok px →
    Base64url.decodeText y = .ok py → px.length = 32 → py.length = 32 →
    C.fromBytes (0x04 :: px ++ py) = .ok () → Spells C jwk crv (0x04 :: px ++ py)

section Keys
variable {C : Crypto} {jwk : Json} {crv x y : JsString} {key : Bytes}

/-- What an OKP JWK is read as depends on its curve and its coordinate. -/
lemma IsOkp.rawPublic_eq (h : IsOkp jwk crv x) : rawPublic C (some jwk) = (do
    let bytes ← Base64url.decodeText x
    require (bytes.length = 32) (error (js "jwk: " ++ Json.toStrOpt (some (.str crv)) ++
      js " JWK 'x' must decode to 32 bytes, got " ++ natText bytes.length))
    pure bytes) := by
  have hne : Json.asString (field (some jwk) (js "kty")) ≠ some (js "EC") := by
    rw [h.kty]
    decide
  rw [rawPublic, h.shape, ok_bind, if_neg hne, h.x, h.crv]
  rfl

/-- What an EC JWK is read as depends on its curve and its coordinates. -/
lemma IsEc.rawPublic_eq (h : IsEc jwk crv x y) : rawPublic C (some jwk) = (do
    let px ← Base64url.decodeText x
    let py ← Base64url.decodeText y
    require (px.length = 32 ∧ py.length = 32) (error (js "jwk: " ++
      Json.toStrOpt (some (.str crv)) ++ js " JWK 'x'/'y' must each decode to 32 bytes"))
    pointFromCoordinates C px py) := by
  rw [rawPublic, h.shape, ok_bind, if_pos (Json.asString_eq_some.mpr h.kty), h.x, h.y, h.crv]
  rfl

/-- The curve of an OKP JWK is the one it names. -/
lemma IsOkp.curveOf_eq (h : IsOkp jwk crv x) : curveOf (some jwk) = .ok crv := by
  rw [curveOf, h.shape, h.crv]
  rfl

/-- The curve of an EC JWK is the one it names. -/
lemma IsEc.curveOf_eq (h : IsEc jwk crv x y) : curveOf (some jwk) = .ok crv := by
  rw [curveOf, h.shape, h.crv]
  rfl

/-- A point is put together from two coordinates of 32 bytes, and is on the curve. -/
lemma pointFromCoordinates_eq_ok {px py : Bytes} :
    pointFromCoordinates C px py = .ok key ↔ px.length = 32 ∧ py.length = 32 ∧
      C.fromBytes (0x04 :: px ++ py) = .ok () ∧ key = 0x04 :: px ++ py := by
  unfold pointFromCoordinates
  constructor
  · intro h
    obtain ⟨_, hx, h⟩ := bind_eq_ok.mp h
    obtain ⟨_, hy, h⟩ := bind_eq_ok.mp h
    obtain ⟨_, hpoint, h⟩ := bind_eq_ok.mp h
    cases h
    exact ⟨require_eq_ok.mp hx, require_eq_ok.mp hy, raised_eq_ok.mp hpoint, rfl⟩
  · rintro ⟨hx, hy, hpoint, rfl⟩
    refine bind_eq_ok.mpr ⟨(), require_eq_ok.mpr hx, bind_eq_ok.mpr ⟨(), require_eq_ok.mpr hy, ?_⟩⟩
    exact bind_eq_ok.mpr ⟨(), raised_eq_ok.mpr hpoint, rfl⟩

/-- The reading of a JWK is exact. -/
lemma spells_iff :
    (curveOf (some jwk) = .ok crv ∧ rawPublic C (some jwk) = .ok key) ↔ Spells C jwk crv key := by
  constructor
  · intro ⟨hcurve, hraw⟩
    obtain ⟨_, hshape, -⟩ := bind_eq_ok.mp hcurve
    obtain ⟨crv', x, h⟩ | ⟨crv', x, y, h⟩ := assertShape_eq_ok.mp hshape
    · cases h.curveOf_eq.symm.trans hcurve
      rw [h.rawPublic_eq] at hraw
      obtain ⟨bytes, hx, hraw⟩ := bind_eq_ok.mp hraw
      obtain ⟨_, hlen, hraw⟩ := bind_eq_ok.mp hraw
      cases hraw
      exact .okp h hx (require_eq_ok.mp hlen)
    · cases h.curveOf_eq.symm.trans hcurve
      rw [h.rawPublic_eq] at hraw
      obtain ⟨px, hx, hraw⟩ := bind_eq_ok.mp hraw
      obtain ⟨py, hy, hraw⟩ := bind_eq_ok.mp hraw
      obtain ⟨_, -, hraw⟩ := bind_eq_ok.mp hraw
      obtain ⟨hpx, hpy, hpoint, rfl⟩ := pointFromCoordinates_eq_ok.mp hraw
      exact .ec h hx hy hpx hpy hpoint
  · intro h
    cases h with
    | okp h hx hlen =>
      refine ⟨h.curveOf_eq, ?_⟩
      rw [h.rawPublic_eq]
      exact bind_eq_ok.mpr ⟨_, hx, bind_eq_ok.mpr ⟨(), require_eq_ok.mpr hlen, rfl⟩⟩
    | ec h hx hy hpx hpy hpoint =>
      refine ⟨h.curveOf_eq, ?_⟩
      rw [h.rawPublic_eq]
      refine bind_eq_ok.mpr ⟨_, hx, bind_eq_ok.mpr ⟨_, hy, ?_⟩⟩
      refine bind_eq_ok.mpr ⟨(), require_eq_ok.mpr ⟨hpx, hpy⟩, ?_⟩
      exact pointFromCoordinates_eq_ok.mpr ⟨hpx, hpy, hpoint, rfl⟩

end Keys

/-! ## The JWKs that are built -/

section Built
variable {C : Crypto} {crv : JsString} {x y d key : Bytes} {kid : Option Json} {j : Json}

/-- The `kid` is left out, or it is kept. -/
lemma keepKid_cases (kid : Option Json) : keepKid kid = [] ∨
    ∃ v, kid = some v ∧ Json.truthy (some v) = true ∧ keepKid kid = [(js "kid", v)] := by
  cases kid with
  | none => exact .inl rfl
  | some v =>
    by_cases htruthy : Json.truthy (some v) = true
    · exact .inr ⟨v, rfl, htruthy, if_pos htruthy⟩
    · exact .inl (if_neg htruthy)

/-- The coordinates of a point are those it was put together from. -/
lemma pointCoordinates_point {px py : Bytes} (hpx : px.length = 32) (hpy : py.length = 32) :
    pointCoordinates (0x04 :: px ++ py) = .ok (px, py) := by
  have hlen : (0x04 :: px ++ py).length = uncompressedLen := by
    simp [hpx, hpy, uncompressedLen]
  have hx : ((0x04 :: px ++ py).drop 1).take coordLen = px := List.take_left' hpx
  have hy : (0x04 :: px ++ py).drop (1 + coordLen) = py := by
    apply List.drop_left'
    simp [hpx, coordLen]
  rw [pointCoordinates, require_of ⟨hlen, rfl⟩, ok_bind, hx, hy]
  rfl

/-- A point that is cut into coordinates is an uncompressed one. -/
lemma pointCoordinates_eq_ok : pointCoordinates key = .ok (x, y) ↔
    x.length = 32 ∧ y.length = 32 ∧ key = 0x04 :: x ++ y := by
  constructor
  · intro h
    obtain ⟨_, hpoint, h⟩ := bind_eq_ok.mp h
    obtain ⟨hlen, hhead⟩ := require_eq_ok.mp hpoint
    cases h
    cases key with
    | nil => cases hhead
    | cons b key =>
      cases hhead
      rw [List.length_cons, uncompressedLen] at hlen
      refine ⟨by simp [coordLen]; omega, by simp [coordLen]; omega, ?_⟩
      rw [Nat.add_comm, List.drop_succ_cons, List.drop_succ_cons, List.drop_zero, List.cons_append,
        List.take_append_drop]
  · rintro ⟨hx, hy, rfl⟩
    exact pointCoordinates_point hx hy

/-- Which keys are printed, and as what. -/
lemma publicJwk_eq_ok : publicJwk crv key kid = .ok j ↔
    (crv ∈ okpCurves ∧ key.length = 32 ∧ j = okpJwk crv key kid) ∨
      crv ∈ ecCurves ∧ ∃ x y, x.length = 32 ∧ y.length = 32 ∧ key = 0x04 :: x ++ y ∧
        j = ecJwk crv x y kid := by
  have hdisjoint : crv ∈ okpCurves → crv ∉ ecCurves := by
    have hall : ∀ crv ∈ okpCurves, crv ∉ ecCurves := by decide
    exact hall crv
  unfold publicJwk
  split
  · rename_i hec
    constructor
    · intro h
      obtain ⟨⟨x, y⟩, hxy, h⟩ := bind_eq_ok.mp h
      cases h
      obtain ⟨hx, hy, rfl⟩ := pointCoordinates_eq_ok.mp hxy
      exact .inr ⟨hec, x, y, hx, hy, rfl, rfl⟩
    · rintro (⟨hokp, -⟩ | ⟨-, x, y, hx, hy, rfl, rfl⟩)
      · exact absurd hec (hdisjoint hokp)
      · exact bind_eq_ok.mpr ⟨_, pointCoordinates_point hx hy, rfl⟩
  · rename_i hec
    constructor
    · intro h
      obtain ⟨_, hcurve, h⟩ := bind_eq_ok.mp h
      obtain ⟨_, hlen, h⟩ := bind_eq_ok.mp h
      cases h
      obtain ⟨crv', hmem, heq⟩ := isCurveIn_iff.mp (require_eq_ok.mp hcurve)
      cases heq
      exact .inl ⟨hmem, require_eq_ok.mp hlen, rfl⟩
    · rintro (⟨hokp, hlen, rfl⟩ | ⟨hec', -⟩)
      · have hcurve : isCurveIn okpCurves (some (.str crv)) = true :=
          isCurveIn_iff.mpr ⟨crv, hokp, rfl⟩
        exact bind_eq_ok.mpr ⟨(), require_eq_ok.mpr hcurve,
          bind_eq_ok.mpr ⟨(), require_eq_ok.mpr hlen, rfl⟩⟩
      · exact absurd hec' hec

/-- The JWK of an OKP key has its shape, with a private key or without. -/
lemma isOkp_okpJwk (hcrv : crv ∈ okpCurves) (x : Bytes) (kid : Option Json) :
    IsOkp (okpJwk crv x kid) crv (Base64url.encode x) ∧
      ∀ d, IsOkp (withPrivate (okpJwk crv x kid) d) crv (Base64url.encode x) :=
  ⟨⟨rfl, hcrv, rfl, rfl⟩, fun _ => ⟨rfl, hcrv, rfl, rfl⟩⟩

/-- The JWK of an EC key has its shape, with a private key or without. -/
lemma isEc_ecJwk (hcrv : crv ∈ ecCurves) (x y : Bytes) (kid : Option Json) :
    IsEc (ecJwk crv x y kid) crv (Base64url.encode x) (Base64url.encode y) ∧
      ∀ d, IsEc (withPrivate (ecJwk crv x y kid) d) crv (Base64url.encode x) (Base64url.encode y) :=
  ⟨⟨rfl, hcrv, rfl, rfl, rfl⟩, fun _ => ⟨rfl, hcrv, rfl, rfl, rfl⟩⟩

/-- The private key of a JWK is the one that it was given. -/
lemma field_private (j : Json) (h : publicJwk crv key kid = .ok j) (d : Bytes) :
    field (some (withPrivate j d)) (js "d") = some (.str (Base64url.encode d)) := by
  obtain ⟨-, -, rfl⟩ | ⟨-, x, y, -, -, -, rfl⟩ := publicJwk_eq_ok.mp h
  all_goals
    obtain hkid | ⟨v, -, -, hkid⟩ := keepKid_cases kid
    all_goals
      simp only [okpJwk, ecJwk, withPrivate, hkid]
      rfl

/-- A JWK that is built spells its key: an EC key when it is a point on the curve. -/
lemma spells_publicJwk (h : publicJwk crv key kid = .ok j)
    (hpoint : crv ∈ ecCurves → C.fromBytes key = .ok ()) :
    Spells C j crv key ∧ ∀ d, Spells C (withPrivate j d) crv key := by
  have decoded (bytes : Bytes) : Base64url.decodeText (Base64url.encode bytes) = .ok bytes :=
    Base64url.decode_encode bytes
  obtain ⟨hcrv, hlen, rfl⟩ | ⟨hcrv, x, y, hx, hy, rfl, rfl⟩ := publicJwk_eq_ok.mp h
  · obtain ⟨hpublic, hprivate⟩ := isOkp_okpJwk hcrv key kid
    exact ⟨.okp hpublic (decoded key) hlen, fun d => .okp (hprivate d) (decoded key) hlen⟩
  · obtain ⟨hpublic, hprivate⟩ := isEc_ecJwk hcrv x y kid
    exact ⟨.ec hpublic (decoded x) (decoded y) hx hy (hpoint hcrv),
      fun d => .ec (hprivate d) (decoded x) (decoded y) hx hy (hpoint hcrv)⟩

/-- The private key is read back. -/
lemma rawPrivate_ok {jwk : Option Json} (hs : assertShape jwk = .ok ())
    (hd : field jwk (js "d") = some (.str (Base64url.encode d))) (hlen : d.length = 32) :
    rawPrivate jwk = .ok d := by
  have hne : d ≠ [] := List.ne_nil_of_length_pos (by omega)
  simp [rawPrivate, hs, hd, require_of, Base64url.truthy_encode hne, Base64url.decode_encode, hlen,
    pure, Except.pure]

end Built

/-! ## Key-agreement keys -/

section KeyAgreement
variable (C : Crypto)

/-- A JWK that is read as the public key `key` of curve `crv`. -/
structure IsPublic (crv : Curve) (jwk : Json) (key : Bytes) : Prop where
  truthy : Json.truthy (some jwk) = true
  curve : curveOf (some jwk) = .ok crv.name
  raw : rawPublic C (some jwk) = .ok key

/-- A JWK that is read as the private key `key` of curve `crv`. -/
structure IsPrivate (crv : Curve) (jwk : Json) (key : Bytes) : Prop where
  truthy : Json.truthy (some jwk) = true
  curve : curveOf (some jwk) = .ok crv.name
  raw : rawPrivate (some jwk) = .ok key

variable {C} {crv : Curve} {jwk : Json} {key d : Bytes}

/-- A JWK that spells a key is an object, and its shape is accepted. -/
lemma Spells.shape {name : JsString} (h : Spells C jwk name key) :
    Json.truthy (some jwk) = true ∧ assertShape (some jwk) = .ok () := by
  cases h with
  | okp h => exact ⟨(isObject_of_field h.kty).1, h.shape⟩
  | ec h => exact ⟨(isObject_of_field h.kty).1, h.shape⟩

/-- A JWK that spells a key is read as the key. -/
lemma Spells.isPublic (h : Spells C jwk crv.name key) : IsPublic C crv jwk key :=
  ⟨h.shape.1, (spells_iff.mpr h).1, (spells_iff.mpr h).2⟩

/-- With a private key it is read as that one. -/
lemma Spells.isPrivate (h : Spells C jwk crv.name key)
    (hd : field (some jwk) (js "d") = some (.str (Base64url.encode d))) (hlen : d.length = 32) :
    IsPrivate crv jwk d :=
  ⟨h.shape.1, (spells_iff.mpr h).1, rawPrivate_ok h.shape.2 hd hlen⟩

/-- A public key of the primitives can be printed, and is a point where it has to be one. -/
lemma publicJwk_of_pair (hC : C.Lawful) {a A : Bytes} (h : C.getPublicKey crv a = .ok A) :
    (∃ jwk, publicJwk crv.name A none = .ok jwk) ∧ (crv.name ∈ ecCurves → C.fromBytes A = .ok ()) := by
  cases crv with
  | x25519 =>
    refine ⟨⟨_, publicJwk_eq_ok.mpr (.inl ⟨by decide, hC.x25519_length h, rfl⟩)⟩, fun hec => ?_⟩
    exact absurd hec (by decide)
  | p256 =>
    obtain ⟨hlen, hhead, hp⟩ := hC.p256_point h
    refine ⟨?_, fun _ => hp⟩
    have hxy : pointCoordinates A = .ok ((A.drop 1).take coordLen, A.drop (1 + coordLen)) :=
      bind_eq_ok.mpr ⟨(), require_eq_ok.mpr ⟨hlen, hhead⟩, rfl⟩
    obtain ⟨hx, hy, hA⟩ := pointCoordinates_eq_ok.mp hxy
    exact ⟨_, publicJwk_eq_ok.mpr (.inr ⟨by decide, _, _, hx, hy, hA, rfl⟩)⟩

/-- The JWK of a public key is read as the key. -/
lemma publicJwk_ok (hC : C.Lawful) {a A : Bytes} (h : C.getPublicKey crv a = .ok A) :
    ∃ jwk, publicJwk crv.name A none = .ok jwk ∧ IsPublic C crv jwk A := by
  obtain ⟨⟨jwk, hjwk⟩, hpoint⟩ := publicJwk_of_pair hC h
  exact ⟨jwk, hjwk, (spells_publicJwk hjwk hpoint).1.isPublic⟩

/-- The JWK of a key pair is read as its private key. -/
lemma privateJwk_ok (hC : C.Lawful) {a A : Bytes} (h : C.getPublicKey crv a = .ok A) :
    ∃ jwk, privateJwk crv.name a A none = .ok jwk ∧ IsPrivate crv jwk a := by
  have hlen : a.length = 32 := hC.private_length h
  obtain ⟨⟨jwk, hjwk⟩, hpoint⟩ := publicJwk_of_pair hC h
  refine ⟨withPrivate jwk a, ?_, ?_⟩
  · exact bind_eq_ok.mpr ⟨_, hjwk, bind_eq_ok.mpr ⟨(), require_eq_ok.mpr hlen, rfl⟩⟩
  · exact ((spells_publicJwk hjwk hpoint).2 a).isPrivate (field_private jwk hjwk a) hlen

end KeyAgreement

end VtiDidcomm.Jwk
