import VtiDidcomm.Envelope.Jwk

/-!
# What a JWK spells

How the JWKs of one key are related (`jwk_forms`). A key is read from the coordinates of its JWK and
nothing else; what `publicJwk` prints is the JWK with these coordinates in their canonical text and
with the `kid` it is given, and `toPublic` is what is left of a JWK without its private key.
-/

namespace VtiDidcomm.Jwk
open Js

/-- The members of a JWK by these names, `undefined` ones left out. -/
def pick (jwk : Option Json) (names : List JsString) : List (JsString × Json) :=
  names.filterMap fun name => (field jwk name).map fun v => (name, v)

/-- `toPublic` -/
def toPublic (jwk : Option Json) : Except JsError Json := do
  assertShape jwk
  let out :=
    if Json.asString (field jwk (js "kty")) = some (js "EC") then
      (js "kty", .str (js "EC")) :: pick jwk [js "crv", js "x", js "y"]
    else (js "kty", .str (js "OKP")) :: pick jwk [js "crv", js "x"]
  return .obj (out ++ keepKid (field jwk (js "kid")))

variable {C : Crypto} {jwk : Json} {crv x y : JsString} {key : Bytes}

/-! ## The public part -/

/-- The public part of an OKP JWK. -/
lemma IsOkp.toPublic_eq (h : IsOkp jwk crv x) : toPublic (some jwk) =
    .ok (.obj ([(js "kty", .str (js "OKP")), (js "crv", .str crv), (js "x", .str x)] ++
      keepKid (field (some jwk) (js "kid")))) := by
  have hne : Json.asString (field (some jwk) (js "kty")) ≠ some (js "EC") := by
    rw [h.kty]
    decide
  rw [toPublic, h.shape, ok_bind, if_neg hne, pick, List.filterMap_cons, List.filterMap_cons, h.crv,
    h.x]
  rfl

/-- The public part of an EC JWK. -/
lemma IsEc.toPublic_eq (h : IsEc jwk crv x y) : toPublic (some jwk) =
    .ok (.obj ([(js "kty", .str (js "EC")), (js "crv", .str crv), (js "x", .str x),
      (js "y", .str y)] ++ keepKid (field (some jwk) (js "kid")))) := by
  rw [toPublic, h.shape, ok_bind, if_pos (Json.asString_eq_some.mpr h.kty), pick, List.filterMap_cons,
    List.filterMap_cons, List.filterMap_cons, h.crv, h.x, h.y]
  rfl

/-- The public part of a JWK: a JWK of the same key, with no private key, and its own public part. -/
structure IsPublicPart (C : Crypto) (jwk p : Json) : Prop where
  curve : curveOf (some p) = curveOf (some jwk)
  raw : rawPublic C (some p) = rawPublic C (some jwk)
  noPrivate : field (some p) (js "d") = none
  notPrivate : rawPrivate (some p) = .error
    (error (js "jwk: JWK has no 'd' — this is a public-only key"))
  again : toPublic (some p) = .ok p

/-- A JWK without a `d` is no private key. -/
lemma rawPrivate_of_none (hshape : assertShape (some jwk) = .ok ())
    (hd : field (some jwk) (js "d") = none) : rawPrivate (some jwk) = .error
      (error (js "jwk: JWK has no 'd' — this is a public-only key")) := by
  rw [rawPrivate, hshape, ok_bind, hd]
  rfl

/-- The public part of an OKP JWK is one. -/
lemma IsOkp.isPublicPart (h : IsOkp jwk crv x) {p : Json} (hp : toPublic (some jwk) = .ok p) :
    IsPublicPart C jwk p := by
  rw [h.toPublic_eq] at hp
  cases hp
  generalize field (some jwk) (js "kid") = kid
  generalize hpart : Json.obj ([(js "kty", .str (js "OKP")), (js "crv", .str crv), (js "x", .str x)] ++
    keepKid kid) = p
  have hparts : IsOkp p crv x ∧ field (some p) (js "d") = none ∧
      keepKid (field (some p) (js "kid")) = keepKid kid := by
    subst hpart
    obtain hkid | ⟨v, rfl, htruthy, hkid⟩ := keepKid_cases kid
    · rw [hkid]
      exact ⟨⟨rfl, h.curve, rfl, rfl⟩, rfl, rfl⟩
    · rw [hkid]
      exact ⟨⟨rfl, h.curve, rfl, rfl⟩, rfl, if_pos htruthy⟩
  obtain ⟨hokp, hd, hkid⟩ := hparts
  refine ⟨hokp.curveOf_eq.trans h.curveOf_eq.symm, hokp.rawPublic_eq.trans h.rawPublic_eq.symm, hd,
    rawPrivate_of_none hokp.shape hd, ?_⟩
  rw [hokp.toPublic_eq, hkid, hpart]

/-- The public part of an EC JWK is one. -/
lemma IsEc.isPublicPart (h : IsEc jwk crv x y) {p : Json} (hp : toPublic (some jwk) = .ok p) :
    IsPublicPart C jwk p := by
  rw [h.toPublic_eq] at hp
  cases hp
  generalize field (some jwk) (js "kid") = kid
  generalize hpart : Json.obj ([(js "kty", .str (js "EC")), (js "crv", .str crv), (js "x", .str x),
    (js "y", .str y)] ++ keepKid kid) = p
  have hparts : IsEc p crv x y ∧ field (some p) (js "d") = none ∧
      keepKid (field (some p) (js "kid")) = keepKid kid := by
    subst hpart
    obtain hkid | ⟨v, rfl, htruthy, hkid⟩ := keepKid_cases kid
    · rw [hkid]
      exact ⟨⟨rfl, h.curve, rfl, rfl, rfl⟩, rfl, rfl⟩
    · rw [hkid]
      exact ⟨⟨rfl, h.curve, rfl, rfl, rfl⟩, rfl, if_pos htruthy⟩
  obtain ⟨hec, hd, hkid⟩ := hparts
  refine ⟨hec.curveOf_eq.trans h.curveOf_eq.symm, hec.rawPublic_eq.trans h.rawPublic_eq.symm, hd,
    rawPrivate_of_none hec.shape hd, ?_⟩
  rw [hec.toPublic_eq, hkid, hpart]

/-- The members the public part is made of. -/
def publicNames : List JsString := [js "kty", js "crv", js "x", js "y", js "kid"]

/-- The public part tells nothing of the other members. -/
lemma toPublic_congr {jwk' p : Json} (hp : toPublic (some jwk) = .ok p)
    (h : ∀ name ∈ publicNames, field (some jwk') name = field (some jwk) name) :
    toPublic (some jwk') = .ok p := by
  obtain ⟨_, hshape, -⟩ := bind_eq_ok.mp hp
  have hkty := h (js "kty") (by decide)
  have hcrv := h (js "crv") (by decide)
  have hx := h (js "x") (by decide)
  have hy := h (js "y") (by decide)
  have hkid := h (js "kid") (by decide)
  obtain ⟨crv, x, hokp⟩ | ⟨crv, x, y, hec⟩ := assertShape_eq_ok.mp hshape
  · have hokp' : IsOkp jwk' crv x :=
      ⟨hkty.trans hokp.kty, hokp.curve, hcrv.trans hokp.crv, hx.trans hokp.x⟩
    rw [hokp'.toPublic_eq, hkid, ← hokp.toPublic_eq, hp]
  · have hec' : IsEc jwk' crv x y :=
      ⟨hkty.trans hec.kty, hec.curve, hcrv.trans hec.crv, hx.trans hec.x, hy.trans hec.y⟩
    rw [hec'.toPublic_eq, hkid, ← hec.toPublic_eq, hp]

/-! ## The printed JWK -/

/-- The members that hold the coordinates of a key. -/
def coordinates (crv : JsString) : List JsString :=
  if crv ∈ ecCurves then [js "x", js "y"] else [js "x"]

/-- The JWK of a key, with a `kid` if it is one to keep; it differs from another JWK of the key in the
coordinates whose text is not canonical. -/
structure IsPrinted (C : Crypto) (crv : JsString) (jwk j : Json) (key : Bytes) (kid : Option Json) :
    Prop where
  spells : Spells C j crv key
  kid : keepKid (field (some j) (js "kid")) = keepKid kid
  canonical : ∀ name ∈ coordinates crv, field (some j) name = field (some jwk) name ↔
    ∃ bytes, field (some jwk) name = some (.str (Base64url.encode bytes))

/-- A text is the one that its bytes are printed as, or no text that is printed. -/
lemma encode_eq_iff {text : JsString} {bytes : Bytes} (h : Base64url.decodeText text = .ok bytes) :
    some (Json.str (Base64url.encode bytes)) = some (.str text) ↔
      ∃ b, some (Json.str text) = some (.str (Base64url.encode b)) := by
  constructor
  · intro heq
    exact ⟨bytes, heq.symm⟩
  · rintro ⟨b, heq⟩
    cases heq
    have hb : Base64url.decodeText (Base64url.encode b) = .ok b := Base64url.decode_encode b
    cases hb.symm.trans h
    rfl

/-- The `kid` of a JWK that is built is the one it was given, with a private key or without. -/
lemma keepKid_publicJwk {kid : Option Json} {j : Json} (h : publicJwk crv key kid = .ok j) :
    keepKid (field (some j) (js "kid")) = keepKid kid ∧
      ∀ d, keepKid (field (some (withPrivate j d)) (js "kid")) = keepKid kid := by
  obtain ⟨-, -, rfl⟩ | ⟨-, x, y, -, -, -, rfl⟩ := publicJwk_eq_ok.mp h
  all_goals
    obtain hkid | ⟨v, rfl, htruthy, hkid⟩ := keepKid_cases kid
    · simp only [okpJwk, ecJwk, withPrivate, hkid]
      exact ⟨rfl, fun _ => rfl⟩
    · simp only [okpJwk, ecJwk, withPrivate, hkid]
      exact ⟨if_pos htruthy, fun _ => if_pos htruthy⟩

/-- A key that is read can be printed. -/
lemma Spells.printed (h : Spells C jwk crv key) (kid : Option Json) :
    ∃ j, publicJwk crv key kid = .ok j ∧ IsPrinted C crv jwk j key kid := by
  cases h with
  | okp hokp hx hlen =>
    have hec : crv ∉ ecCurves := by
      have hall : ∀ crv ∈ okpCurves, crv ∉ ecCurves := by decide
      exact hall crv hokp.curve
    have hj : publicJwk crv key kid = .ok (okpJwk crv key kid) :=
      publicJwk_eq_ok.mpr (.inl ⟨hokp.curve, hlen, rfl⟩)
    refine ⟨_, hj, (spells_publicJwk hj fun h => absurd h hec).1, (keepKid_publicJwk hj).1, ?_⟩
    intro name hmem
    rw [coordinates, if_neg hec] at hmem
    cases List.mem_singleton.mp hmem
    rw [hokp.x]
    exact encode_eq_iff hx
  | @ec x y px py hec hx hy hpx hpy hpoint =>
    have hj : publicJwk crv (0x04 :: px ++ py) kid = .ok (ecJwk crv px py kid) :=
      publicJwk_eq_ok.mpr (.inr ⟨hec.curve, px, py, hpx, hpy, rfl, rfl⟩)
    refine ⟨_, hj, (spells_publicJwk hj fun _ => hpoint).1, (keepKid_publicJwk hj).1, ?_⟩
    intro name hmem
    rw [coordinates, if_pos hec.curve] at hmem
    obtain rfl | rfl : name = js "x" ∨ name = js "y" := by simpa using hmem
    · rw [hec.x]
      exact encode_eq_iff hx
    · rw [hec.y]
      exact encode_eq_iff hy

/-- What a private JWK is: the public one with its private key. -/
structure IsPrivatePair (C : Crypto) (crv : JsString) (d pub : Bytes) (j p : Json) : Prop where
  toPublic : toPublic (some j) = .ok p
  curve : curveOf (some j) = .ok crv
  raw : rawPublic C (some j) = rawPublic C (some p)
  spells : (crv ∈ ecCurves → C.fromBytes pub = .ok ()) → Spells C j crv pub
  rawPrivate : rawPrivate (some j) = .ok d

/-- A private JWK is built from the public one. -/
lemma privateJwk_parts {d pub : Bytes} {kid : Option Json} {j : Json}
    (h : privateJwk crv d pub kid = .ok j) :
    ∃ p, publicJwk crv pub kid = .ok p ∧ IsPrivatePair C crv d pub j p := by
  obtain ⟨p, hp, h⟩ := bind_eq_ok.mp h
  obtain ⟨_, hrequire, h⟩ := bind_eq_ok.mp h
  cases h
  refine ⟨p, hp, ?_⟩
  have hlen : d.length = 32 := require_eq_ok.mp hrequire
  have hd := field_private p hp d
  have hkid := (keepKid_publicJwk hp).2 d
  have hspells (hpoint : crv ∈ ecCurves → C.fromBytes pub = .ok ()) :
      Spells C (withPrivate p d) crv pub := (spells_publicJwk hp hpoint).2 d
  obtain ⟨hcrv, -, rfl⟩ | ⟨hcrv, x, y, -, -, -, rfl⟩ := publicJwk_eq_ok.mp hp
  · obtain ⟨hpublic, hprivate⟩ := isOkp_okpJwk hcrv pub kid
    exact ⟨(hprivate d).toPublic_eq.trans (by rw [hkid]; rfl), (hprivate d).curveOf_eq,
      (hprivate d).rawPublic_eq.trans hpublic.rawPublic_eq.symm, hspells,
      rawPrivate_ok (hprivate d).shape hd hlen⟩
  · obtain ⟨hpublic, hprivate⟩ := isEc_ecJwk hcrv x y kid
    exact ⟨(hprivate d).toPublic_eq.trans (by rw [hkid]; rfl), (hprivate d).curveOf_eq,
      (hprivate d).rawPublic_eq.trans hpublic.rawPublic_eq.symm, hspells,
      rawPrivate_ok (hprivate d).shape hd hlen⟩

/-- The forms of a key. A JSON value is read as a key exactly when it spells one: an OKP key of 32
bytes, or a P-256 point on the curve. Every key that is read can be printed, with any `kid`, and what
is printed is read as the same key; it has the coordinates of the JWK it was read from exactly where
their text is canonical, so that all JWKs of a key print the same one. A private JWK is read as both
its keys, and its public part is the JWK of the public key with the same `kid`. The public part of any
JWK is of the same key, has no private key, keeps nothing but five members, and is its own public
part. -/
theorem jwk_forms (C : Crypto) :
    (∀ jwk crv key, (curveOf (some jwk) = .ok crv ∧ rawPublic C (some jwk) = .ok key) ↔
      Spells C jwk crv key) ∧
    (∀ jwk crv key kid, Spells C jwk crv key →
      ∃ j, publicJwk crv key kid = .ok j ∧ IsPrinted C crv jwk j key kid) ∧
    (∀ crv d pub kid j, privateJwk crv d pub kid = .ok j →
      ∃ p, publicJwk crv pub kid = .ok p ∧ IsPrivatePair C crv d pub j p) ∧
    ∀ jwk p, toPublic (some jwk) = .ok p → IsPublicPart C jwk p ∧
      ∀ jwk', (∀ name ∈ publicNames, field (some jwk') name = field (some jwk) name) →
        toPublic (some jwk') = .ok p := by
  refine ⟨fun jwk crv key => spells_iff, fun jwk crv key kid h => h.printed kid,
    fun crv d pub kid j h => privateJwk_parts h, ?_⟩
  intro jwk p hp
  refine ⟨?_, fun jwk' h => toPublic_congr hp h⟩
  obtain ⟨_, hshape, -⟩ := bind_eq_ok.mp hp
  cases assertShape_eq_ok.mp hshape with
  | inl hokp =>
    obtain ⟨crv, x, hokp⟩ := hokp
    exact hokp.isPublicPart hp
  | inr hec =>
    obtain ⟨crv, x, y, hec⟩ := hec
    exact hec.isPublicPart hp

end VtiDidcomm.Jwk
