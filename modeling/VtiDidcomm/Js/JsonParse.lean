import VtiDidcomm.Js.Json
import VtiDidcomm.Js.Platform

/-!
# Reading JSON

`JSON.parse`: white space, strings with their escapes, numbers and literals, arrays, and objects
whose members are kept in property order, the last of two members of one name winning. What a number
is printed as again is left to `number`.

`Plain` says which values a text can stand for, and `parse_stringify` that `JSON.parse` reads back
what `JSON.stringify` prints for one.
-/

namespace Js

namespace Json

/-! ## The grammar -/

/-- The white space of JSON. -/
def isJsonSpace (c : CodeUnit) : Bool := c = 0x20 || c = 0x09 || c = 0x0A || c = 0x0D

def skipSpace (s : JsString) : JsString := s.dropWhile isJsonSpace

/-- Skips white space and the code unit `c`. -/
def expect (c : CodeUnit) (s : JsString) : Option JsString :=
  match skipSpace s with
  | [] => none
  | d :: s => if d = c then some s else none

/-- The code unit of four hexadecimal digits. -/
def hexUnit (a b c d : CodeUnit) : Option CodeUnit := do
  let a ← hexDigitValue a
  let b ← hexDigitValue b
  let c ← hexDigitValue c
  let d ← hexDigitValue d
  pure (a * 0x1000 + b * 0x100 + c * 0x10 + d).toUInt16

/-- The code unit a backslash and one other stand for. -/
def escaped (c : CodeUnit) : Option CodeUnit :=
  if c = 0x22 || c = 0x5C || c = 0x2F then some c
  else if c = 0x62 then some 0x08
  else if c = 0x66 then some 0x0C
  else if c = 0x6E then some 0x0A
  else if c = 0x72 then some 0x0D
  else if c = 0x74 then some 0x09
  else none

/-- The rest of a string after its opening quote, and what follows it. -/
def readString : JsString → Option (JsString × JsString)
  | [] => none
  | c :: s =>
    if c = 0x22 then some ([], s)
    else if c = 0x5C then
      match s with
      | [] => none
      | e :: s =>
        if e = 0x75 then
          match s with
          | x :: y :: z :: w :: s =>
            match hexUnit x y z w with
            | none => none
            | some u => (readString s).map (Prod.map (u :: ·) id)
          | _ => none
        else
          match escaped e with
          | none => none
          | some u => (readString s).map (Prod.map (u :: ·) id)
    else if c < 0x20 then none
    else (readString s).map (Prod.map (c :: ·) id)

/-- A code unit of a number. -/
def isNumberUnit (c : CodeUnit) : Bool :=
  isDigit c || c ∈ ([0x2B, 0x2D, 0x2E, 0x45, 0x65] : List CodeUnit)

/-- One or more digits. -/
def skipDigits : JsString → Option JsString
  | [] => none
  | c :: s => if isDigit c then some (s.dropWhile isDigit) else none

/-- The integer part of a number: `0`, or digits that do not start with it. -/
def skipInteger : JsString → Option JsString
  | [] => none
  | c :: s => if c = 0x30 then some s else skipDigits (c :: s)

def skipFraction : JsString → Option JsString
  | [] => some []
  | c :: s => if c = 0x2E then skipDigits s else some (c :: s)

def skipExponent : JsString → Option JsString
  | [] => some []
  | c :: s =>
    if c = 0x65 || c = 0x45 then
      match s with
      | [] => none
      | d :: s => if d = 0x2B || d = 0x2D then skipDigits s else skipDigits (d :: s)
    else some (c :: s)

/-- Whether a token is a number. -/
def isNumber (token : JsString) : Bool :=
  let s := if startsWith token (js "-") then sliceFrom token 1 else token
  ((skipInteger s).bind skipFraction).bind skipExponent = some []

/-! ## Objects -/

/-- The array index a key is, if it is one. -/
def arrayIndex (key : JsString) : Option Nat :=
  let n := digitsValue key
  if key = natText n && n < 0xffffffff then some n else none

/-- Whether a member stands before the array index `n`. -/
def indexBefore (n : Nat) (m : JsString × Json) : Bool :=
  match arrayIndex m.1 with
  | some i => i < n
  | none => false

/-- Sets a property of an object. One that is there keeps its place; array indices come first and in
order, other keys as they are inserted. -/
def setProperty (members : List (JsString × Json)) (m : JsString × Json) :
    List (JsString × Json) :=
  if members.any (·.1 = m.1) then members.map fun old => if old.1 = m.1 then m else old
  else
    match arrayIndex m.1 with
    | none => members ++ [m]
    | some n => members.takeWhile (indexBefore n) ++ m :: members.dropWhile (indexBefore n)

/-! ## Reading -/

variable (number : List UInt8 → List UInt8)

def readNumber (s : JsString) : Option (Json × JsString) :=
  let token := s.takeWhile isNumberUnit
  if isNumber token then
    some (num (number (token.map (·.toUInt8))), s.dropWhile isNumberUnit)
  else none

def readLiteral (s : JsString) : Option (Json × JsString) :=
  if startsWith s (js "null") then some (null, sliceFrom s 4)
  else if startsWith s (js "true") then some (bool true, sliceFrom s 4)
  else if startsWith s (js "false") then some (bool false, sliceFrom s 5)
  else none

mutual
/-- A value and what follows it; `fuel` bounds how deep values nest and how many are in a row. -/
def readValue : Nat → JsString → Option (Json × JsString)
  | 0, _ => none
  | fuel + 1, s =>
    match skipSpace s with
    | [] => none
    | c :: s =>
      if c = 0x22 then (readString s).map fun r => (str r.1, r.2)
      else if c = 0x5B then
        match expect 0x5D s with
        | some s => some (arr [], s)
        | none => (readItems fuel s).map fun r => (arr r.1, r.2)
      else if c = 0x7B then
        match expect 0x7D s with
        | some s => some (obj [], s)
        | none => (readMembers fuel s).map fun r => (obj (r.1.foldl setProperty []), r.2)
      else if isNumberUnit c then readNumber number (c :: s)
      else readLiteral (c :: s)
/-- The items of an array, to its end. -/
def readItems : Nat → JsString → Option (List Json × JsString)
  | 0, _ => none
  | fuel + 1, s => do
    let (j, s) ← readValue fuel s
    match expect 0x2C s with
    | some s =>
      let (items, s) ← readItems fuel s
      pure (j :: items, s)
    | none =>
      let s ← expect 0x5D s
      pure ([j], s)
/-- The members of an object, to its end. -/
def readMembers : Nat → JsString → Option (List (JsString × Json) × JsString)
  | 0, _ => none
  | fuel + 1, s => do
    let s ← expect 0x22 s
    let (key, s) ← readString s
    let s ← expect 0x3A s
    let (j, s) ← readValue fuel s
    match expect 0x2C s with
    | some s =>
      let (members, s) ← readMembers fuel s
      pure ((key, j) :: members, s)
    | none =>
      let s ← expect 0x7D s
      pure ([(key, j)], s)
end

/-- `JSON.parse(s)`, `none` when it throws. -/
def parse (s : JsString) : Option Json := do
  let (j, rest) ← readValue number (s.length + 1) s
  if skipSpace rest = [] then pure j else none

/-! ## What is printed is read back -/

/-- A value a JSON text can stand for: its numbers are printed as they are kept, and its objects
have distinct keys, none of them an array index. -/
inductive Plain : Json → Prop where
  | null : Plain null
  | bool (b) : Plain (bool b)
  | num {text} : isNumber (text.map (·.toUInt16)) = true →
    (∀ b ∈ text, isNumberUnit b.toUInt16 = true) → number text = text → Plain (num text)
  | str (s) : Plain (str s)
  | arr {items} : (∀ j ∈ items, Plain j) → Plain (arr items)
  | obj {members} : (members.map (·.1)).Nodup → (∀ m ∈ members, arrayIndex m.1 = none) →
    (∀ m ∈ members, Plain m.2) → Plain (obj members)

/-- Distinct keys, each with a code unit that is no digit. -/
def areNames (keys : List JsString) : Bool :=
  decide keys.Nodup && keys.all fun key => key.any fun c => !isDigit c

/-- An object with such keys. -/
lemma Plain.of_names {number : List UInt8 → List UInt8} {members : List (JsString × Json)}
    (keys : List JsString) (hkeys : members.map (·.1) = keys) (h : areNames keys = true)
    (hvalues : ∀ m ∈ members, Plain number m.2) : Plain number (.obj members) := by
  simp only [areNames, Bool.and_eq_true, decide_eq_true_eq, List.all_eq_true, List.any_eq_true] at h
  subst hkeys
  refine .obj h.1 (fun m hm => ?_) hvalues
  obtain ⟨c, hc, hdigit⟩ := h.2 m.1 (List.mem_map_of_mem hm)
  have hne : m.1 ≠ natText (digitsValue m.1) := by
    intro heq
    rw [heq] at hc
    rw [isDigit_of_mem_natText hc] at hdigit
    cases hdigit
  simp only [arrayIndex, Bool.and_eq_true, decide_eq_true_eq, hne, false_and, if_false]

section Strings

/-- The value of a digit is the number it is printed for. -/
lemma hexDigitValue_hexDigit : ∀ n < 16, hexDigitValue (hexDigit n.toUInt16) = some n := by decide

/-- Four digits read as the code unit they are printed for. -/
lemma hexUnit_hexDigit (c : CodeUnit) :
    hexUnit (hexDigit (c >>> 12)) (hexDigit ((c >>> 8) &&& 0xF)) (hexDigit ((c >>> 4) &&& 0xF))
      (hexDigit (c &&& 0xF)) = some c := by
  have hlt := c.toNat_lt
  have hvalue (n : UInt16) (h : n.toNat < 16) : hexDigitValue (hexDigit n) = some n.toNat := by
    have := hexDigitValue_hexDigit n.toNat h
    rwa [show n.toNat.toUInt16 = n from UInt16.ofNat_toNat] at this
  have h12 : (c >>> 12).toNat = c.toNat / 4096 := by
    simp [UInt16.toNat_shiftRight, Nat.shiftRight_eq_div_pow]
  have h8 : ((c >>> 8) &&& 0xF).toNat = c.toNat / 256 % 16 := by
    simp [UInt16.toNat_shiftRight, Nat.shiftRight_eq_div_pow, Nat.and_two_pow_sub_one_eq_mod _ 4]
  have h4 : ((c >>> 4) &&& 0xF).toNat = c.toNat / 16 % 16 := by
    simp [UInt16.toNat_shiftRight, Nat.shiftRight_eq_div_pow, Nat.and_two_pow_sub_one_eq_mod _ 4]
  have h0 : (c &&& 0xF).toNat = c.toNat % 16 := by
    simp [Nat.and_two_pow_sub_one_eq_mod _ 4]
  rw [hexUnit, hvalue _ (by omega), hvalue _ (by omega), hvalue _ (by omega), hvalue _ (by omega)]
  simp only [Option.bind_eq_bind, Option.bind_some, Option.pure_def, Option.some.injEq]
  apply UInt16.toNat_inj.mp
  rw [Nat.toUInt16, UInt16.toNat_ofNat', h12, h8, h4, h0]
  omega

/-- A string ends at its quote. -/
lemma readString_quote (s : JsString) : readString (0x22 :: s) = some ([], s) := by
  rw [readString.eq_def]
  simp only [if_true]

/-- A backslash and a letter are read as what they stand for. -/
lemma readString_escaped {c u : CodeUnit} (hc : c ≠ 0x75) (h : escaped c = some u) (s : JsString) :
    readString (0x5C :: c :: s) = (readString s).map (Prod.map (u :: ·) id) := by
  rw [readString.eq_def]
  simp only [if_neg (by decide : (0x5C : UInt16) ≠ 0x22), if_true, if_neg hc, h]

/-- A code unit that needs no escape is read as itself. -/
lemma readString_cons {c : CodeUnit} (hquote : c ≠ 0x22) (hslash : c ≠ 0x5C) (hctl : ¬ c < 0x20)
    (s : JsString) : readString (c :: s) = (readString s).map (Prod.map (c :: ·) id) := by
  rw [readString.eq_def]
  simp only [if_neg hquote, if_neg hslash, if_neg hctl]

/-- A numbered escape is read as the code unit it is printed for. -/
lemma readString_unicodeEscape (c : CodeUnit) (s : JsString) :
    readString (unicodeEscape c ++ s) = (readString s).map (Prod.map (c :: ·) id) := by
  have hu : unicodeEscape c ++ s = 0x5C :: 0x75 :: hexDigit (c >>> 12) ::
      hexDigit ((c >>> 8) &&& 0xF) :: hexDigit ((c >>> 4) &&& 0xF) :: hexDigit (c &&& 0xF) :: s := rfl
  rw [hu, readString.eq_def]
  simp only [if_neg (by decide : (0x5C : UInt16) ≠ 0x22), if_true, hexUnit_hexDigit]

/-- A code unit is read back however it is quoted. -/
lemma readString_quoteUnit (c : CodeUnit) (s : JsString) :
    readString (quoteUnit c ++ s) = (readString s).map (Prod.map (c :: ·) id) := by
  unfold quoteUnit
  split_ifs with hquote hslash hb ht hn hf hr hu
  · subst hquote
    exact readString_escaped (by decide) (by decide) s
  · subst hslash
    exact readString_escaped (by decide) (by decide) s
  · subst hb
    exact readString_escaped (c := 0x62) (by decide) (by decide) s
  · subst ht
    exact readString_escaped (c := 0x74) (by decide) (by decide) s
  · subst hn
    exact readString_escaped (c := 0x6E) (by decide) (by decide) s
  · subst hf
    exact readString_escaped (c := 0x66) (by decide) (by decide) s
  · subst hr
    exact readString_escaped (c := 0x72) (by decide) (by decide) s
  · exact readString_unicodeEscape c s
  · simp only [Bool.or_eq_true, decide_eq_true_eq, not_or] at hu
    exact readString_cons hquote hslash hu.1.1 s

/-- A surrogate is read as itself. -/
lemma readString_surrogate {c : CodeUnit} (h : 0xD800 ≤ c) (s : JsString) :
    readString (c :: s) = (readString s).map (Prod.map (c :: ·) id) := by
  have hle := UInt16.le_iff_toNat_le.mp h
  have hval : (0xD800 : UInt16).toNat = 55296 := rfl
  refine readString_cons ?_ ?_ ?_ s
  · rintro rfl
    exact absurd h (by decide)
  · rintro rfl
    exact absurd h (by decide)
  · intro hlt
    have := UInt16.lt_iff_toNat_lt.mp hlt
    have hctl : (0x20 : UInt16).toNat = 32 := rfl
    omega

/-- A quoted string is read back. -/
lemma readString_quoteBody (s rest : JsString) :
    readString (quoteBody s ++ 0x22 :: rest) = some (s, rest) := by
  induction s using quoteBody.induct with
  | case1 => exact readString_quote rest
  | case2 c =>
    rw [quoteBody, readString_quoteUnit, readString_quote]
    rfl
  | case3 c d s hpair ih =>
    have hsurrogates := hpair
    simp only [isHighSurrogate, isLowSurrogate, Bool.and_eq_true, decide_eq_true_eq] at hsurrogates
    obtain ⟨⟨hc, -⟩, hd, -⟩ := hsurrogates
    have hd' : (0xD800 : UInt16) ≤ d := UInt16.le_trans (by decide) hd
    rw [quoteBody, if_pos hpair, List.cons_append, List.cons_append, readString_surrogate hc,
      readString_surrogate hd', ih]
    rfl
  | case4 c d s hpair ih =>
    rw [quoteBody, if_neg hpair, List.append_assoc, readString_quoteUnit, ih]
    rfl

end Strings

section Values
variable {number : List UInt8 → List UInt8}

/-- What follows a value does not go on with a number. -/
def Stops (s : JsString) : Prop := ∀ c ∈ s.head?, isNumberUnit c = false

/-- A number stops before what cannot continue it. -/
lemma stops_cons {c : CodeUnit} (s : JsString) (h : isNumberUnit c = false) : Stops (c :: s) := by
  rintro d ⟨⟩
  exact h

variable (number) in
/-- The text of the value is read back, given the fuel. -/
def ReadBack (j : Json) : Prop := ∀ fuel rest, (stringify j).length < fuel → Stops rest →
  readValue number fuel (stringify j ++ rest) = some (j, rest)

/-- What is expected is skipped. -/
lemma expect_cons (c : CodeUnit) (s : JsString) (h : isJsonSpace c = false) :
    expect c (c :: s) = some s := by
  simp [expect, skipSpace, h]

/-- Anything else is not. -/
lemma expect_cons_ne {c d : CodeUnit} (s : JsString) (h : isJsonSpace d = false) (hne : d ≠ c) :
    expect c (d :: s) = none := by
  simp [expect, skipSpace, h, hne]

/-- A value starts with no white space and no closing bracket. -/
lemma Plain.head {j : Json} (h : Plain number j) : ∃ c s, stringify j = c :: s ∧
    isJsonSpace c = false ∧ c ≠ 0x5D ∧ c ≠ 0x7D := by
  cases h with
  | null => exact ⟨_, _, rfl, rfl, by decide, by decide⟩
  | bool b => cases b <;> exact ⟨_, _, rfl, rfl, by decide, by decide⟩
  | str | arr | obj => exact ⟨_, _, rfl, rfl, by decide, by decide⟩
  | @num text hnum hunits _ =>
    cases text with
    | nil => exact absurd hnum (by decide)
    | cons b text =>
      have hb := hunits b List.mem_cons_self
      refine ⟨b.toUInt16, text.map (·.toUInt16), rfl, ?_, ?_, ?_⟩
      · by_contra hspace
        simp only [isJsonSpace, Bool.not_eq_false, Bool.or_eq_true, decide_eq_true_eq] at hspace
        obtain ((h | h) | h) | h := hspace <;> rw [h] at hb <;> exact absurd hb (by decide)
      · intro h
        rw [h] at hb
        exact absurd hb (by decide)
      · intro h
        rw [h] at hb
        exact absurd hb (by decide)

/-- A number is read back when its text is one. -/
lemma readBack_num {text : List UInt8} (hnum : isNumber (text.map (·.toUInt16)) = true)
    (hunits : ∀ b ∈ text, isNumberUnit b.toUInt16 = true) (hprint : number text = text) :
    ReadBack number (.num text) := by
  intro fuel rest hfuel hrest
  obtain ⟨fuel, rfl⟩ := Nat.exists_eq_succ_of_ne_zero (by omega : fuel ≠ 0)
  obtain ⟨c, s, htext, hspace, -⟩ := (Plain.num hnum hunits hprint).head
  have htoken : ∀ c ∈ text.map (·.toUInt16), isNumberUnit c = true := by
    simpa using hunits
  have hc : isNumberUnit c = true := htoken c (by rw [show text.map _ = _ from htext]; simp)
  have htake : rest.takeWhile isNumberUnit = [] := by
    cases rest with
    | nil => rfl
    | cons d rest => simp [hrest d rfl]
  have hdrop : rest.dropWhile isNumberUnit = rest := by
    cases rest with
    | nil => rfl
    | cons d rest => simp [hrest d rfl]
  have hread : readNumber number (stringify (.num text) ++ rest) = some (.num text, rest) := by
    rw [stringify, readNumber, List.takeWhile_append_of_pos htoken, List.dropWhile_append_of_pos htoken,
      htake, hdrop, List.append_nil, if_pos hnum, List.map_map]
    have hbytes : (text.map ((·.toUInt8) ∘ (·.toUInt16))) = text := by
      conv_rhs => rw [← List.map_id text]
      exact List.map_congr_left fun b _ => by simp
    rw [hbytes, hprint]
  rw [htext] at hread ⊢
  have hne (d : CodeUnit) (hd : isNumberUnit d = false) : c ≠ d := by
    rintro rfl
    rw [hc] at hd
    cases hd
  rw [List.cons_append, readValue, skipSpace, List.dropWhile_cons, hspace]
  simp only [Bool.false_eq_true, if_false, if_neg (hne 0x22 rfl), if_neg (hne 0x5B rfl),
    if_neg (hne 0x7B rfl), if_pos hc]
  exact hread

/-- The items of an array are read back when each of them is. -/
lemma readItems_stringifyItems {items : List Json} (hne : items ≠ [])
    (h : ∀ j ∈ items, ReadBack number j) {fuel : Nat} (rest : JsString)
    (hfuel : (stringifyItems items).length + 1 < fuel) :
    readItems number fuel (stringifyItems items ++ 0x5D :: rest) = some (items, rest) := by
  induction items generalizing fuel with
  | nil => exact absurd rfl hne
  | cons j items ih =>
    obtain ⟨fuel, rfl⟩ := Nat.exists_eq_succ_of_ne_zero (by omega : fuel ≠ 0)
    have hj := h j List.mem_cons_self
    cases items with
    | nil =>
      rw [stringifyItems] at hfuel ⊢
      rw [readItems, hj fuel _ (by omega) (stops_cons rest rfl)]
      simp only [Option.bind_eq_bind, Option.bind_some, expect_cons_ne (d := 0x5D) rest rfl
        (by decide : (0x5D : UInt16) ≠ 0x2C), expect_cons 0x5D rest rfl]
      rfl
    | cons k items =>
      rw [stringifyItems] at hfuel ⊢
      simp only [List.length_append, List.length_cons] at hfuel
      rw [List.append_assoc, List.cons_append, readItems, hj fuel _ (by omega) (stops_cons _ rfl)]
      simp only [Option.bind_eq_bind, Option.bind_some, expect_cons 0x2C _ rfl]
      rw [ih (by simp) (fun j hj => h j (List.mem_cons_of_mem _ hj)) (by omega)]
      rfl

/-- The members of an object are read back when the value of each of them is. -/
lemma readMembers_stringifyMembers {members : List (JsString × Json)} (hne : members ≠ [])
    (h : ∀ m ∈ members, ReadBack number m.2) {fuel : Nat} (rest : JsString)
    (hfuel : (stringifyMembers members).length + 1 < fuel) :
    readMembers number fuel (stringifyMembers members ++ 0x7D :: rest) = some (members, rest) := by
  induction members generalizing fuel with
  | nil => exact absurd rfl hne
  | cons m members ih =>
    obtain ⟨key, j⟩ := m
    obtain ⟨fuel, rfl⟩ := Nat.exists_eq_succ_of_ne_zero (by omega : fuel ≠ 0)
    have hj : ReadBack number j := h (key, j) List.mem_cons_self
    have hkey (s : JsString) : quote key ++ s = 0x22 :: (quoteBody key ++ 0x22 :: s) := by
      simp [quote]
    cases members with
    | nil =>
      rw [stringifyMembers] at hfuel ⊢
      simp only [List.length_append, List.length_cons] at hfuel
      rw [List.append_assoc, hkey, readMembers, expect_cons 0x22 _ rfl]
      simp only [Option.bind_eq_bind, Option.bind_some, readString_quoteBody, List.cons_append,
        expect_cons 0x3A _ rfl]
      rw [hj fuel _ (by omega) (stops_cons rest rfl)]
      simp only [Option.bind_some, expect_cons_ne (d := 0x7D) rest rfl
        (by decide : (0x7D : UInt16) ≠ 0x2C), expect_cons 0x7D rest rfl]
      rfl
    | cons k members =>
      rw [stringifyMembers] at hfuel ⊢
      simp only [List.length_append, List.length_cons] at hfuel
      rw [List.append_assoc, List.append_assoc, hkey, readMembers, expect_cons 0x22 _ rfl]
      simp only [Option.bind_eq_bind, Option.bind_some, readString_quoteBody, List.cons_append,
        expect_cons 0x3A _ rfl]
      rw [hj fuel _ (by omega) (stops_cons _ rfl)]
      simp only [Option.bind_some, expect_cons 0x2C _ rfl]
      rw [ih (by simp) (fun m hm => h m (List.mem_cons_of_mem _ hm)) (by omega)]
      rfl

/-- Setting distinct properties, none an array index, keeps them in order. -/
lemma foldl_setProperty {acc members : List (JsString × Json)}
    (hnodup : ((acc ++ members).map (·.1)).Nodup) (hindex : ∀ m ∈ members, arrayIndex m.1 = none) :
    members.foldl setProperty acc = acc ++ members := by
  induction members generalizing acc with
  | nil => simp
  | cons m members ih =>
    have hnew : acc.any (·.1 = m.1) = false := by
      rw [List.any_eq_false]
      intro old hold
      rw [List.map_append, List.nodup_append] at hnodup
      simpa using hnodup.2.2 _ (List.mem_map_of_mem hold) m.1 (by simp)
    have hset : setProperty acc m = acc ++ [m] := by
      simp only [setProperty, hnew, Bool.false_eq_true, if_false, hindex m List.mem_cons_self]
    have hassoc : acc ++ m :: members = acc ++ [m] ++ members := by simp
    rw [hassoc] at hnodup ⊢
    rw [List.foldl_cons, hset, ih hnodup fun m hm => hindex m (List.mem_cons_of_mem _ hm)]

/-- An array is read back when its items are. -/
lemma readBack_arr {items : List Json} (hplain : ∀ j ∈ items, Plain number j)
    (h : ∀ j ∈ items, ReadBack number j) : ReadBack number (.arr items) := by
  intro fuel rest hfuel _
  obtain ⟨fuel, rfl⟩ := Nat.exists_eq_succ_of_ne_zero (by omega : fuel ≠ 0)
  have htext : stringify (.arr items) ++ rest = 0x5B :: (stringifyItems items ++ 0x5D :: rest) := by
    simp [stringify]
  rw [htext, readValue]
  simp only [skipSpace, List.dropWhile_cons, show isJsonSpace 0x5B = false from rfl,
    Bool.false_eq_true, if_false, if_neg (by decide : (0x5B : UInt16) ≠ 0x22), if_true]
  cases items with
  | nil => rfl
  | cons j items =>
    obtain ⟨c, s, hc, hspace, hclose, -⟩ := (hplain j List.mem_cons_self).head
    have hstart : ∃ s, stringifyItems (j :: items) = c :: s := by
      cases items with
      | nil => exact ⟨s, by rw [stringifyItems, hc]⟩
      | cons k items => exact ⟨_, by rw [stringifyItems, hc, List.cons_append]⟩
    obtain ⟨s, hs⟩ := hstart
    simp only [stringify, List.length_append, List.length_cons, List.length_nil] at hfuel
    have hread : readItems number fuel _ = _ :=
      readItems_stringifyItems (List.cons_ne_nil j items) h rest (by omega)
    have hopen : expect 0x5D (stringifyItems (j :: items) ++ 0x5D :: rest) = none := by
      rw [hs, List.cons_append]
      exact expect_cons_ne _ hspace hclose
    rw [hopen, hread]
    rfl

/-- An object is read back when its values are, in property order. -/
lemma readBack_obj {members : List (JsString × Json)} (hnodup : (members.map (·.1)).Nodup)
    (hindex : ∀ m ∈ members, arrayIndex m.1 = none) (h : ∀ m ∈ members, ReadBack number m.2) :
    ReadBack number (.obj members) := by
  intro fuel rest hfuel _
  obtain ⟨fuel, rfl⟩ := Nat.exists_eq_succ_of_ne_zero (by omega : fuel ≠ 0)
  have htext : stringify (.obj members) ++ rest =
      0x7B :: (stringifyMembers members ++ 0x7D :: rest) := by
    simp [stringify]
  rw [htext, readValue]
  simp only [skipSpace, List.dropWhile_cons, show isJsonSpace 0x7B = false from rfl,
    Bool.false_eq_true, if_false, if_neg (by decide : (0x7B : UInt16) ≠ 0x22),
    if_neg (by decide : (0x7B : UInt16) ≠ 0x5B), if_true]
  cases members with
  | nil => rfl
  | cons m members =>
    have hstart : ∃ s, stringifyMembers (m :: members) = 0x22 :: s := by
      cases members with
      | nil => exact ⟨_, rfl⟩
      | cons k members => exact ⟨_, rfl⟩
    obtain ⟨s, hs⟩ := hstart
    simp only [stringify, List.length_append, List.length_cons, List.length_nil] at hfuel
    have hread : readMembers number fuel _ = _ :=
      readMembers_stringifyMembers (List.cons_ne_nil m members) h rest (by omega)
    have hopen : expect 0x7D (stringifyMembers (m :: members) ++ 0x7D :: rest) = none := by
      rw [hs, List.cons_append]
      exact expect_cons_ne _ rfl (by decide)
    have hset : (m :: members).foldl setProperty [] = [] ++ m :: members :=
      foldl_setProperty hnodup hindex
    rw [hopen, hread]
    simp only [Option.map_some, hset, List.nil_append]

/-- A plain value is read back. -/
lemma Plain.readBack {j : Json} (h : Plain number j) : ReadBack number j := by
  induction h with
  | num hnum hunits hprint => exact readBack_num hnum hunits hprint
  | arr hplain ih => exact readBack_arr hplain ih
  | obj hnodup hindex _ ih => exact readBack_obj hnodup hindex ih
  | null =>
    intro fuel rest hfuel _
    obtain ⟨fuel, rfl⟩ := Nat.exists_eq_succ_of_ne_zero (by omega : fuel ≠ 0)
    rfl
  | bool b =>
    intro fuel rest hfuel _
    obtain ⟨fuel, rfl⟩ := Nat.exists_eq_succ_of_ne_zero (by omega : fuel ≠ 0)
    cases b <;> rfl
  | str s =>
    intro fuel rest hfuel _
    obtain ⟨fuel, rfl⟩ := Nat.exists_eq_succ_of_ne_zero (by omega : fuel ≠ 0)
    have htext : stringify (.str s) ++ rest = 0x22 :: (quoteBody s ++ 0x22 :: rest) := by
      simp [stringify, quote]
    rw [htext, readValue]
    simp only [skipSpace, List.dropWhile_cons, show isJsonSpace 0x22 = false from rfl,
      Bool.false_eq_true, if_false, if_true, readString_quoteBody]
    rfl

/-- `JSON.parse` reads back what `JSON.stringify` prints. -/
lemma parse_stringify {j : Json} (h : Plain number j) : parse number (stringify j) = some j := by
  have hread := h.readBack ((stringify j).length + 1) [] (Nat.lt_succ_self _) (by rintro c ⟨⟩)
  rw [List.append_nil] at hread
  rw [parse, hread]
  rfl

end Values

end Json

/-- The platform's `JSON.parse` reads texts as `Json.parse` does. -/
def Platform.ReadsJson (P : Platform) (number : List UInt8 → List UInt8) : Prop :=
  ∀ s j, Json.parse number s = some j → P.parseJson s = .ok j

/-- A platform that reads JSON, and prints numbers as it read them. -/
def Platform.json : Platform :=
  { Platform.plain with
    parseJson := fun s =>
      match Json.parse id s with
      | some j => .ok j
      | none => .error { name := js "SyntaxError", message := js "Unexpected token in JSON" } }

/-- The sample platform reads what it prints. -/
lemma Platform.json_readsJson : Platform.json.ReadsJson id := by
  intro s j h
  simp [Platform.json, h]

end Js
