import VtiDidcomm.Js.Json

/-!
# Thrown values

What a JavaScript function throws, with the fields a caller branches on, and the conversions of
`String(v)` that error texts and identifiers use. The class of a thrown error is its `name`; what a
subclass adds (the `reason` and `host` of a refusal, the `status` of a response) is in `details`.
-/

namespace Js

/-- A thrown error: its class, its message and its `code`. -/
structure JsError where
  name : JsString
  message : JsString
  code : Option JsString := none
  details : List (JsString × JsString) := []
  deriving Repr, DecidableEq

/-- `new Error(message)` -/
def error (message : JsString) : JsError := { name := js "Error", message := message }

/-- `new TypeError(message)` -/
def typeError (message : JsString) : JsError := { name := js "TypeError", message := message }

/-- `new RangeError(message)` -/
def rangeError (message : JsString) : JsError := { name := js "RangeError", message := message }

/-- What a function of the platform or of a library throws: an exception without a `code` that is a
string. -/
structure Exception where
  name : JsString
  message : JsString

/-- A call of such a function. -/
def raised {α : Type} : Except Exception α → Except JsError α
  | .ok a => .ok a
  | .error e => .error { name := e.name, message := e.message }

@[simp] lemma raised_ok {α : Type} (a : α) : raised (.ok a) = .ok a := rfl

/-- A call that throws nothing returned what it returned. -/
lemma raised_eq_ok {α : Type} {x : Except Exception α} {a : α} : raised x = .ok a ↔ x = .ok a := by
  cases x with
  | error e => simp [raised]
  | ok b => simp [raised]

/-- `if (!c) throw err` -/
def require (c : Prop) [Decidable c] (err : JsError) : Except JsError Unit :=
  if c then .ok () else .error err

/-- Nothing is thrown exactly when the condition holds. -/
@[simp] lemma require_eq_ok {c : Prop} [Decidable c] {err : JsError} {u : Unit} :
    require c err = .ok u ↔ c := by
  unfold require
  split <;> simp_all

/-- A condition that holds throws nothing. -/
lemma require_of {c : Prop} [Decidable c] {err : JsError} (h : c) : require c err = .ok () := by
  simp [h]

/-- Two steps return when the first does and the second does on its value. -/
lemma bind_eq_ok {ε α β : Type} {x : Except ε α} {f : α → Except ε β} {b : β} :
    x >>= f = .ok b ↔ ∃ a, x = .ok a ∧ f a = .ok b := by
  cases x with
  | error e => simp [bind, Except.bind]
  | ok a => simp [bind, Except.bind]

@[simp] lemma ok_bind {ε α β : Type} (a : α) (f : α → Except ε β) : (.ok a >>= f) = f a := rfl

/-- What did not throw returned a value. -/
lemma exists_of_isOk {ε α : Type} {x : Except ε α} (h : x.isOk = true) : ∃ a, x = .ok a := by
  cases x with
  | error e => cases h
  | ok a => exact ⟨a, rfl⟩

/-- The values of a `map` that does not throw are those of its items. -/
lemma mem_of_mapM_eq_ok {ε α β : Type} {f : α → Except ε β} {l : List α} {bs : List β}
    (h : l.mapM f = .ok bs) (b : β) : b ∈ bs ↔ ∃ a ∈ l, f a = .ok b := by
  induction l generalizing bs with
  | nil =>
    cases h
    simp
  | cons a l ih =>
    rw [List.mapM_cons] at h
    obtain ⟨b', hb', h⟩ := bind_eq_ok.mp h
    obtain ⟨bs', hbs', h⟩ := bind_eq_ok.mp h
    cases h
    simp [ih hbs', hb', eq_comm]

namespace Json

mutual
/-- `String(j)` -/
def toStr : Json → JsString
  | null => js "null"
  | bool b => if b then js "true" else js "false"
  | num text => text.map (·.toUInt16)
  | str s => s
  | arr items => joinStr items
  | obj _ => js "[object Object]"
/-- `items.join(",")`: a `null` item prints as nothing. -/
def joinStr : List Json → JsString
  | [] => []
  | j :: items =>
    let head := match j with
      | null => []
      | j => toStr j
    if items.isEmpty then head else head ++ js "," ++ joinStr items
end

/-- `String(v)` of a value that may be `undefined`. -/
def toStrOpt : Option Json → JsString
  | none => js "undefined"
  | some j => toStr j

end Json

end Js
