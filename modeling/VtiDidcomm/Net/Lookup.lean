import VtiDidcomm.Effect.Trace
import VtiDidcomm.Js.OrderedMap
import VtiDidcomm.Net.IpClass
import VtiDidcomm.Net.Narrowing

/-!
# The lookup guard

`net-guard-node.js`: what a host name resolves to is checked when a socket is opened.
`guardedLookup` asks the resolver once, for every address, and hands over what it answered or
nothing. Beside `assertSafeEndpoint`, which judges the URL, it leaves only public addresses to be
dialed (`Dials.isPublic`).
-/

namespace VtiDidcomm
open Js Effect

/-- An address a resolver answers with. -/
structure LookupAddress where
  address : JsString
  family : Nat

/-- The `options` of a lookup: nothing, also where the callback stands in their place, a family, by
the bytes of its number, or an object. -/
inductive LookupOptions where
  | absent
  | family (text : List UInt8)
  | object (members : OrderedMap JsString Json)

/-- What the options come to. -/
def LookupOptions.members : LookupOptions → OrderedMap JsString Json
  | absent => .empty
  | family text => OrderedMap.empty.set (js "family") (.num text)
  | object members => members

/-- What a resolver is asked. -/
structure LookupQuery where
  hostname : JsString
  options : OrderedMap JsString Json

/-- What it answers: an error, or its addresses if they are an array, in which there can be holes. -/
abbrev LookupAnswer := Except JsError (Option (List (Option LookupAddress)))

/-- A program that asks a resolver, and calls back with an error or a value. -/
abbrev Lookup := ExceptT JsError (Prog LookupQuery LookupAnswer)

/-- What a socket is called back with: every address, or the first. -/
inductive Handed where
  | all (addresses : List (Option LookupAddress))
  | first (address : LookupAddress)

/-- The addresses a socket may be connected to. -/
def Handed.addresses : Handed → List (Option LookupAddress)
  | all addresses => addresses
  | first address => [some address]

/-- The `policy` of a lookup, less the resolver. -/
structure LookupPolicy where
  allowPrivate : Bool := false
  label : JsString := js "endpoint"

/-- `isBlockedIp(String(a?.address))` -/
def isBlockedAnswer (a : Option LookupAddress) : Bool :=
  isBlockedIp ((a.map LookupAddress.address).getD (js "undefined"))

/-- What refuses a name: the first blocked entry, unless it is a hole, which is no address to
report. -/
def refusedAnswer (list : List (Option LookupAddress)) : Option LookupAddress :=
  (list.find? isBlockedAnswer).join

/-- The addresses that passed, as `options.all` wants them. -/
def handOver (all : Bool) (list : List (Option LookupAddress)) : Except JsError Handed :=
  if all then .ok (.all list)
  else match list.head?.join with
    | some address => .ok (.first address)
    | none => .error (typeError (js "Cannot read properties of null (reading 'address')"))

/-- The callback of the resolver, once it has answered without an error. -/
def lookupAnswered (policy : LookupPolicy) (hostname : JsString) (all : Bool)
    (addresses : Option (List (Option LookupAddress))) : Except JsError Handed :=
  let list := addresses.getD []
  if list.isEmpty then
    .error
      { error (js "net-guard: " ++ hostname ++ js " resolved to no addresses") with
        code := some (js "ENOTFOUND") }
  else
    match if policy.allowPrivate then none else refusedAnswer list with
    | some bad =>
      .error (blocked (js "net-guard: " ++ policy.label ++ js " host " ++ hostname ++
        js " refused: it resolves to non-public address " ++ bad.address) (js "private_address")
        policy.label [(js "host", hostname)])
    | none => handOver all list

/-- The question of a lookup: the caller's options, but for every address. -/
def lookupQuery (hostname : JsString) (options : LookupOptions) : LookupQuery :=
  ⟨hostname, options.members.set (js "all") (.bool true)⟩

/-- Whether the caller wants every address. -/
def LookupOptions.wantsAll (options : LookupOptions) : Bool :=
  Json.truthy (options.members.get (js "all"))

/-- `netGuardedLookup`, the function `guardedLookup` returns. -/
def netGuardedLookup (policy : LookupPolicy) (hostname : JsString) (options : LookupOptions) :
    Lookup Handed := do
  let addresses ← ExceptT.mk (Prog.ask (lookupQuery hostname options))
  ExceptT.mk (pure (lookupAnswered policy hostname options.wantsAll addresses))

/-! ## What is handed over -/

variable {policy : LookupPolicy} {hostname : JsString} {options : LookupOptions} {all : Bool}

/-- A lookup is one question, and what becomes of its answer. -/
lemma runs_netGuardedLookup {tr : List (LookupQuery × LookupAnswer)} {r : Except JsError Handed} :
    Prog.Runs (netGuardedLookup policy hostname options).run tr r ↔
      ∃ answer, tr = [(lookupQuery hostname options, answer)] ∧
        answer.bind (lookupAnswered policy hostname options.wantsAll) = r := by
  unfold netGuardedLookup
  rw [Prog.run_bind, Prog.runs_bind]
  constructor
  · rintro ⟨answer, tr₁, tr₂, rfl, hask, h⟩
    cases Prog.runs_ask.mp hask
    cases answer with
    | error err =>
      obtain ⟨rfl, rfl⟩ := Prog.runs_pure.mp h
      exact ⟨_, rfl, rfl⟩
    | ok addresses =>
      obtain ⟨rfl, rfl⟩ := Prog.runs_pure.mp h
      exact ⟨_, rfl, rfl⟩
  · rintro ⟨answer, rfl, rfl⟩
    refine ⟨answer, _, [], rfl, Prog.runs_ask.mpr rfl, ?_⟩
    cases answer <;> exact Prog.runs_pure.mpr ⟨rfl, rfl⟩

/-- The addresses that are handed over were looked up. -/
lemma handOver_subset {list : List (Option LookupAddress)} {handed : Handed}
    (h : handOver all list = .ok handed) : handed.addresses ⊆ list := by
  unfold handOver at h
  split at h
  · cases h
    exact List.Subset.refl _
  · split at h
    · rename_i address hfirst
      cases h
      rw [Option.join_eq_some_iff] at hfirst
      intro a ha
      cases List.mem_singleton.mp ha
      exact List.mem_of_mem_head? hfirst
    · cases h

/-- The first address of a list can be handed over. -/
lemma exists_handOver {answers : List LookupAddress} (h : answers ≠ []) :
    ∃ handed, handOver all (answers.map some) = .ok handed := by
  obtain ⟨first, rest, rfl⟩ := List.exists_cons_of_ne_nil h
  cases all <;> exact ⟨_, rfl⟩

/-- A lookup hands over what was answered, if there is something and nothing refuses it. -/
lemma lookupAnswered_eq_ok {addresses : Option (List (Option LookupAddress))} {handed : Handed} :
    lookupAnswered policy hostname all addresses = .ok handed ↔
      ∃ list, addresses = some list ∧ list ≠ [] ∧
        (policy.allowPrivate = true ∨ refusedAnswer list = none) ∧ handOver all list = .ok handed := by
  unfold lookupAnswered
  cases addresses with
  | none => simp
  | some list =>
    cases list with
    | nil => simp
    | cons a rest =>
      cases policy.allowPrivate with
      | true => simp
      | false => cases hr : refusedAnswer (a :: rest) <;> simp [hr]

/-- What refuses a name that resolves to addresses is the guard. -/
lemma isBlockedError_of_lookupAnswered {answers : List LookupAddress} {err : JsError}
    (hne : answers ≠ [])
    (h : lookupAnswered policy hostname all (some (answers.map some)) = .error err) :
    isBlockedError err = true := by
  obtain ⟨handed, hhanded⟩ := @exists_handOver all answers hne
  obtain ⟨first, rest, rfl⟩ := List.exists_cons_of_ne_nil hne
  unfold lookupAnswered at h
  simp only [Option.getD_some, List.map_cons, List.isEmpty_cons, Bool.false_eq_true, if_false] at h
  split at h
  · cases h
    rfl
  · cases hhanded.symm.trans h

/-! ## Public addresses -/

/-- The text of a public address. -/
def IsPublicAddress (s : JsString) : Prop :=
  (∃ n, IsV4Literal s n ∧ IsPublicV4 n) ∨ ∃ v, IsV6Literal s v ∧ IsPublicV6 v

/-- A public address is one that is not blocked. -/
lemma isPublicAddress_iff {s : JsString} : IsPublicAddress s ↔ isBlockedIp s = false := by
  constructor
  · rintro (⟨n, hn, hpublic⟩ | ⟨v, hv, hpublic⟩)
    · exact (isBlockedIp_of_v4 hn).mpr hpublic
    · exact (isBlockedIp_of_v6 hv).mpr hpublic
  · intro h
    cases literal_of_not_blocked h with
    | inl hv4 =>
      obtain ⟨n, hn⟩ := hv4
      exact .inl ⟨n, hn, (isBlockedIp_of_v4 hn).mp h⟩
    | inr hv6 =>
      obtain ⟨v, hv⟩ := hv6
      exact .inr ⟨v, hv, (isBlockedIp_of_v6 hv).mp h⟩

/-- Nothing refuses a list without holes when its addresses are public. -/
lemma refusedAnswer_eq_none {list : List (Option LookupAddress)} (h : none ∉ list) :
    refusedAnswer list = none ↔ ∀ a, some a ∈ list → IsPublicAddress a.address := by
  rw [refusedAnswer, Option.join_eq_none_iff]
  constructor
  · rintro (hfind | hfind) a ha
    · exact isPublicAddress_iff.mpr (eq_false_of_ne_true (List.find?_eq_none.mp hfind (some a) ha))
    · exact absurd (List.mem_of_find?_eq_some hfind) h
  · intro hpublic
    refine .inl (List.find?_eq_none.mpr fun entry hentry => ?_)
    cases entry with
    | none => exact absurd hentry h
    | some a => exact ne_true_of_eq_false (isPublicAddress_iff.mp (hpublic a hentry))

section Answers
variable {answers : List LookupAddress} {r : Except JsError Handed} (hne : answers ≠ [])
  (run : Prog.Runs (netGuardedLookup policy hostname options).run
    [(lookupQuery hostname options, .ok (some (answers.map some)))] r)
include hne run

/-- Public addresses are handed over. -/
lemma handed_of_public (h : ∀ a ∈ answers, IsPublicAddress a.address) :
    ∃ handed, r = .ok handed ∧ handOver options.wantsAll (answers.map some) = .ok handed := by
  obtain ⟨answer, htr, hanswered⟩ := runs_netGuardedLookup.mp run
  cases htr
  obtain ⟨handed, hhanded⟩ := @exists_handOver options.wantsAll answers hne
  refine ⟨handed, ?_, hhanded⟩
  have hrefused : refusedAnswer (answers.map some) = none :=
    (refusedAnswer_eq_none (by simp)).mpr (by simpa using h)
  rw [← hanswered]
  exact lookupAnswered_eq_ok.mpr ⟨_, rfl, by simpa using hne, .inr hrefused, hhanded⟩

/-- A name with an address that is not public is refused. -/
lemma refused_of_not_public (hp : policy.allowPrivate = false) (a : LookupAddress)
    (ha : a ∈ answers) (hpublic : ¬ IsPublicAddress a.address) :
    ∃ err, r = .error err ∧ isBlockedError err = true := by
  obtain ⟨answer, htr, hanswered⟩ := runs_netGuardedLookup.mp run
  cases htr
  cases r with
  | error err => exact ⟨err, rfl, isBlockedError_of_lookupAnswered hne hanswered⟩
  | ok handed =>
    obtain ⟨list, hlist, -, hrefused, -⟩ := lookupAnswered_eq_ok.mp hanswered
    cases hlist
    have hnone := hrefused.resolve_left (by simp [hp])
    have hall := (refusedAnswer_eq_none (by simp)).mp hnone
    exact absurd (hall a (List.mem_map_of_mem ha)) hpublic

end Answers

/-- The addresses a socket to the host of a URL is connected to: the literal that the host is, or
one that the lookup of its name hands over, whatever the resolver answers without holes. -/
inductive Dials (pf : Platform) (policy : LookupPolicy) (u : Url) : JsString → Prop where
  | literal : IsIpLiteral (canonicalHost pf u.hostname) →
    Dials pf policy u (canonicalHost pf u.hostname)
  | named {options list handed a} :
    Prog.Runs (netGuardedLookup policy u.hostname options).run
      [(lookupQuery u.hostname options, .ok (some list))] (.ok handed) →
    none ∉ list → some a ∈ handed.addresses → Dials pf policy u a.address

/-- The guard of the URL and the guard of the lookup leave public addresses to be dialed. -/
lemma Dials.isPublic {pf : Platform} {u : Url} {address : JsString}
    (h : Dials pf policy u address) (hopen : HasOpenHost pf false u) (hh : IsHostname u.hostname)
    (hp : policy.allowPrivate = false) : IsPublicAddress address := by
  cases h with
  | literal hlit => exact isPublicAddress_iff.mpr ((hopen.isPublicHost hh).literal hlit)
  | named hrun hholes ha =>
    obtain ⟨answer, htr, hanswered⟩ := runs_netGuardedLookup.mp hrun
    cases htr
    obtain ⟨list, hlist, -, hrefused, hhanded⟩ := lookupAnswered_eq_ok.mp hanswered
    cases hlist
    have hnone := hrefused.resolve_left (by simp [hp])
    exact (refusedAnswer_eq_none hholes).mp hnone _ (handOver_subset hhanded ha)

end VtiDidcomm
