import VtiDidcomm.Did.Scid
import VtiDidcomm.Js.Error
import VtiDidcomm.Js.OrderedMap
import VtiDidcomm.Lts.Run

/-!
# The did:scid source book

`createScidSourceBook`: for each did:scid identity, where its log was last found and the latest
version verified for it, bounded by dropping the oldest identity. `accept_cases` and
`addSource_cases` say once what the two operations do; that a recorded version never goes backwards
(`SourceBook.run_version`) is read off from them.
-/

namespace VtiDidcomm
open Js

/-- A verified version: its number and its id. -/
structure Version (N : Type*) where
  number : N
  id : JsString
  deriving DecidableEq

/-- What the book records about one SCID. -/
structure BookEntry (N : Type*) where
  source : JsString
  version : Option (Version N)

/-- A source book: its entries, and that they never outgrow its capacity. -/
structure SourceBook (N : Type*) where
  capacity : Nat
  seen : OrderedMap JsString (BookEntry N)
  capacity_pos : 0 < capacity
  size_le : seen.size ≤ capacity

namespace SourceBook

variable {N : Type*}

/-- `createScidSourceBook({ capacity })` for an integer capacity. -/
def create (N : Type*) (capacity : Nat) : Except JsError (SourceBook N) :=
  if h : 0 < capacity then .ok ⟨capacity, .empty, h, Nat.zero_le _⟩
  else .error (typeError (js "did:scid: source book capacity must be a positive number"))

/-- The source last recorded for the SCID of `did`. -/
def source (b : SourceBook N) (did : JsString) : Option JsString :=
  (b.seen.get (scidIdentity did)).map BookEntry.source

/-- `seen.set(k, entry)` after `makeRoom()`, for a key the book does not hold. -/
def insertNew (b : SourceBook N) (k : JsString) (entry : BookEntry N) : SourceBook N :=
  { b with
    seen := (b.seen.makeRoom b.capacity).set k entry
    size_le := by
      have := b.seen.size_makeRoom_lt b.capacity_pos
      have := (b.seen.makeRoom b.capacity).size_set_le k entry
      omega }

/-- `entry.source = src` on a held entry. -/
def updateHeld (b : SourceBook N) (k : JsString) (entry : BookEntry N) (h : b.seen.has k = true) :
    SourceBook N :=
  { b with
    seen := b.seen.set k entry
    size_le := by rw [OrderedMap.size_set_of_has entry h]; exact b.size_le }

/-- `seen.delete(k); seen.set(k, entry)` on a held key: it moves to the back. -/
def reinsert (b : SourceBook N) (k : JsString) (entry : BookEntry N) (h : b.seen.has k = true) :
    SourceBook N :=
  { b with
    seen := (b.seen.delete k).set k entry
    size_le := by
      have := OrderedMap.size_delete_of_has h
      have := (b.seen.delete k).size_set_le k entry
      have := b.size_le
      omega }

/-- Records the `src` of a did:scid DID URL without changing the version verified for it. Returns
false when `didUrl` carries no `src`. -/
def addSource (b : SourceBook N) (didUrl : JsString) : Bool × SourceBook N :=
  match scidSrc didUrl with
  | none => (false, b)
  | some src =>
    let k := scidIdentity didUrl
    match h : b.seen.get k with
    | some entry => (true, b.updateHeld k { entry with source := src } (OrderedMap.has_iff.mpr ⟨_, h⟩))
    | none => (true, b.insertNew k { source := src, version := none })

/-- Whether an offered version is behind the latest one: a lower number, or its number with another
id. -/
def isBehind [LinearOrder N] (latest : Option (Version N)) (number : N) (id : JsString) : Bool :=
  match latest with
  | none => false
  | some v => number < v.number || (number = v.number && id != v.id)

/-- Accepts a verified resolution, or throws if it is older than one already verified for the same
SCID. -/
def accept [LinearOrder N] (b : SourceBook N) (did source : JsString) (number : N) (id : JsString) :
    Except JsError Unit × SourceBook N :=
  let k := scidIdentity did
  let latest := (b.seen.get k).bind BookEntry.version
  if isBehind latest number id then
    (.error (error (js "did:scid resolve: " ++ k ++ js ": the log at " ++ source ++
      js " is at version " ++ id ++ js ", behind " ++ (latest.map Version.id).getD [] ++
      js " already verified for this SCID")), b)
  else
    let entry : BookEntry N := { source, version := some { number, id } }
    if h : b.seen.has k = true then (.ok (), b.reinsert k entry h)
    else (.ok (), b.insertNew k entry)

/-- Number of SCIDs held. -/
def size (b : SourceBook N) : Nat := b.seen.size

/-- The version recorded for an identity. -/
def version (b : SourceBook N) (k : JsString) : Option (Version N) :=
  (b.seen.get k).bind BookEntry.version

/-! ## What the operations do -/

/-- The entries after one is inserted. -/
lemma get_insertNew (b : SourceBook N) (k k' : JsString) (entry : BookEntry N) :
    (b.insertNew k entry).seen.get k'
      = if k' = k then some entry else (b.seen.makeRoom b.capacity).get k' :=
  OrderedMap.get_set

/-- The entries after one is updated. -/
lemma get_updateHeld {b : SourceBook N} {k : JsString} (k' : JsString) (entry : BookEntry N)
    (h : b.seen.has k = true) :
    (b.updateHeld k entry h).seen.get k' = if k' = k then some entry else b.seen.get k' :=
  OrderedMap.get_set

/-- The entries after one is moved to the end. -/
lemma get_reinsert {b : SourceBook N} {k : JsString} (k' : JsString) (entry : BookEntry N)
    (h : b.seen.has k = true) :
    (b.reinsert k entry h).seen.get k' = if k' = k then some entry else b.seen.get k' := by
  simp only [reinsert, OrderedMap.get_set]
  split
  · rfl
  · rename_i hne
    exact OrderedMap.get_delete_ne hne

/-- What an insertion leaves of another identity is what was there. -/
lemma get_of_get_insertNew {b : SourceBook N} {k k' : JsString} {entry e : BookEntry N}
    (hne : k' ≠ k) (h : (b.insertNew k entry).seen.get k' = some e) : b.seen.get k' = some e := by
  rw [get_insertNew, if_neg hne] at h
  exact OrderedMap.get_of_get_makeRoom h

/-- `addSource` leaves the book alone, changes the source of a held identity, or inserts an identity
it did not hold, without a version. -/
lemma addSource_cases (b : SourceBook N) (didUrl : JsString) :
    (b.addSource didUrl).2 = b ∨
      (∃ src entry, ∃ h : b.seen.has (scidIdentity didUrl) = true,
        b.seen.get (scidIdentity didUrl) = some entry ∧
        (b.addSource didUrl).2 = b.updateHeld (scidIdentity didUrl) { entry with source := src } h) ∨
      ∃ src, b.seen.get (scidIdentity didUrl) = none ∧
        (b.addSource didUrl).2
          = b.insertNew (scidIdentity didUrl) { source := src, version := none } := by
  unfold addSource
  split
  · exact .inl rfl
  · rename_i src _
    dsimp only
    split
    · rename_i entry he
      exact .inr (.inl ⟨src, entry, OrderedMap.has_iff.mpr ⟨_, he⟩, he, rfl⟩)
    · rename_i he
      exact .inr (.inr ⟨src, he, rfl⟩)

variable [LinearOrder N]

/-- `accept` refuses an offer that is behind and changes nothing, or records it: in place of what
was held, or as a new identity. -/
lemma accept_cases (b : SourceBook N) (did source : JsString) (number : N) (id : JsString) :
    (isBehind (b.version (scidIdentity did)) number id = true ∧
      (∃ e, (b.accept did source number id).1 = .error e) ∧
      (b.accept did source number id).2 = b) ∨
    (isBehind (b.version (scidIdentity did)) number id = false ∧
      (b.accept did source number id).1 = .ok () ∧
      ((∃ h, (b.accept did source number id).2
          = b.reinsert (scidIdentity did) ⟨source, some ⟨number, id⟩⟩ h) ∨
        (b.seen.has (scidIdentity did) = false ∧ (b.accept did source number id).2
          = b.insertNew (scidIdentity did) ⟨source, some ⟨number, id⟩⟩))) := by
  unfold accept version
  dsimp only
  split
  · rename_i hb
    exact .inl ⟨hb, ⟨_, rfl⟩, rfl⟩
  · rename_i hb
    refine .inr ⟨by simpa using hb, ?_⟩
    split
    · rename_i h
      exact ⟨rfl, .inl ⟨h, rfl⟩⟩
    · rename_i h
      exact ⟨rfl, .inr ⟨by simpa using h, rfl⟩⟩

/-- An offer is behind exactly when its number is lower, or its number is the recorded one and its
id is another. -/
lemma isBehind_iff {latest : Option (Version N)} {number : N} {id : JsString} :
    isBehind latest number id = true ↔
      ∃ v, latest = some v ∧ (number < v.number ∨ (number = v.number ∧ id ≠ v.id)) := by
  cases latest with
  | none => simp [isBehind]
  | some v => simp [isBehind]

/-! ## Versions along a run -/

omit [LinearOrder N] in
/-- Adding a source keeps the capacity. -/
lemma capacity_addSource (b : SourceBook N) (didUrl : JsString) :
    (b.addSource didUrl).2.capacity = b.capacity := by
  obtain e | ⟨_, _, _, _, e⟩ | ⟨_, _, e⟩ := b.addSource_cases didUrl
  all_goals rw [e]
  all_goals rfl

/-- Accepting a version keeps the capacity. -/
lemma capacity_accept (b : SourceBook N) (did source : JsString) (number : N) (id : JsString) :
    (b.accept did source number id).2.capacity = b.capacity := by
  obtain ⟨_, _, e⟩ | ⟨_, _, ⟨_, e⟩ | ⟨_, e⟩⟩ := b.accept_cases did source number id
  all_goals rw [e]
  all_goals rfl

/-- A later record of one identity: none before, a higher number, or the same version. -/
def VersionLE : Option (Version N) → Option (Version N) → Prop
  | none, _ => True
  | some v, some w => v.number < w.number ∨ (v.number = w.number ∧ v.id = w.id)
  | some _, none => False

/-- A version is as new as itself. -/
lemma VersionLE.refl (v : Option (Version N)) : VersionLE v v := by
  cases v with
  | none => trivial
  | some v => exact .inr ⟨rfl, rfl⟩

/-- Newness is transitive. -/
lemma VersionLE.trans {u v w : Option (Version N)} (h : VersionLE u v) (h' : VersionLE v w) :
    VersionLE u w := by
  cases u with
  | none => trivial
  | some u =>
    cases v with
    | none => exact h.elim
    | some v =>
      cases w with
      | none => exact h'.elim
      | some w =>
        obtain h | ⟨h, hi⟩ := h
        · obtain h' | ⟨h', -⟩ := h'
          · exact .inl (h.trans h')
          · exact .inl (h' ▸ h)
        · obtain h' | ⟨h', hi'⟩ := h'
          · exact .inl (h ▸ h')
          · exact .inr ⟨h.trans h', hi.trans hi'⟩

/-- A version that is not behind is as new as the latest. -/
lemma versionLE_of_not_behind {latest : Option (Version N)} {number : N} {id : JsString}
    (h : isBehind latest number id = false) : VersionLE latest (some ⟨number, id⟩) := by
  cases latest with
  | none => trivial
  | some v =>
    rw [← Bool.not_eq_true, isBehind_iff] at h
    push Not at h
    obtain ⟨hle, hid⟩ := h v rfl
    obtain hlt | heq := lt_or_eq_of_le hle
    · exact .inl hlt
    · exact .inr ⟨heq, (hid heq.symm).symm⟩

omit [LinearOrder N] in
/-- Adding a source keeps the versions that stay. -/
lemma addSource_version {b : SourceBook N} {didUrl k : JsString} {e e' : BookEntry N}
    (h : b.seen.get k = some e) (h' : (b.addSource didUrl).2.seen.get k = some e') :
    e'.version = e.version := by
  obtain heq | ⟨src, entry, hh, hg, heq⟩ | ⟨src, hg, heq⟩ := b.addSource_cases didUrl
  · rw [heq, h] at h'
    cases h'
    rfl
  · rw [heq, get_updateHeld] at h'
    split at h'
    · rename_i hk
      subst hk
      rw [h] at hg
      cases hg
      cases h'
      rfl
    · rw [h] at h'
      cases h'
      rfl
  · have hk : k ≠ scidIdentity didUrl := by
      rintro rfl
      rw [h] at hg
      cases hg
    have := get_of_get_insertNew hk (heq ▸ h')
    rw [h] at this
    cases this
    rfl

/-- `accept` leaves a later record of every identity that stays. -/
lemma accept_version {b : SourceBook N} {did source k : JsString} {number : N} {id : JsString}
    {e e' : BookEntry N} (h : b.seen.get k = some e)
    (h' : (b.accept did source number id).2.seen.get k = some e') :
    VersionLE e.version e'.version := by
  obtain ⟨-, -, heq⟩ | ⟨hb, -, hcase⟩ := b.accept_cases did source number id
  · rw [heq, h] at h'
    cases h'
    exact .refl _
  by_cases hk : k = scidIdentity did
  · subst hk
    have he' : e' = ⟨source, some ⟨number, id⟩⟩ := by
      obtain ⟨hh, heq⟩ | ⟨-, heq⟩ := hcase
      · rw [heq, get_reinsert, if_pos rfl] at h'
        exact (Option.some.inj h').symm
      · rw [heq, get_insertNew, if_pos rfl] at h'
        exact (Option.some.inj h').symm
    subst he'
    apply versionLE_of_not_behind
    simpa [version, h] using hb
  · have : e' = e := by
      obtain ⟨hh, heq⟩ | ⟨-, heq⟩ := hcase
      · rw [heq, get_reinsert, if_neg hk, h] at h'
        exact (Option.some.inj h').symm
      · have := get_of_get_insertNew hk (heq ▸ h')
        rw [h] at this
        exact Option.some.inj this.symm
    rw [this]
    exact .refl _

/-! ## Books with room -/

/-- A book that will be told of no more identities than it has room for. -/
structure Room (b : SourceBook N) (ids : List JsString) : Prop where
  keys : ∀ k e, b.seen.get k = some e → k ∈ ids
  room : ids.length ≤ b.capacity

omit [LinearOrder N] in
/-- An insertion into a book with room drops nothing. -/
lemma Room.get_insertNew {b : SourceBook N} {ids : List JsString} {k : JsString} (h : b.Room ids)
    (hk : k ∈ ids) (hnew : b.seen.get k = none) (k' : JsString) (entry : BookEntry N) :
    (b.insertNew k entry).seen.get k' = if k' = k then some entry else b.seen.get k' := by
  have hroom := OrderedMap.size_lt_of_keys h.keys hk hnew
  have := h.room
  rw [SourceBook.get_insertNew, OrderedMap.makeRoom_of_lt (by omega)]

omit [LinearOrder N] in
/-- What a book with room returns after `addSource`: the identity with its version, and the others
as they were. -/
lemma Room.get_addSource {b : SourceBook N} {ids : List JsString} {didUrl : JsString}
    (h : b.Room ids) (hid : scidIdentity didUrl ∈ ids) (k : JsString) :
    (b.addSource didUrl).2.seen.get k = b.seen.get k ∨
      k = scidIdentity didUrl ∧ ∃ src, (b.addSource didUrl).2.seen.get k
        = some { source := src, version := b.version k } := by
  obtain e | ⟨src, entry, hh, hg, e⟩ | ⟨src, hg, e⟩ := b.addSource_cases didUrl
  · exact .inl (by rw [e])
  · by_cases hk : k = scidIdentity didUrl
    · exact .inr ⟨hk, src, by rw [e, get_updateHeld, if_pos hk, version, hk, hg]; rfl⟩
    · exact .inl (by rw [e, get_updateHeld, if_neg hk])
  · by_cases hk : k = scidIdentity didUrl
    · exact .inr ⟨hk, src, by rw [e, h.get_insertNew hid hg, if_pos hk, version, hk, hg]; rfl⟩
    · exact .inl (by rw [e, h.get_insertNew hid hg, if_neg hk])

omit [LinearOrder N] in
/-- Adding a source to a book with room keeps the versions. -/
lemma Room.version_addSource {b : SourceBook N} {ids : List JsString} {didUrl : JsString}
    (h : b.Room ids) (hid : scidIdentity didUrl ∈ ids) (k : JsString) :
    (b.addSource didUrl).2.version k = b.version k := by
  obtain e | ⟨-, src, e⟩ := h.get_addSource hid k
  · rw [version, e, version]
  · rw [version, e]
    rfl

omit [LinearOrder N] in
/-- Adding a source of a listed DID leaves room. -/
lemma Room.addSource {b : SourceBook N} {ids : List JsString} {didUrl : JsString}
    (h : b.Room ids) (hid : scidIdentity didUrl ∈ ids) : (b.addSource didUrl).2.Room ids where
  keys k e hk := by
    obtain he | ⟨rfl, -⟩ := h.get_addSource hid k
    · exact h.keys k e (he ▸ hk)
    · exact hid
  room := by
    rw [capacity_addSource]
    exact h.room

/-- What a book with room returns after an `accept` that does not throw. -/
lemma Room.get_accept {b : SourceBook N} {ids : List JsString} {did source : JsString} {number : N}
    {id : JsString} (h : b.Room ids) (hid : scidIdentity did ∈ ids)
    (hb : isBehind (b.version (scidIdentity did)) number id = false) (k : JsString) :
    (b.accept did source number id).2.seen.get k
      = if k = scidIdentity did then some ⟨source, some ⟨number, id⟩⟩ else b.seen.get k := by
  obtain ⟨hb', -⟩ | ⟨-, -, ⟨hh, e⟩ | ⟨hn, e⟩⟩ := b.accept_cases did source number id
  · rw [hb] at hb'
    cases hb'
  · rw [e, get_reinsert]
  · rw [e, h.get_insertNew hid (OrderedMap.has_eq_false.mp hn)]

/-- An `accept` that does not throw records the version offered, and leaves the others. -/
lemma Room.version_accept {b : SourceBook N} {ids : List JsString} {did source : JsString}
    {number : N} {id : JsString} (h : b.Room ids) (hid : scidIdentity did ∈ ids)
    (hb : isBehind (b.version (scidIdentity did)) number id = false) (k : JsString) :
    (b.accept did source number id).2.version k
      = if k = scidIdentity did then some ⟨number, id⟩ else b.version k := by
  rw [version, h.get_accept hid hb]
  split <;> rfl

/-- Accepting a version of a listed DID leaves room. -/
lemma Room.accept {b : SourceBook N} {ids : List JsString} {did source : JsString} {number : N}
    {id : JsString} (h : b.Room ids) (hid : scidIdentity did ∈ ids)
    (hb : isBehind (b.version (scidIdentity did)) number id = false) :
    (b.accept did source number id).2.Room ids where
  keys k e hk := by
    rw [h.get_accept hid hb] at hk
    split at hk
    · rename_i hk'
      exact hk' ▸ hid
    · exact h.keys k e hk
  room := by
    rw [capacity_accept]
    exact h.room

/-- A call on a book. -/
inductive BookCall (N : Type*) where
  | addSource (didUrl : JsString)
  | accept (did source : JsString) (number : N) (id : JsString)

/-- The book after a call, whether it threw or not. -/
def after (b : SourceBook N) : BookCall N → SourceBook N
  | .addSource didUrl => (b.addSource didUrl).2
  | .accept did source number id => (b.accept did source number id).2

/-- One call on a book. -/
def Call (b : SourceBook N) (calls : List (BookCall N)) (b' : SourceBook N) : Prop :=
  ∃ call, calls = [call] ∧ b' = b.after call

/-- A call keeps the capacity. -/
lemma capacity_after (b : SourceBook N) (call : BookCall N) :
    (b.after call).capacity = b.capacity := by
  cases call with
  | addSource didUrl => exact b.capacity_addSource didUrl
  | accept did source number id => exact b.capacity_accept did source number id

/-- Calls in a row keep the capacity. -/
lemma run_capacity {b b' : SourceBook N} {calls : List (BookCall N)}
    (r : Lts.Run Call b calls b') : b'.capacity = b.capacity := by
  apply r.invariant (I := fun s _ => s.capacity = b.capacity) rfl
  rintro s tr evs s' ih ⟨call, -, rfl⟩
  rw [capacity_after, ih]

/-- A call leaves a later record of every identity that stays. -/
lemma after_version {b : SourceBook N} {call : BookCall N} {k : JsString} {e e' : BookEntry N}
    (h : b.seen.get k = some e) (h' : (b.after call).seen.get k = some e') :
    VersionLE e.version e'.version := by
  cases call with
  | addSource didUrl =>
    rw [addSource_version h h']
    exact .refl _
  | accept did source number id => exact accept_version h h'

/-- Along a run in which an identity stays in the book, its record only gets later. -/
lemma run_version {b b' : SourceBook N} {calls : List (BookCall N)} {k : JsString}
    {e : BookEntry N} (h : b.seen.get k = some e)
    (r : Lts.Run (fun s evs s' => Call s evs s' ∧ s'.seen.has k = true) b calls b') :
    ∃ e', b'.seen.get k = some e' ∧ VersionLE e.version e'.version := by
  refine r.invariant (I := fun s _ => ∃ e', s.seen.get k = some e' ∧
    VersionLE e.version e'.version) ⟨e, h, .refl _⟩ ?_
  rintro s tr evs s' ⟨e', he', hle⟩ ⟨⟨call, -, rfl⟩, hhas⟩
  obtain ⟨e'', he''⟩ := OrderedMap.has_iff.mp hhas
  exact ⟨e'', he'', hle.trans (after_version he' he'')⟩

end SourceBook

end VtiDidcomm
