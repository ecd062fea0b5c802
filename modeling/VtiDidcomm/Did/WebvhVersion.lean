import Mathlib.Order.Defs.LinearOrder
import VtiDidcomm.Did.Webvh

/-!
# Resolution as of a time

`resolveVerified` at an instant: the whole log is verified as for current resolution, and then the
document is the one of the entry in force at the instant, the last whose `versionTime` is at or
before it. What the verifying library guarantees of a log it accepts is `VerifiesLogs`; the counting
loop of `resolveVerified` rests on the order of the times in it (`lt_length_takeWhile_iff`).
-/

/-! ## Counting a sorted list -/

namespace List

variable {α : Type*} [LinearOrder α]

/-- In a sorted list, the entries up to a bound are the first ones. -/
lemma lt_length_takeWhile_iff {l : List α} (h : l.Pairwise (· < ·)) (t : α) (i : Nat) :
    i < (l.takeWhile fun s => decide (s ≤ t)).length ↔ ∃ s, l[i]? = some s ∧ s ≤ t := by
  induction l generalizing i with
  | nil => simp
  | cons a l ih =>
    rw [List.pairwise_cons] at h
    by_cases ha : a ≤ t
    · rw [List.takeWhile_cons_of_pos (by simpa using ha), List.length_cons]
      cases i with
      | zero => simpa using ha
      | succ i => simpa using ih h.2 i
    · -- every later entry is after the bound too
      rw [List.takeWhile_cons_of_neg (by simpa using ha)]
      constructor
      · intro hlt
        cases hlt
      · rintro ⟨s, hs, hle⟩
        rcases List.mem_cons.mp (List.mem_of_getElem? hs) with rfl | hmem
        · exact absurd hle ha
        · exact absurd ((h.1 s hmem).le.trans hle) ha

end List

namespace VtiDidcomm.Webvh
open Js

variable (pf : Platform)

/-- `Date.parse(entry.versionTime)` -/
def timeOf (entry : Json) : Option Int :=
  pf.parseDate (Json.toStrOpt (entry.get (js "versionTime")))

/-- A result whose metadata carries an error. -/
def reportsError (result : LogResult) : Bool :=
  Json.truthy (result.meta'.bind (·.get (js "error")))

/-- The whole log verifies, without an error. -/
def Verifies (verify : LogVerifier) (log : List Json) (opts : LogOptions) : Prop :=
  opts.versionNumber = none ∧ ∃ current, verify log opts = .ok current ∧ reportsError current = false

/-- What the library guarantees of a log it has verified whole: the times of its entries parse and
strictly increase, and it returns the document of each entry that is asked for by its number. -/
structure VerifiesLogs (verify : LogVerifier) (document : Json → Option Json) : Prop where
  times : ∀ {log opts}, Verifies verify log opts →
    ∃ times : List Int, log.map (timeOf pf) = times.map some ∧ times.Pairwise (· < ·)
  version : ∀ {log opts}, Verifies verify log opts → ∀ i entry, log[i]? = some entry →
    ∃ result, verify log { opts with versionNumber := some (i + 1) } = .ok result ∧
      reportsError result = false ∧ result.doc = document entry

/-- The log's entry `i` is in force at `time`: the last one, or the last before one that is later. -/
def InForce (log : List Json) (time : Int) (i : Nat) : Prop :=
  (∃ s, (log[i]?).bind (timeOf pf) = some s ∧ s ≤ time) ∧
    ∀ next, (log[i + 1]?).bind (timeOf pf) = some next → time < next

/-- `err instanceof DidVersionNotFoundError` -/
def IsVersionNotFound (err : JsError) : Prop := err.code = some (js "E_DID_VERSION_NOT_FOUND")

/-- The time is before the log's first entry. -/
def IsBeforeFirst (log : List Json) (time : Int) : Prop :=
  ∀ first s, log.head? = some first → timeOf pf first = some s → time < s

variable {pf}

/-- An error of the result carries no code. -/
lemma adaptResolutionResult_code {result : LogResult} {err : JsError}
    (h : adaptResolutionResult result = .error err) : err.code = none := by
  unfold adaptResolutionResult at h
  dsimp only at h
  split at h
  · cases h
    rfl
  · split at h
    · cases h
      rfl
    · cases h

/-- A result with a document and no error is returned. -/
lemma adaptResolutionResult_of_doc {result : LogResult} {doc : Json}
    (he : reportsError result = false) (hdoc : result.doc = some doc)
    (htruthy : Json.truthy (some doc) = true) (hobject : Json.isObjectType doc = true) :
    ∃ r, adaptResolutionResult result = .ok r ∧ r.didDocument = some doc := by
  cases hr : adaptResolutionResult result with
  | ok r => exact ⟨r, rfl, (adaptResolutionResult_eq_ok hr).1.trans hdoc⟩
  | error err =>
    unfold adaptResolutionResult at hr
    rw [if_neg (by simpa [reportsError] using he), if_neg (by simp [hdoc, htruthy, hobject])] at hr
    cases hr

section Sorted

variable {log : List Json} {times : List Int}

/-- The times of a log, entry by entry. -/
lemma getElem?_time (h : log.map (timeOf pf) = times.map some) (i : Nat) :
    (log[i]?).bind (timeOf pf) = times[i]? := by
  have := congrArg (·[i]?) h
  simp only [List.getElem?_map] at this
  cases hl : log[i]? with
  | none =>
    rw [hl] at this
    cases ht : times[i]? with
    | none => rfl
    | some t => simp [ht] at this
  | some entry =>
    rw [hl] at this
    cases ht : times[i]? with
    | none => simp [ht] at this
    | some t => simpa [ht] using this

/-- The loop counts the times up to the instant. -/
lemma versionsUpTo_eq (h : log.map (timeOf pf) = times.map some) (time : Int) :
    versionsUpTo pf log time = (times.takeWhile fun s => decide (s ≤ time)).length := by
  induction log generalizing times with
  | nil =>
    cases times with
    | nil => rfl
    | cons t times => cases h
  | cons entry log ih =>
    cases times with
    | nil => cases h
    | cons t times =>
      obtain ⟨hentry, hlog⟩ := List.cons.inj h
      have hcond : (pf.parseDate (Json.toStrOpt (entry.get (js "versionTime")))).any (time < ·) =
          !decide (t ≤ time) := by
        rw [show pf.parseDate _ = some t from hentry, Option.any_some, ← decide_not, decide_eq_decide,
          not_le]
      unfold versionsUpTo at ih ⊢
      by_cases ht : t ≤ time
      · rw [List.takeWhile_cons_of_pos (by simp [hcond, ht]),
          List.takeWhile_cons_of_pos (by simpa using ht), List.length_cons, List.length_cons, ih hlog]
      · rw [List.takeWhile_cons_of_neg (by simp [hcond, ht]),
          List.takeWhile_cons_of_neg (by simpa using ht)]
        rfl

variable (h : log.map (timeOf pf) = times.map some) (hsorted : times.Pairwise (· < ·)) (time : Int)
include h hsorted

/-- The entries the loop counts are those at or before the instant. -/
lemma lt_versionsUpTo_iff (i : Nat) :
    i < versionsUpTo pf log time ↔ ∃ s, (log[i]?).bind (timeOf pf) = some s ∧ s ≤ time := by
  rw [versionsUpTo_eq h, List.lt_length_takeWhile_iff hsorted, getElem?_time h]

/-- The entry in force is the last one the loop counts. -/
lemma inForce_iff (i : Nat) : InForce pf log time i ↔ versionsUpTo pf log time = i + 1 := by
  have hlater : (∀ next, (log[i + 1]?).bind (timeOf pf) = some next → time < next) ↔
      ¬ i + 1 < versionsUpTo pf log time := by
    rw [lt_versionsUpTo_iff h hsorted]
    push Not
    rfl
  rw [InForce, ← lt_versionsUpTo_iff h hsorted, hlater]
  omega

/-- No version is in force before the first entry. -/
lemma versionsUpTo_eq_zero_iff : versionsUpTo pf log time = 0 ↔ IsBeforeFirst pf log time := by
  have hzero := lt_versionsUpTo_iff h hsorted time 0
  rw [← not_iff_not, ← Ne, ← Nat.pos_iff_ne_zero, hzero, List.head?_eq_getElem?.symm]
  unfold IsBeforeFirst
  push Not
  constructor
  · rintro ⟨s, hs, hle⟩
    obtain ⟨first, hfirst, hs⟩ := Option.bind_eq_some_iff.mp hs
    exact ⟨first, s, hfirst, hs, hle⟩
  · rintro ⟨first, s, hfirst, hs, hle⟩
    exact ⟨s, by rw [hfirst]; exact hs, hle⟩

end Sorted

/-! ## The version that is resolved -/

/-- A log that does not verify is not resolved. -/
lemma resolveVerified_of_not_verifies {verify : LogVerifier} {log : List Json} {opts : LogOptions}
    (hopts : opts.versionNumber = none) (h : ¬ Verifies verify log opts) (time : Option Int)
    (requested : Option JsString) :
    ∃ err, resolveVerified pf verify log opts time requested = .error err := by
  unfold resolveVerified
  cases hv : verify log opts with
  | error err => exact ⟨err, rfl⟩
  | ok current =>
    have hreports : Json.truthy (current.meta'.bind (·.get (js "error"))) = true := by
      by_contra hn
      exact h ⟨hopts, current, hv, by simpa [reportsError] using hn⟩
    have hfails : ∃ err, adaptResolutionResult current = .error err := by
      unfold adaptResolutionResult
      dsimp only
      rw [if_pos hreports]
      exact ⟨_, rfl⟩
    simp only [ok_bind]
    cases time with
    | none => exact hfails
    | some time =>
      dsimp only
      rw [if_pos hreports]
      exact hfails

variable (pf) in
/-- A verified log resolves at a time as the entry that the loop counted last. -/
lemma resolveVerified_of_verifies {verify : LogVerifier} {log : List Json} {opts : LogOptions}
    (h : Verifies verify log opts) (time : Int) (requested : Option JsString) :
    (versionsUpTo pf log time = 0 ∧ ∃ err, IsVersionNotFound err ∧
      resolveVerified pf verify log opts (some time) requested = .error err) ∨
    (0 < versionsUpTo pf log time ∧ resolveVerified pf verify log opts (some time) requested =
      verify log { opts with versionNumber := some (versionsUpTo pf log time) } >>=
        adaptResolutionResult) := by
  obtain ⟨-, current, hv, hreports⟩ := h
  unfold resolveVerified
  simp only [hv, ok_bind]
  rw [if_neg (by simpa [reportsError] using hreports)]
  split
  · rename_i hzero
    exact .inl ⟨hzero, didVersionNotFound .., rfl, rfl⟩
  · rename_i hpos
    exact .inr ⟨Nat.pos_of_ne_zero hpos, rfl⟩

/-- A verified log resolves at a time in the force of an entry to the document of that entry. -/
lemma resolveVerified_inForce {verify : LogVerifier} {document : Json → Option Json}
    (hlib : VerifiesLogs pf verify document) {log : List Json} {opts : LogOptions}
    (h : Verifies verify log opts) {time : Int} {i : Nat} (hi : InForce pf log time i)
    (requested : Option JsString) :
    ∃ entry result, log[i]? = some entry ∧ result.doc = document entry ∧
      reportsError result = false ∧
      resolveVerified pf verify log opts (some time) requested = adaptResolutionResult result := by
  obtain ⟨times, htimes, hsorted⟩ := hlib.times h
  have hcount := (inForce_iff htimes hsorted time i).mp hi
  obtain ⟨⟨s, hs, -⟩, -⟩ := hi
  obtain ⟨entry, hentry, -⟩ := Option.bind_eq_some_iff.mp hs
  obtain ⟨result, hresult, hreports, hdoc⟩ := hlib.version h i entry hentry
  rcases resolveVerified_of_verifies pf h time requested with ⟨hzero, -⟩ | ⟨-, heq⟩
  · omega
  · rw [hcount, hresult] at heq
    exact ⟨entry, result, hentry, hdoc, hreports, heq⟩

/-- `resolveVerified` at a time fails when the log does not verify now. Otherwise it fails with
`DidVersionNotFoundError` exactly before the first entry, and from then on there is one entry in
force, later for a later time, whose document it returns. -/
theorem resolveVerified_selects {verify : LogVerifier} {document : Json → Option Json}
    (hlib : VerifiesLogs pf verify document) (log witnessProofs : List Json)
    (scid requested : Option JsString) :
    let opts : LogOptions := { witnessProofs, scid }
    let resolveAt := fun time => resolveVerified pf verify log opts (some time) requested
    (¬ Verifies verify log opts → ∀ time, ∃ err, resolveAt time = .error err) ∧
    (Verifies verify log opts →
      (∀ time, (∃ err, IsVersionNotFound err ∧ resolveAt time = .error err) ↔
        IsBeforeFirst pf log time) ∧
      (∀ time, ¬ IsBeforeFirst pf log time → ∃! i, InForce pf log time i) ∧
      (∀ time i, InForce pf log time i → ∃ entry, log[i]? = some entry ∧
        (∀ r, resolveAt time = .ok r → r.didDocument = document entry) ∧
        (∀ doc, document entry = some doc → Json.truthy (some doc) = true →
          Json.isObjectType doc = true → ∃ r, resolveAt time = .ok r ∧ r.didDocument = some doc)) ∧
      (∀ time time' i j, time ≤ time' → InForce pf log time i → InForce pf log time' j → i ≤ j)) := by
  intro opts resolveAt
  refine ⟨fun h time => resolveVerified_of_not_verifies rfl h _ _, fun h => ?_⟩
  obtain ⟨times, htimes, hsorted⟩ := hlib.times h
  have inForce (time i) := inForce_iff htimes hsorted time i
  have unique {time} (ht : ¬ IsBeforeFirst pf log time) : ∃! i, InForce pf log time i := by
    rw [← versionsUpTo_eq_zero_iff htimes hsorted] at ht
    refine ⟨versionsUpTo pf log time - 1, (inForce time _).mpr (by omega), fun j hj => ?_⟩
    have := (inForce time j).mp hj
    omega
  refine ⟨fun time => ⟨?_, ?_⟩, fun time => unique, ?_, ?_⟩
  · rintro ⟨err, hcode, herr⟩
    by_contra ht
    obtain ⟨i, hi, -⟩ := unique ht
    obtain ⟨entry, result, -, -, -, heq⟩ := resolveVerified_inForce hlib h hi requested
    rw [IsVersionNotFound, adaptResolutionResult_code (heq.symm.trans herr)] at hcode
    cases hcode
  · intro ht
    rw [← versionsUpTo_eq_zero_iff htimes hsorted] at ht
    rcases resolveVerified_of_verifies pf h time requested with ⟨-, hfound⟩ | ⟨hpos, -⟩
    · exact hfound
    · omega
  · intro time i hi
    obtain ⟨entry, result, hentry, hdoc, hreports, heq⟩ :=
      resolveVerified_inForce hlib h hi requested
    refine ⟨entry, hentry, fun r hr => ?_, fun doc hsome htruthy hobject => ?_⟩
    · rw [(adaptResolutionResult_eq_ok (heq.symm.trans hr)).1, hdoc]
    · obtain ⟨r, hr, hrdoc⟩ :=
        adaptResolutionResult_of_doc hreports (hdoc.trans hsome) htruthy hobject
      exact ⟨r, heq.trans hr, hrdoc⟩
  · intro time time' i j hle hi hj
    obtain ⟨⟨s, hs, hst⟩, -⟩ := hi
    have hlt := (lt_versionsUpTo_iff htimes hsorted time' i).mpr ⟨s, hs, hst.trans hle⟩
    have := (inForce time' j).mp hj
    omega

/-! ## A verifier -/

/-- The plain platform, with a clock of two instants. -/
def twoInstants : Platform :=
  { Platform.plain with
    parseDate := fun s =>
      if s = js "2026-01-01T00:00:00Z" then some 1767225600000
      else if s = js "2026-01-02T00:00:00Z" then some 1767312000000 else none }

/-- A verifier that checks the times of a log, and returns the `state` of the entry asked for. -/
def checkTimes (pf : Platform) : LogVerifier := fun log opts =>
  let times := log.filterMap (timeOf pf)
  if log.map (timeOf pf) = times.map some ∧ times.Pairwise (· < ·) then
    match opts.versionNumber with
    | none => .ok ⟨none, log.getLast?.bind (·.get (js "state")), none⟩
    | some n => match log[n - 1]? with
      | none => .error (error (js "no such version"))
      | some entry => .ok ⟨none, entry.get (js "state"), none⟩
  else .error (error (js "versionTime is not after the previous entry"))

/-- The sample verifier verifies logs. -/
lemma verifiesLogs_checkTimes (pf : Platform) :
    VerifiesLogs pf (checkTimes pf) (·.get (js "state")) where
  times {log opts} h := by
    obtain ⟨-, current, hv, -⟩ := h
    unfold checkTimes at hv
    dsimp only at hv
    split at hv
    · rename_i hsorted
      exact ⟨_, hsorted⟩
    · cases hv
  version {log opts} h i entry hentry := by
    obtain ⟨-, current, hv, -⟩ := h
    unfold checkTimes at hv ⊢
    dsimp only at hv ⊢
    split at hv
    · rename_i hsorted
      rw [if_pos hsorted, Nat.add_sub_cancel, hentry]
      exact ⟨_, rfl, rfl, rfl⟩
    · cases hv

/-- A log of two entries, each with a document. -/
def twoEntries : List Json :=
  [.obj [(js "versionTime", .str (js "2026-01-01T00:00:00Z")), (js "state", .obj [])],
    .obj [(js "versionTime", .str (js "2026-01-02T00:00:00Z")),
      (js "state", .obj [(js "id", .null)])]]

/-- At the instant of its second entry, the log resolves to the document of that entry. -/
theorem resolveVerified_selects_example :
    ∃ r, resolveVerified twoInstants (checkTimes twoInstants) twoEntries ⟨[], none, none⟩
        (some 1767312000000) none = .ok r ∧
      r.didDocument = some (.obj [(js "id", .null)]) := by
  have hverifies : Verifies (checkTimes twoInstants) twoEntries ⟨[], none, none⟩ :=
    ⟨rfl, _, rfl, rfl⟩
  have hforce : InForce twoInstants twoEntries 1767312000000 1 := by
    refine ⟨⟨1767312000000, rfl, le_refl _⟩, ?_⟩
    intro next hnext
    cases hnext
  obtain ⟨-, -, hselects, -⟩ := (resolveVerified_selects
    (verifiesLogs_checkTimes twoInstants) twoEntries [] none none).2 hverifies
  obtain ⟨entry, hentry, -, hdoc⟩ := hselects _ 1 hforce
  cases hentry
  exact hdoc _ rfl rfl rfl

end VtiDidcomm.Webvh
