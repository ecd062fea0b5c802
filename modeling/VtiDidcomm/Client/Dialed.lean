import VtiDidcomm.Client.Guarded
import VtiDidcomm.Net.Lookup

/-!
# What the client connects to

The two halves of the guard together: the check of a URL before it is requested, and that of a name
when it is looked up. With private hosts disallowed, no call connects to an address that is not
public, whatever it is answered, by peers or by the resolver (`calls_dial_public`).
-/

namespace VtiDidcomm
open Js Effect

/-- The host names of parsed URLs are those of the URL standard. -/
def HasHostnames (pf : Platform) : Prop :=
  ∀ url u, pf.parseUrl url = some u → IsHostname u.hostname

/-- A request connects to public addresses only, if its lookups are guarded. -/
def DialsPublic (pf : Platform) (policy : LookupPolicy) (q : Request) : Prop :=
  ∀ u address, pf.parseUrl q.url = some u → Dials pf policy u address → IsPublicAddress address

/-- Every request of a program connects to public addresses only. -/
abbrev DialsOnlyPublic (pf : Platform) (policy : LookupPolicy) {α : Type} (p : Net α) : Prop :=
  Prog.Safe (DialsPublic pf policy) p.run

variable {pf : Platform} {policy : LookupPolicy}

/-- What a policy without private hosts admits is dialed at public addresses. -/
lemma dialsPublic_of_admits (hpf : HasHostnames pf) (hlookup : policy.allowPrivate = false)
    {endpoint : EndpointPolicy} (hp : endpoint.allowPrivate = true → false = true) {q : Request}
    (h : Admits pf endpoint q.url) : DialsPublic pf policy q := by
  intro u address hu hdials
  obtain ⟨v, hv⟩ := h
  obtain ⟨hparsed, -, hopen, -⟩ := accepts_iff.mp hv
  cases hu.symm.trans hparsed
  exact hdials.isPublic (hopen.mono hp) (hpf _ _ hu) hlookup

/-- The guarded parts dial public addresses. -/
lemma guarded_dialsOnlyPublic (hpf : HasHostnames pf) (hlookup : policy.allowPrivate = false) :
    Guarded pf false (DialsOnlyPublic pf policy) where
  lift r := safe_lift r
  bind hp hf := Prog.safe_run_bind.mpr ⟨hp, hf⟩
  fetch hp _ _ _ := safe_netGuardedFetch fun u hu => dialsPublic_of_admits hpf hlookup hp ⟨u, hu⟩
  fetchBody hp _ _ :=
    Webvh.safe_fetchBody.mpr fun hadmits => dialsPublic_of_admits hpf hlookup hp hadmits
  witness hp log logUrl := by
    unfold Webvh.suppliedWitnessProofs
    split
    · apply Webvh.safe_fetchWitnessProofs.mpr
      exact fun url _ hadmits => dialsPublic_of_admits hpf hlookup hp hadmits
    · trivial
  webSocket hu hp _ := (safe_send _).mpr (dialsPublic_of_admits hpf hlookup hp ⟨_, hu⟩)

/-- No call connects to an address that is not public, when its policy allows no private hosts and its
lookups are guarded: neither the authentication to a mediator, nor the connection through it, nor the
resolution of an inbound sender, nor the calls of the REST client, whatever they are answered and
whatever their names resolve to. And the lookup guard passes on, as they are, all answers of public
addresses, and no answer with another one. -/
theorem calls_dial_public {T : Type} [LinearOrder T] [Add T] [Zero T] (b : Resolver.Builtin)
    (C : Crypto) (o : Resolver.Owned T) {lookupPolicy : LookupPolicy} (hpf : HasHostnames b.pf)
    (hlookup : lookupPolicy.allowPrivate = false) :
    (∀ times (args : MediatorAuth.Args) draw, args.policy.allowPrivate = false →
      DialsOnlyPublic b.pf lookupPolicy
        (MediatorAuth.authenticateToMediator b C o times args draw)) ∧
    (∀ times (args : VtaDidcomm.Args) draws, args.policy.allowPrivate = false →
      DialsOnlyPublic b.pf lookupPolicy (VtaDidcomm.connectVtaViaMediator b C o times args draws)) ∧
    (∀ times (args : VtaDidcomm.Args) did skid, args.policy.allowPrivate = false →
      DialsOnlyPublic b.pf lookupPolicy (VtaDidcomm.resolveSender b o times args did skid)) ∧
    (∀ times (args : VtaRestAuth.Args) draw, args.policy.allowPrivate = false →
      DialsOnlyPublic b.pf lookupPolicy (VtaRestAuth.authenticate b C o times args draw)) ∧
    (∀ times (args : VtaRestAuth.Args) refreshToken draw, args.policy.allowPrivate = false →
      DialsOnlyPublic b.pf lookupPolicy (VtaRestAuth.refresh b C o times args refreshToken draw)) ∧
    ∀ hostname options (answers : List LookupAddress) r, answers ≠ [] →
      Prog.Runs (netGuardedLookup lookupPolicy hostname options).run
        [(lookupQuery hostname options, .ok (some (answers.map some)))] r →
      ((∀ a ∈ answers, IsPublicAddress a.address) →
        ∃ handed, r = .ok handed ∧ handOver options.wantsAll (answers.map some) = .ok handed) ∧
      ∀ a ∈ answers, ¬ IsPublicAddress a.address →
        ∃ err, r = .error err ∧ isBlockedError err = true := by
  have h := guarded_dialsOnlyPublic hpf hlookup
  have disallows {allowPrivate : Bool} (hp : allowPrivate = false) :
      allowPrivate = true → false = true := fun htrue => hp.symm.trans htrue
  refine ⟨?_, ?_, ?_, ?_, ?_, ?_⟩
  · exact fun times args draw hp => h.authenticateToMediator (disallows hp)
  · exact fun times args draws hp => h.connectVtaViaMediator (disallows hp)
  · exact fun times args did skid hp => h.resolveSender (disallows hp)
  · exact fun times args draw hp => h.authenticate (disallows hp)
  · exact fun times args refreshToken draw hp => h.refresh (disallows hp)
  · intro hostname options answers r hne run
    exact ⟨handed_of_public hne run, refused_of_not_public hne run hlookup⟩

/-- A platform whose URLs are those of host names. -/
def namedPlatform : Platform :=
  { Platform.plain with
    parseUrl := fun s => (plainUrl s).filter fun u => u.hostname.all fun c => c < 0x80 && c ≠ colon }

/-- The sample platform knows hostnames. -/
lemma hasHostnames_named : HasHostnames namedPlatform := by
  intro url u h
  obtain ⟨-, hall⟩ := Option.filter_eq_some_iff.mp h
  have hchars : ∀ c ∈ u.hostname, c < 0x80 ∧ c ≠ colon := by simpa using hall
  exact ⟨fun c hc => (hchars c hc).1, fun hc => absurd rfl (hchars colon hc).2⟩

/-- A call, and the lookup of a name with one public address. -/
theorem calls_dial_public_example :
    DialsOnlyPublic namedPlatform {} (MediatorAuth.authenticateToMediator
      { Resolver.Builtin.plain with pf := namedPlatform } Crypto.sample
      ⟨Resolver.init 300000 (0 : Int), ⟨1, .empty, by decide, by decide⟩⟩ ⟨0, 0⟩ strayMediator
      someDraw) ∧
    ∃ handed, Prog.Runs (netGuardedLookup {} (js "mediator.example") .absent).run
      [(lookupQuery (js "mediator.example") .absent, .ok (some [some ⟨js "8.8.8.8", 4⟩]))]
      (.ok handed) := by
  obtain ⟨hauth, -, -, -, -, hanswers⟩ := calls_dial_public
    { Resolver.Builtin.plain with pf := namedPlatform } Crypto.sample
    ⟨Resolver.init 300000 (0 : Int), ⟨1, .empty, by decide, by decide⟩⟩ hasHostnames_named
    (rfl : ({} : LookupPolicy).allowPrivate = false)
  refine ⟨hauth ⟨0, 0⟩ strayMediator someDraw rfl, ?_⟩
  have run : Prog.Runs (netGuardedLookup {} (js "mediator.example") .absent).run
      [(lookupQuery (js "mediator.example") .absent, .ok (some [some ⟨js "8.8.8.8", 4⟩]))] _ :=
    runs_netGuardedLookup.mpr ⟨_, rfl, rfl⟩
  obtain ⟨handed, hhanded, -⟩ := (hanswers (js "mediator.example") .absent [⟨js "8.8.8.8", 4⟩] _
    (List.cons_ne_nil _ _) run).1 fun a ha => by
      cases List.mem_singleton.mp ha
      exact isPublicAddress_iff.mpr (by decide)
  rw [hhanded] at run
  exact ⟨handed, run⟩

end VtiDidcomm
