import VtiDidcomm.Client.VtaDidcomm
import VtiDidcomm.Client.VtaRestAuth
import VtiDidcomm.Envelope.Sample

/-!
# The requests of a call and its policy

Which calls keep to the `netPolicy` they are given. Every endpoint is guarded by the caller's
policy; the DID of a mediator, and the DID of a VTA in the REST client, are resolved without it. So
a call keeps to its policy exactly when the logs its resolutions may read are ones the policy
admits: `DefaultLogsListed` for a resolution under the default policy, and `LogsSecure` for one
under the caller's own, where only the plaintext of a local log can be refused.
-/

namespace VtiDidcomm
open Js Effect

/-- Every request of a program goes to a URL that a policy accepts. -/
def Obeys {α : Type} (pf : Platform) (P : NetPolicy) (p : Net α) : Prop :=
  Prog.Safe (fun q => Permits pf P q.url) p.run

variable {T : Type} [LinearOrder T] [Add T] [Zero T] {b : Resolver.Builtin} {C : Crypto}
  {P : NetPolicy}

/-- A policy lists the hosts of the logs that a DID is resolved from under the default policy. -/
def DefaultLogsListed (b : Resolver.Builtin) (P : NetPolicy) (book : SourceBook Nat)
    (did : JsString) : Prop :=
  ∀ w, Resolver.logOf book did = some w →
    ∀ url, Webvh.Fetches b.pf w {} url → HostListed b.pf P url

/-- The logs that a DID is resolved from under a policy are plaintext only where it allows that. -/
def LogsSecure (b : Resolver.Builtin) (P : NetPolicy) (book : SourceBook Nat) (did : JsString) :
    Prop :=
  ∀ w, Resolver.logOf book did = some w →
    ∀ url, Webvh.Fetches b.pf w P url → IsPlaintextUrl b.pf url → P.allowInsecure = true

/-! ## Resolutions -/

/-- A resolution requests URLs that its own log guard admits. -/
lemma obeys_resolve {o : Resolver.Owned T} {times : Resolver.Times T} {did : JsString}
    {netPolicy : Option NetPolicy} :
    Obeys b.pf P (b.resolve o times did { netPolicy }) ↔
      (b.CallsHandler o times did { netPolicy } → ∀ w, Resolver.logOf o.book did = some w →
        ∀ url, Webvh.Fetches b.pf w (netPolicy.getD {}) url → Permits b.pf P url) := by
  unfold Obeys
  rw [Resolver.safe_resolve]
  simp only [Webvh.safe_resolve]
  refine forall_congr' fun _ => forall_congr' fun w => forall_congr' fun _ => ?_
  constructor
  · exact fun h => h none rfl
  · exact fun h time _ => h

/-- A resolution without options obeys a policy that lists its hosts. -/
lemma obeys_resolve_default {o : Resolver.Owned T} {times : Resolver.Times T} {did : JsString} :
    Obeys b.pf P (b.resolve o times did {}) ↔
      (b.CallsHandler o times did {} → DefaultLogsListed b P o.book did) := by
  rw [obeys_resolve]
  refine forall_congr' fun _ => forall₂_congr fun w _ => forall₂_congr fun url hurl => ?_
  obtain ⟨logUrl, hlog, hadmits⟩ := hurl.admits
  exact permits_iff_hostListed rfl (Webvh.fetchPolicy_default hlog) rfl hadmits

/-- What a resolution under the caller's policy requests is plaintext only where the policy allows
it. -/
lemma obeys_resolve_policy {o : Resolver.Owned T} {times : Resolver.Times T} {did : JsString}
    {netPolicy : Option NetPolicy} :
    Obeys b.pf (netPolicy.getD {}) (b.resolve o times did { netPolicy }) ↔
      (b.CallsHandler o times did { netPolicy } →
        LogsSecure b (netPolicy.getD {}) o.book did) := by
  rw [obeys_resolve]
  refine forall_congr' fun _ => forall₂_congr fun w _ => forall₂_congr fun url hurl => ?_
  obtain ⟨logUrl, -, hadmits⟩ := hurl.admits
  exact permits_iff_plaintext rfl rfl rfl hadmits

/-! ## Endpoints -/

variable {α β : Type}

/-- A sequence keeps to a policy with its first part, when its second part always does. -/
lemma obeys_bind_left {p : Net α} {f : α → Net β} (hf : ∀ a, Obeys b.pf P (f a)) :
    Obeys b.pf P (p >>= f) ↔ Obeys b.pf P p :=
  Prog.safe_run_bind_left hf

/-- A return sends nothing. -/
lemma obeys_pure (a : α) : Obeys b.pf P (pure a) := trivial

/-- A check sends nothing. -/
lemma obeys_lift (r : Except JsError α) : Obeys b.pf P (Net.lift r) := safe_lift r

/-- What follows a check obeys a policy for each of its values. -/
lemma obeys_lift_bind {r : Except JsError α} {f : α → Net β} :
    Obeys b.pf P (Net.lift r >>= f) ↔ ∀ a, r = .ok a → Obeys b.pf P (f a) := by
  refine Prog.safe_run_bind.trans ((and_iff_right (obeys_lift r)).trans ?_)
  exact forall_congr' fun a => imp_congr_left returns_lift

/-- What follows a condition obeys it where the condition holds. -/
lemma obeys_check_bind {r : Except JsError Unit} {f : Unit → Net β} :
    Obeys b.pf P (Net.lift r >>= f) ↔ (r = .ok () → Obeys b.pf P (f ())) :=
  obeys_lift_bind.trans ⟨fun h => h (), fun h _ => h⟩

/-- A condition that the others imply can be left out. -/
lemma imp_forall_iff {p : Prop} {q r s : α → Prop} (hp : ∀ a, q a → p)
    (h : ∀ a, q a → (r a ↔ s a)) : (p → ∀ a, q a → r a) ↔ ∀ a, q a → s a :=
  ⟨fun hr a ha => (h a ha).mp (hr (hp a ha) a ha), fun hs _ a ha => (h a ha).mpr (hs a ha)⟩

/-- A post obeys the policy it is under. -/
lemma obeys_postRaw {p : EndpointPolicy} {fetch : GuardedFetch} {who url body : JsString}
    (hs : p.schemes = [js "https:"]) (hfetch : guardedFetch b.pf p = .ok fetch) :
    Obeys b.pf p.toNetPolicy (postRaw b.pf who fetch url body) := by
  cases guardedFetch_eq_ok hfetch
  exact safe_postRaw (safe_netGuardedFetch fun u hu => permits_of_admits (.inl hs) ⟨u, hu⟩)

namespace MediatorAuth

/-- The handshake obeys the policy of the call. -/
lemma obeys_handshake {args : Args} {draw : Draw} {mediator : Mediator} :
    Obeys b.pf args.policy (handshake b C args draw mediator) := by
  apply obeys_lift_bind.mpr
  intro fetch hfetch
  have hpost : ∀ url body, Obeys b.pf args.policy (postRaw b.pf who fetch url body) :=
    fun url body => obeys_postRaw (p := authPolicy args.policy) rfl hfetch
  refine (obeys_bind_left fun challenge => ?_).mpr (hpost _ _)
  refine (obeys_bind_left fun c => ?_).mpr (obeys_lift _)
  refine (obeys_bind_left fun jwe => ?_).mpr (obeys_lift _)
  exact (obeys_bind_left fun auth => obeys_lift _).mpr (hpost _ _)

/-- `authenticateToMediator` keeps to its policy when the logs of the mediator's DID do. -/
lemma obeys_authenticateToMediator {o : Resolver.Owned T} {times : Resolver.Times T} {args : Args}
    {draw : Draw} :
    Obeys b.pf args.policy (authenticateToMediator b C o times args draw) ↔
      (args.check = .ok () → b.CallsHandler o times args.mediatorDid {} →
        DefaultLogsListed b args.policy o.book args.mediatorDid) := by
  refine obeys_check_bind.trans (imp_congr_right fun _ => ?_)
  rw [← obeys_resolve_default, obeys_bind_left]
  · apply obeys_bind_left
    intro r
    refine (obeys_bind_left fun didDocument => ?_).mpr (obeys_lift _)
    exact (obeys_bind_left fun mediator => obeys_pure _).mpr (obeys_lift _)
  · exact fun r => (obeys_bind_left fun auth => obeys_pure _).mpr obeys_handshake

end MediatorAuth

namespace VtaRestAuth

/-- The guard of a context is that of the caller's policy. -/
lemma buildContext_eq_ok {args : Args} {ctx : Context} (h : buildContext b.pf args = .ok ctx) :
    assertNonEmptyString who (js "clientDid") args.clientDid = .ok () ∧
      guardedFetch b.pf (restPolicy args.policy) = .ok ctx.fetchFn ∧ ctx.vtaDid = args.vtaDid := by
  unfold buildContext at h
  obtain ⟨_, -, h⟩ := bind_eq_ok.mp h
  obtain ⟨_, -, h⟩ := bind_eq_ok.mp h
  obtain ⟨⟨⟩, hclient, h⟩ := bind_eq_ok.mp h
  obtain ⟨_, -, h⟩ := bind_eq_ok.mp h
  obtain ⟨_, -, h⟩ := bind_eq_ok.mp h
  obtain ⟨_, -, h⟩ := bind_eq_ok.mp h
  obtain ⟨fetchFn, hfetch, h⟩ := bind_eq_ok.mp h
  cases h
  exact ⟨hclient, hfetch, rfl⟩

/-- A packed post keeps to the policy of its context when the logs of the VTA's DID do. -/
lemma obeys_packAndPost {o : Resolver.Owned T} {times : Resolver.Times T} {args : Args}
    {ctx : Context} {draw : Draw} {path type : JsString} {body : Json}
    (hctx : buildContext b.pf args = .ok ctx) :
    Obeys b.pf args.policy (packAndPost b C o times ctx draw path type body) ↔
      (b.CallsHandler o times args.vtaDid {} →
        DefaultLogsListed b args.policy o.book args.vtaDid) := by
  obtain ⟨-, hfetch, hvta⟩ := buildContext_eq_ok hctx
  rw [← hvta, ← obeys_resolve_default]
  unfold packAndPost
  rw [obeys_bind_left]
  · apply obeys_bind_left
    intro r
    refine (obeys_bind_left fun didDocument => ?_).mpr (obeys_lift _)
    exact (obeys_bind_left fun recipient => obeys_pure _).mpr (obeys_lift _)
  · refine fun r => (obeys_bind_left fun jwe => ?_).mpr (obeys_lift _)
    apply (obeys_bind_left fun response => obeys_pure _).mpr
    exact obeys_postRaw (p := restPolicy args.policy) rfl hfetch

/-- `refresh` keeps to its policy when the logs of the VTA's DID do. -/
lemma obeys_refresh {o : Resolver.Owned T} {times : Resolver.Times T} {args : Args}
    {refreshToken : JsString} {draw : Draw} :
    Obeys b.pf args.policy (refresh b C o times args refreshToken draw) ↔
      (refreshToken ≠ [] → ∀ ctx, buildContext b.pf args = .ok ctx →
        b.CallsHandler o times args.vtaDid {} →
        DefaultLogsListed b args.policy o.book args.vtaDid) := by
  unfold refresh
  have htoken : assertNonEmptyString who (js "refreshToken") refreshToken = .ok () ↔
      refreshToken ≠ [] := require_eq_ok
  refine obeys_check_bind.trans (imp_congr htoken ?_)
  refine obeys_lift_bind.trans (forall₂_congr fun ctx hctx => ?_)
  rw [← obeys_packAndPost hctx]
  exact obeys_bind_left fun auth => (obeys_bind_left fun tokens => obeys_pure _).mpr (obeys_lift _)

/-- `authenticate` keeps to its policy when the logs of the VTA's DID do, once a challenge has been
answered. -/
lemma obeys_authenticate {o : Resolver.Owned T} {times : Resolver.Times T} {args : Args}
    {draw : Draw} :
    Obeys b.pf args.policy (authenticate b C o times args draw) ↔
      ∀ ctx, buildContext b.pf args = .ok ctx →
        ∀ c, Prog.Returns (requestChallenge b.pf ctx).run (.ok c) →
        b.CallsHandler o times args.vtaDid {} →
        DefaultLogsListed b args.policy o.book args.vtaDid := by
  have hclient : ∀ ctx, buildContext b.pf args = .ok ctx →
      assertNonEmptyString who (js "clientDid") args.clientDid = .ok () :=
    fun ctx hctx => (buildContext_eq_ok hctx).1
  refine obeys_check_bind.trans ((imp_congr_right fun _ => obeys_lift_bind).trans ?_)
  apply imp_forall_iff hclient
  intro ctx hctx
  have hchallenge : Obeys b.pf args.policy (requestChallenge b.pf ctx) :=
    (obeys_bind_left fun challenge => obeys_lift _).mpr
      (obeys_postRaw (p := restPolicy args.policy) rfl (buildContext_eq_ok hctx).2.1)
  refine Prog.safe_run_bind.trans ((and_iff_right hchallenge).trans ?_)
  apply forall₂_congr
  intro c _
  rw [← obeys_packAndPost hctx]
  exact obeys_bind_left fun auth => (obeys_bind_left fun tokens => obeys_pure _).mpr (obeys_lift _)

end VtaRestAuth

namespace VtaDidcomm

/-- The session dials an endpoint the policy accepts. -/
lemma obeys_openSession {args : Args} {draw : Draw} {vta : AgreementKey}
    {auth : MediatorAuth.Auth} :
    Obeys b.pf args.policy (openSession b C args draw vta auth) := by
  refine (obeys_bind_left fun vtaJwk => ?_).mpr (obeys_lift _)
  refine (obeys_bind_left fun endpoint => ?_).mpr (obeys_lift _)
  refine (obeys_bind_left fun mediatorJwk => ?_).mpr (obeys_lift _)
  refine (obeys_bind_left fun _ => ?_).mpr ?_
  · exact (obeys_bind_left fun packed => obeys_pure _).mpr (obeys_lift _)
  · refine obeys_lift_bind.mpr fun u hu => (obeys_bind_left fun _ => obeys_pure _).mpr ?_
    exact (safe_send _).mpr (permits_of_admits (p := wsPolicy args.policy) (.inr rfl) ⟨u, hu⟩)

/-- The authentication is under the policy of the call. -/
lemma policy_auth (args : Args) : args.auth.policy = args.policy := by
  unfold MediatorAuth.Args.policy Args.policy Args.auth
  cases args.netPolicy <;> rfl

/-- A key is resolved under the policy that is given. -/
lemma obeys_resolveX25519KeyAgreement {o : Resolver.Owned T} {times : Resolver.Times T}
    {did : JsString} {netPolicy : Option NetPolicy} :
    Obeys b.pf (netPolicy.getD {}) (resolveX25519KeyAgreement b o times did netPolicy) ↔
      (b.CallsHandler o times did { netPolicy } →
        LogsSecure b (netPolicy.getD {}) o.book did) := by
  rw [← obeys_resolve_policy]
  refine obeys_bind_left fun r => (obeys_bind_left fun didDocument => ?_).mpr (obeys_lift _)
  exact (obeys_bind_left fun key => obeys_pure _).mpr (obeys_lift _)

/-- A sender's key is resolved under the policy of the call. -/
lemma obeys_resolveSender {o : Resolver.Owned T} {times : Resolver.Times T} {args : Args}
    {did skid : JsString} :
    Obeys b.pf args.policy (resolveSender b o times args did skid) ↔
      (b.CallsHandler o times did { netPolicy := args.netPolicy } →
        LogsSecure b args.policy o.book did) := by
  rw [Args.policy, ← obeys_resolve_policy]
  refine (obeys_bind_left fun key => ?_).trans ?_
  · exact (obeys_bind_left fun jwk => obeys_pure _).mpr (obeys_lift _)
  · refine obeys_bind_left fun r => (obeys_bind_left fun didDocument => ?_).mpr (obeys_lift _)
    exact (obeys_bind_left fun key => obeys_pure _).mpr (obeys_lift _)

/-- `connectVtaViaMediator` keeps to its policy when the logs of the two DIDs do, those of the
mediator's once the VTA's key has been found. -/
lemma obeys_connectVtaViaMediator {o : Resolver.Owned T} {times : ConnectTimes T} {args : Args}
    {draws : ConnectDraws} :
    Obeys b.pf args.policy (connectVtaViaMediator b C o times args draws) ↔
      (b.CallsHandler o times.vta args.vtaDid { netPolicy := args.netPolicy } →
        LogsSecure b args.policy o.book args.vtaDid) ∧
      ∀ vta o', Prog.Returns
          (resolveX25519KeyAgreement b o times.vta args.vtaDid args.netPolicy).run (.ok (vta, o')) →
        args.auth.check = .ok () → b.CallsHandler o' times.mediator args.mediatorDid {} →
        DefaultLogsListed b args.policy o'.book args.mediatorDid := by
  refine Prog.safe_run_bind.trans (and_congr obeys_resolveX25519KeyAgreement ?_)
  refine Prod.forall.trans (forall₂_congr fun vta o' => imp_congr_right fun _ => ?_)
  have hauth : Obeys b.pf args.auth.policy
      (MediatorAuth.authenticateToMediator b C o' times.mediator args.auth draws.auth) ↔ _ :=
    MediatorAuth.obeys_authenticateToMediator
  rw [policy_auth] at hauth
  rw [← show args.auth.mediatorDid = args.mediatorDid from rfl, ← hauth]
  exact obeys_bind_left fun r => (obeys_bind_left fun c => obeys_pure _).mpr obeys_openSession

end VtaDidcomm

/-! ## From a fresh resolver -/

omit [Add T] in
/-- On a fresh resolver every DID with a log is resolved by its handler. -/
lemma callsHandler_imp_iff {o : Resolver.Owned T} (h : Resolver.IsFresh o)
    {times : Resolver.Times T} {did : JsString} {options : ResolveOptions}
    {φ : JsString → Prop} :
    (b.CallsHandler o times did options → ∀ w, Resolver.logOf o.book did = some w → φ w) ↔
      ∀ w, Resolver.logOf o.book did = some w → φ w := by
  refine ⟨fun hc w hw => ?_, fun hw _ => hw⟩
  obtain ⟨method, hm, hmem⟩ := Resolver.hasMethod_of_logOf hw
  exact hc (h.callsHandler hm hmem) w hw

/-- From a resolver with an empty cache, a call keeps to the policy it is given exactly when the
logs its resolutions read do: those of the mediator's DID, and of the VTA's DID in the REST client,
are read under the default policy and must be listed; those of the VTA's DID of a connection, and of
an inbound sender, must not be plaintext that the policy does not allow. -/
theorem obeys_netPolicy_iff (b : Resolver.Builtin) (C : Crypto) (ttl now : T)
    (book : SourceBook Nat) :
    (∀ times (args : MediatorAuth.Args) draw,
      Obeys b.pf args.policy
          (MediatorAuth.authenticateToMediator b C ⟨Resolver.init ttl now, book⟩ times args draw) ↔
        (args.check = .ok () → DefaultLogsListed b args.policy book args.mediatorDid)) ∧
    (∀ times (args : VtaRestAuth.Args) refreshToken draw,
      Obeys b.pf args.policy
          (VtaRestAuth.refresh b C ⟨Resolver.init ttl now, book⟩ times args refreshToken draw) ↔
        (refreshToken ≠ [] → ∀ ctx, VtaRestAuth.buildContext b.pf args = .ok ctx →
          DefaultLogsListed b args.policy book args.vtaDid)) ∧
    (∀ times (args : VtaRestAuth.Args) draw,
      Obeys b.pf args.policy
          (VtaRestAuth.authenticate b C ⟨Resolver.init ttl now, book⟩ times args draw) ↔
        ∀ ctx, VtaRestAuth.buildContext b.pf args = .ok ctx →
          ∀ c, Prog.Returns (VtaRestAuth.requestChallenge b.pf ctx).run (.ok c) →
          DefaultLogsListed b args.policy book args.vtaDid) ∧
    (∀ times (args : VtaDidcomm.Args) draws,
      Obeys b.pf args.policy
          (VtaDidcomm.connectVtaViaMediator b C ⟨Resolver.init ttl now, book⟩ times args draws) ↔
        LogsSecure b args.policy book args.vtaDid ∧
        ∀ vta o', Prog.Returns (VtaDidcomm.resolveX25519KeyAgreement b
            ⟨Resolver.init ttl now, book⟩ times.vta args.vtaDid args.netPolicy).run
            (.ok (vta, o')) →
          args.auth.check = .ok () → b.CallsHandler o' times.mediator args.mediatorDid {} →
          DefaultLogsListed b args.policy o'.book args.mediatorDid) ∧
    (∀ o times (args : VtaDidcomm.Args) did skid,
      Obeys b.pf args.policy (VtaDidcomm.resolveSender (T := T) b o times args did skid) ↔
        (b.CallsHandler o times did { netPolicy := args.netPolicy } →
          LogsSecure b args.policy o.book did)) := by
  -- with an empty cache, what is resolved is what a handler is called for
  have hfresh : Resolver.IsFresh ⟨Resolver.init ttl now, book⟩ := Resolver.isFresh_init ttl now book
  refine ⟨fun times args draw => ?_, fun times args refreshToken draw => ?_,
    fun times args draw => ?_, fun times args draws => ?_, fun o times args did skid => ?_⟩
  · rw [MediatorAuth.obeys_authenticateToMediator]
    exact imp_congr_right fun _ => callsHandler_imp_iff hfresh
  · rw [VtaRestAuth.obeys_refresh]
    exact imp_congr_right fun _ => forall₂_congr fun ctx _ => callsHandler_imp_iff hfresh
  · rw [VtaRestAuth.obeys_authenticate]
    exact forall₂_congr fun ctx _ => forall₂_congr fun c _ => callsHandler_imp_iff hfresh
  · rw [VtaDidcomm.obeys_connectVtaViaMediator]
    exact and_congr_left fun _ => callsHandler_imp_iff hfresh
  · exact VtaDidcomm.obeys_resolveSender

/-- A resolver on a plain platform that knows no log and resolves no offline DID. -/
def Resolver.Builtin.plain : Resolver.Builtin where
  pf := Platform.plain
  verify _ _ := .error (error (js "the log does not verify"))
  didKey _ := .error (error (js "not a did:key"))
  didPeer _ := .error (error (js "not a did:peer"))
  limit := 500

/-- A call that expects one mediator host, for a mediator DID at another. -/
def strayMediator : MediatorAuth.Args where
  mediatorDid := js "did:webvh:QmScid:other.example"
  clientDid := js "did:key:z6LSclient"
  clientX25519Private := List.replicate 32 1
  clientX25519Public := List.replicate 32 1
  netPolicy := some { allowHosts := some [js "mediator.example"] }

/-- The log of that mediator's DID. -/
def otherLog : Url where
  href := js "https://other.example/.well-known/did.jsonl"
  protocol := js "https:"
  username := []
  password := []
  host := js "other.example"
  hostname := js "other.example"
  port := []
  pathname := js "/.well-known/did.jsonl"

/-- What the calls of an example draw. -/
def someDraw : Draw where
  uuid := js "00000000-0000-4000-8000-000000000000"
  now := 0
  entropy :=
    { ephemeralPrivate := fun _ => [], ephemeralPublic := fun _ => [], cek := [], iv := [] }

/-- The log of a mediator's DID is fetched from a host that `allowHosts` does not list. -/
theorem mediator_log_not_listed :
    ¬ Obeys Resolver.Builtin.plain.pf strayMediator.policy
      (MediatorAuth.authenticateToMediator Resolver.Builtin.plain Crypto.sample
        ⟨Resolver.init 300000 0, ⟨1, .empty, by decide, by decide⟩⟩ ⟨(0 : Int), 0⟩ strayMediator
        someDraw) := by
  intro h
  have hlogs := MediatorAuth.obeys_authenticateToMediator.mp h rfl
    ((Resolver.isFresh_init _ _ _).callsHandler rfl (by decide))
  have hlog : Webvh.webvhLogUrl Platform.plain strayMediator.mediatorDid {} Webvh.logLabel =
      .ok otherLog := rfl
  have hlisted := hlogs strayMediator.mediatorDid (by decide) otherLog.href
    (.log hlog ⟨otherLog, rfl⟩)
  have hhost : Platform.plain.parseUrl otherLog.href = some otherLog := rfl
  have hlist : normalizeAllowHosts Platform.plain strayMediator.policy.allowHosts =
      .ok (some [.exact (js "mediator.example")]) := rfl
  obtain ⟨u, hu, allowList, hallow, hrules⟩ := hlisted
  cases hhost.symm.trans hu
  exact absurd (hrules _ (Except.ok.inj (hallow.symm.trans hlist))) (by decide)

end VtiDidcomm
