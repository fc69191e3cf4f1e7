import Moonkit.Base.Currency
import Moonkit.PrecompilesMock
import Moonkit.ProxyPrecompile

/-!
# Calls in the name of another

A request that answers registers, takes back, or makes one subcall under a definition that the
pallet holds (`request_does`). What such steps keep is kept by every nesting of frames
(`Stable.run`). So the precompile makes calls in the name of an account only for delegates the
account has then, and where delegates are registered through it alone, each has one proxy type.
-/

namespace Moonkit

namespace Proxy

open Precompile

variable {A T P W E M : Type} {max : ℕ} {cfg : Config A T P W E M max}

section Requests

variable (cfg) in
/-- The definition allows the subcall: who asked for it is its delegate, without delay; the filter
of its type lets the subcall pass; who asked has got back what came with the request; and the
subcall is made and paid in the name of the account. -/
structure Permitted (real : A) (d : ProxyDefinition A T) (u : Proxied A T W) : Prop where
  real : cfg.intoAccountId u.call.context.caller = real
  delegate : d.delegate = cfg.intoAccountId u.context.caller
  announced : d.delay = 0
  eoa : cfg.addressType u.world u.call.context.caller = .eoa
  allowed : cfg.isEvmProxyCallAllowed d.proxyType u.subCall
    (0 < cfg.accountCodeLen u.world u.subCall.to_) u.gas = .ok true
  sentBack : u.subCall.value.val = 0 ∧ u.start = u.world ∨
    ∃ balance : Uint max, balance.val = u.subCall.value.val ∧
      cfg.transferAllowDeath u.world (cfg.intoAccountId u.context.address)
        (cfg.intoAccountId u.context.caller) balance = .ok u.start
  value : u.subCall.value = u.context.apparentValue
  context : u.call.context = ⟨u.subCall.to_, u.call.context.caller, u.subCall.value⟩
  code : u.call.codeAddress = u.subCall.to_ ∧ u.call.input = u.subCall.callData.val
  transfer : u.call.transfer = if u.subCall.value.val = 0 then none
    else some ⟨u.call.context.caller, u.subCall.to_, u.subCall.value⟩

theorem sendBack_eq_ok {ctx : Context} {real : H160} {sub : EvmSubCall} {s : State A T P W} {m : M}
    {t : Option Transfer} {p' : State A T P W × M}
    (h : sendBack cfg ctx real sub (s, m) = (.ok t, p')) :
    t = (if sub.value.val = 0 then none else some ⟨real, sub.to_, sub.value⟩) ∧
      ∃ w, p'.1 = { s with world := w } ∧
        (sub.value.val = 0 ∧ w = s.world ∨ ∃ balance : Uint max, balance.val = sub.value.val ∧
          cfg.transferAllowDeath s.world (cfg.intoAccountId ctx.address)
            (cfg.intoAccountId ctx.caller) balance = .ok w) := by
  unfold sendBack at h
  split_ifs at h with hzero
  · simp only [Call.pure_apply, Prod.mk.injEq, Outcome.ok.injEq] at h
    obtain ⟨rfl, rfl⟩ := h
    exact ⟨(if_pos hzero).symm, s.world, rfl, .inl ⟨hzero, rfl⟩⟩
  · obtain ⟨balance, hbalance, h⟩ := Call.okOr_bind_eq_ok.1 h
    obtain ⟨u, p₁, hdispatch, h⟩ := Call.bind_eq_ok.1 h
    have hstate := tryDispatch_eq_ok hdispatch
    obtain ⟨w, htransfer, hp⟩ := exceptMap_eq_ok.1 hstate
    simp only [Call.pure_apply, Prod.mk.injEq, Outcome.ok.injEq] at h
    obtain ⟨rfl, rfl⟩ := h
    exact ⟨(if_neg hzero).symm, w, hp.symm, .inr ⟨balance, U256.tryInto_eq_some.1 hbalance,
      htransfer⟩⟩

/-- A proxied call that answers made one subcall, which succeeded, under a definition of the pallet
for the caller, of the forced type if there is one. -/
theorem innerProxy_eq_ok {ctx : Context} {call : HandleCall A T P W} {real : H160}
    {force : Option T} {sub : EvmSubCall} {s : State A T P W} {m : M} {p' : State A T P W × M}
    {v : Unit} (hvalue : sub.value = ctx.apparentValue)
    (h : innerProxy cfg ctx call real force sub (s, m) = (.ok v, p')) :
    ∃ u, u.definition ∈ cfg.pallet.proxies s.proxies u.real ∧
      Permitted cfg u.real u.definition u ∧ u.real = cfg.intoAccountId real ∧ u.context = ctx ∧
      (∀ t ∈ force, u.definition.proxyType = t) ∧
      (call u { s with world := u.start }).1.1 = .succeed ∧
      p'.1 = (call u { s with world := u.start }).2 ∧
      ∃ m₁ m₂, cfg.metering.recordDbRead (28 + 29 * cfg.maxProxies + 8) m₁ = .ok m₂ := by
  unfold innerProxy at h
  rw [storage_bind] at h
  obtain ⟨m₁, -, h⟩ := meter_bind_eq_ok.1 h
  obtain ⟨heoa, h⟩ := Call.ensure_bind_eq_ok.1 h
  obtain ⟨m₂, hread, h⟩ := meter_bind_eq_ok.1 h
  obtain ⟨d, hd, h⟩ := Call.okOr_bind_eq_ok.1 h
  obtain ⟨hdelay, h⟩ := Call.ensure_bind_eq_ok.1 h
  obtain ⟨m₃, -, h⟩ := meter_bind_eq_ok.1 h
  rw [Call.get_bind] at h
  obtain ⟨allowed, hallowed, h⟩ := Call.lift_bind_eq_ok.1 h
  obtain ⟨htrue, h⟩ := Call.ensure_bind_eq_ok.1 h
  rw [htrue] at hallowed
  obtain ⟨transfer, ⟨s₄, m₄⟩, hsend, h⟩ := Call.bind_eq_ok.1 h
  obtain ⟨htransfer, w, hs₄, hback⟩ := sendBack_eq_ok hsend
  obtain rfl : s₄ = { s with world := w } := hs₄
  rw [Call.get_bind] at h
  obtain ⟨⟨reason, output⟩, p₅, hsub, h⟩ := Call.bind_eq_ok.1 h
  simp only [handleCall, Prod.mk.injEq, Outcome.ok.injEq] at hsub
  obtain ⟨hreason, rfl⟩ := hsub
  have hfind : cfg.pallet.findProxy s.proxies (cfg.intoAccountId real)
      (cfg.intoAccountId ctx.caller) force = .ok d := by
    revert hd
    rcases cfg.pallet.findProxy s.proxies (cfg.intoAccountId real)
      (cfg.intoAccountId ctx.caller) force with e | d' <;> simp [Except.toOption]
  obtain ⟨hmem, hdelegate, htype⟩ := cfg.pallet.findProxy_ok hfind
  refine ⟨⟨cfg.intoAccountId real, d, ctx, sub, s.world, cfg.metering.remainingGas m₃, w,
      ⟨sub.to_, transfer, sub.callData.val, some (cfg.metering.remainingGas m₄), false,
        ⟨sub.to_, real, sub.value⟩⟩⟩, hmem,
    ⟨rfl, hdelegate, hdelay, heoa, Outcome.ofExcept_eq_ok.1 hallowed, hback, hvalue, rfl,
      ⟨rfl, rfl⟩, htransfer⟩,
    rfl, rfl, htype, ?_⟩
  cases reason with
  | succeed =>
    simp only [ExitReason.failure, Call.pure_apply, Prod.mk.injEq] at h
    exact ⟨congrArg Prod.fst hreason, h.2 ▸ rfl, m₁, m₂, hread⟩
  | error e => simp [ExitReason.failure, Call.err] at h
  | revert => simp [ExitReason.failure, Call.err] at h
  | fatal f => simp [ExitReason.failure, Call.err] at h

variable [DecidableEq A] [DecidableEq T]

variable (cfg) in
/-- What the precompile sees to before it calls the pallet: a delegate to register has no definition
yet, and its type is one that is decoded. -/
def Vetted (s : State A T P W) (who : A) (c : ProxyCall A T) : Prop :=
  ∀ delegate type n, c = .addProxy delegate type n →
    (∃ t, cfg.decodeProxyType t = some type) ∧
      ∀ pd ∈ cfg.pallet.proxies s.proxies who, pd.delegate ≠ delegate

variable (cfg) in
/-- What a request does to storage. -/
inductive Does (call : HandleCall A T P W) (s : State A T P W) : State A T P W → Prop
  | stays : Does call s s
  | dispatches {who : A} {c : ProxyCall A T} {s' : State A T P W} (hvetted : Vetted cfg s who c)
      (hok : dispatchProxy cfg who c s = .ok s') : Does call s s'
  | calls {u : Proxied A T W} (hmem : u.definition ∈ cfg.pallet.proxies s.proxies u.real)
      (hpermitted : Permitted cfg u.real u.definition u)
      (hexit : (call u { s with world := u.start }).1.1 = .succeed) :
      Does call s (call u { s with world := u.start }).2

theorem isProxy_eq_ok {real delegate : H160} {proxyType : UInt8} {delay : U32}
    {s : State A T P W} {m : M} {b : Bool} {p' : State A T P W × M}
    (h : isProxy cfg real delegate proxyType delay (s, m) = (.ok b, p')) :
    p'.1 = s ∧ ∃ t, cfg.decodeProxyType proxyType = some t ∧
      (b = true ↔ ⟨cfg.intoAccountId delegate, t, delay⟩ ∈
        cfg.pallet.proxies s.proxies (cfg.intoAccountId real)) := by
  unfold isProxy at h
  obtain ⟨t, ht, h⟩ := Call.okOr_bind_eq_ok.1 h
  obtain ⟨m₁, -, h⟩ := meter_bind_eq_ok.1 h
  rw [storage_bind, Call.pure_apply, Prod.mk.injEq, Outcome.ok.injEq] at h
  obtain ⟨rfl, rfl⟩ := h
  refine ⟨rfl, t, ht, ?_⟩
  simp only [List.any_eq_true, decide_eq_true_eq]
  constructor
  · rintro ⟨⟨_, _, _⟩, hmem, rfl, rfl, rfl⟩
    exact hmem
  · exact fun hmem => ⟨_, hmem, rfl, rfl, rfl⟩

/-- `isProxy` answers wherever the read of the definitions can be paid. -/
theorem isProxy_answers {real delegate : H160} {t : UInt8} {type : T} {delay : U32}
    {s : State A T P W} {m m' : M} (htype : cfg.decodeProxyType t = some type)
    (hread : cfg.metering.recordDbRead (28 + 29 * cfg.maxProxies + 8) m = .ok m') :
    ∃ b p, isProxy cfg real delegate t delay (s, m) = (.ok b, p) :=
  ⟨_, _, Call.okOr_bind_eq_ok.2 ⟨type, htype, meter_bind_eq_ok.2 ⟨m', hread, rfl⟩⟩⟩

theorem request_does {ctx : Context} {call : HandleCall A T P W} {request : Request}
    {s : State A T P W} {m : M} {p' : State A T P W × M} {v : Unit}
    (h : request.run cfg ctx call (s, m) = (.ok v, p')) : Does cfg call s p'.1 := by
  cases request with
  | addProxy delegate proxyType delay =>
    simp only [Request.run, addProxy] at h
    obtain ⟨type, htype, h⟩ := Call.okOr_bind_eq_ok.1 h
    obtain ⟨m₁, -, h⟩ := meter_bind_eq_ok.1 h
    rw [storage_bind] at h
    obtain ⟨hnone, h⟩ := Call.ensure_bind_eq_ok.1 h
    refine .dispatches ?_ (tryDispatch_eq_ok h)
    rintro _ _ _ ⟨⟩
    exact ⟨⟨proxyType, htype⟩, fun pd hpd heq =>
      hnone (List.any_eq_true.2 ⟨pd, hpd, decide_eq_true heq⟩)⟩
  | removeProxy delegate proxyType delay =>
    simp only [Request.run, removeProxy] at h
    obtain ⟨t, -, h⟩ := Call.okOr_bind_eq_ok.1 h
    exact .dispatches (fun _ _ _ hc => by cases hc) (tryDispatch_eq_ok h)
  | removeProxies => exact .dispatches (fun _ _ _ hc => by cases hc) (tryDispatch_eq_ok h)
  | proxy real callTo callData =>
    obtain ⟨u, hmem, hpermitted, -, -, -, hexit, hp, -⟩ := innerProxy_eq_ok rfl h
    rw [hp]
    exact .calls hmem hpermitted hexit
  | proxyForceType real forceProxyType callTo callData =>
    obtain ⟨t, -, h⟩ := Call.okOr_bind_eq_ok.1 h
    obtain ⟨u, hmem, hpermitted, -, -, -, hexit, hp, -⟩ := innerProxy_eq_ok rfl h
    rw [hp]
    exact .calls hmem hpermitted hexit
  | isProxy real delegate proxyType delay =>
    obtain ⟨b, hb⟩ := Call.exists_of_drop h
    rw [(isProxy_eq_ok hb).1]
    exact .stays

end Requests

section Runs

/-- The storage a subcall starts from, with the subcall noted. -/
def noted (s : State A T P W) (u : Proxied A T W) : State A T P W :=
  { s with log := s.log ++ [.used u.real u.definition u] }

variable (cfg) in
/-- The property is kept by whatever a frame does to storage. -/
structure Stable (I : State A T P W → Prop) : Prop where
  world : ∀ {s} w, I s → I { s with world := w }
  dispatch : ∀ {s s' who c}, I s → dispatchProxy cfg who c s = .ok s' → Vetted cfg s who c → I s'
  use : ∀ {s} u, I s → u.definition ∈ cfg.pallet.proxies s.proxies u.real →
    Permitted cfg u.real u.definition u → I (noted s u)

theorem ended_keeps {I : State A T P W → Prop} {s t : State A T P W} (exit : ExitReason)
    (hs : I s) (ht : I t) : I (ended exit s t) := by
  unfold ended
  split_ifs
  · exact ht
  · exact hs

variable [DecidableEq A] [DecidableEq T]

theorem Stable.run {I : State A T P W → Prop} (hI : Stable cfg I) :
    ∀ (activity : Activity W M) {s : State A T P W}, I s → I (run cfg activity s)
  | .done, _, hs => hs
  | .frame inner exit next, _, hs => hI.run next (ended_keeps exit hs (hI.run inner hs))
  | .elsewhere f next, s, hs => hI.run next (hI.world (f s.world) hs)
  | .request ctx gas request inner exit output next, s, hs => by
    refine hI.run next ?_
    -- the request answers, with what its subcall left, or nothing of it is left
    rcases Call.transactional_cases (request.run cfg ctx _) (s, gas) with
      ⟨v, p', hok, htrans⟩ | ⟨-, htrans⟩
    · rw [htrans]
      have hdoes := request_does hok
      show I p'.1
      generalize p'.1 = t at hdoes ⊢
      cases hdoes with
      | stays => exact hs
      | dispatches hvetted hdispatch => exact hI.dispatch hs hdispatch hvetted
      | @calls u hmem hpermitted hexit =>
        simp only [ended, if_pos (show exit = .succeed from hexit)]
        exact hI.run inner (hI.use u (hI.world u.start hs) hmem hpermitted)
    · rw [htrans]
      exact hs

variable (cfg) in
def Good (s : State A T P W) : Prop :=
  Grants.Kept (Permitted cfg) (cfg.pallet.proxies s.proxies) s.log

omit [DecidableEq A] [DecidableEq T] in
theorem dispatchProxy_eq_ok {who : A} {c : ProxyCall A T} {s s' : State A T P W}
    (h : dispatchProxy cfg who c s = .ok s') :
    cfg.pallet.dispatch (s.proxies, s.world) who c = .ok (s'.proxies, s'.world) ∧
      s'.log = s.log ++ [c.entry who] := by
  obtain ⟨⟨p, w⟩, hok, rfl⟩ := exceptMap_eq_ok.1 h
  exact ⟨hok, rfl⟩

theorem Good.dispatch {who : A} {c : ProxyCall A T} {s s' : State A T P W} (hs : Good cfg s)
    (h : dispatchProxy cfg who c s = .ok s') : Good cfg s' := by
  obtain ⟨hok, hlog⟩ := dispatchProxy_eq_ok h
  have hother := cfg.pallet.other hok
  unfold Good
  rw [hlog]
  cases c with
  | addProxy delegate t n => exact Grants.Kept.grant hs (cfg.pallet.add_self hok) hother
  | removeProxy delegate t n => exact Grants.Kept.revoke hs (cfg.pallet.remove_self hok) hother
  | removeProxies => exact Grants.Kept.clear hs (cfg.pallet.clear_self hok) hother

/-- What is kept by frames, and by the extrinsics of a run, holds along the run. -/
theorem Stable.of_run {I : State A T P W → Prop} (hI : Stable cfg I)
    {allow : List (Machine.Event (State A T P W) (Op A T W M) Unit) → State A T P W →
      Op A T W M → Prop}
    (hgenesis : ∀ s, (machine (M := M) cfg).genesis s → I s)
    (hextrinsic : ∀ h s s' who c, allow h s (.extrinsic who c) → I s →
      dispatchProxy cfg who c s = .ok s' → I s')
    {h : List (Machine.Event (State A T P W) (Op A T W M) Unit)} {s : State A T P W}
    (hr : (machine cfg).Run allow h s) : I s := by
  refine hr.invariant (fun _ t => I t) hgenesis ?_
  rintro h t (activity | ⟨who, c⟩) - ht hallow
  · exact hI.run activity ht
  · show I ((dispatchProxy cfg who c t).toOption.getD t)
    rcases hd : dispatchProxy cfg who c t with e | t'
    · exact ht
    · exact hextrinsic h t t' who c hallow ht hd

theorem Good.genesis {s : State A T P W} (h : (machine (M := M) cfg).genesis s) : Good cfg s := by
  obtain ⟨hnone, hlog⟩ := h
  unfold Good
  rw [hlog]
  exact ⟨fun a => by rw [hnone a]; exact .refl _, Grants.authorized_nil⟩

end Runs

section Types

variable (cfg) in
def Distinct (s : State A T P W) : Prop :=
  ∀ a, ((cfg.pallet.proxies s.proxies a).map ProxyDefinition.delegate).Nodup

theorem Distinct.dispatch {who : A} {c : ProxyCall A T} {s s' : State A T P W}
    (hs : Distinct cfg s) (h : dispatchProxy cfg who c s = .ok s') (hc : Vetted cfg s who c) :
    Distinct cfg s' := by
  have hok := (dispatchProxy_eq_ok h).1
  intro a
  by_cases ha : a = who
  · subst ha
    cases c with
    | addProxy delegate t n =>
      rw [((cfg.pallet.add_self hok).map _).nodup_iff, List.map_cons, List.nodup_cons]
      refine ⟨fun hmem => ?_, hs a⟩
      obtain ⟨pd, hpd, heq⟩ := List.mem_map.1 hmem
      exact (hc delegate t n rfl).2 pd hpd heq
    | removeProxy delegate t n =>
      have hnodup := hs a
      rw [((cfg.pallet.remove_self hok).map _).nodup_iff, List.map_cons, List.nodup_cons] at hnodup
      exact hnodup.2
    | removeProxies =>
      rw [show cfg.pallet.proxies s'.proxies a = [] from cfg.pallet.clear_self hok]
      exact List.nodup_nil
  · rw [show cfg.pallet.proxies s'.proxies a = _ from cfg.pallet.other hok a ha]
    exact hs a

variable (cfg) in
/-- The type of every definition is one that is decoded. -/
def Encoded (s : State A T P W) : Prop :=
  ∀ a, ∀ d ∈ cfg.pallet.proxies s.proxies a, ∃ t, cfg.decodeProxyType t = some d.proxyType

theorem Encoded.dispatch {who : A} {c : ProxyCall A T} {s s' : State A T P W} (hs : Encoded cfg s)
    (h : dispatchProxy cfg who c s = .ok s') (hc : Vetted cfg s who c) : Encoded cfg s' := by
  have hok := (dispatchProxy_eq_ok h).1
  intro a d hd
  by_cases ha : a = who
  · subst ha
    cases c with
    | addProxy delegate t n =>
      rcases List.mem_cons.1 ((cfg.pallet.add_self hok).subset hd) with rfl | hold
      · exact (hc delegate t n rfl).1
      · exact hs a d hold
    | removeProxy delegate t n =>
      exact hs a d ((cfg.pallet.remove_self hok).symm.subset (List.mem_cons_of_mem _ hd))
    | removeProxies =>
      rw [show cfg.pallet.proxies s'.proxies a = [] from cfg.pallet.clear_self hok] at hd
      cases hd
  · rw [show cfg.pallet.proxies s'.proxies a = _ from cfg.pallet.other hok a ha] at hd
    exact hs a d hd

variable (cfg) in
/-- What registrations through the precompile alone lead to: one definition of a delegate, of a type
that is decoded. -/
structure Registered (s : State A T P W) : Prop where
  distinct : Distinct cfg s
  encoded : Encoded cfg s

theorem Registered.dispatch {who : A} {c : ProxyCall A T} {s s' : State A T P W}
    (hs : Registered cfg s) (h : dispatchProxy cfg who c s = .ok s') (hc : Vetted cfg s who c) :
    Registered cfg s' :=
  ⟨hs.distinct.dispatch h hc, hs.encoded.dispatch h hc⟩

theorem stable_registered : Stable cfg (Registered cfg) where
  world _ hs := ⟨hs.distinct, hs.encoded⟩
  dispatch hs h hc := hs.dispatch h hc
  use _ hs _ _ := ⟨hs.distinct, hs.encoded⟩

theorem Distinct.eq {s : State A T P W} (hs : Distinct cfg s) {a : A} {d d' : ProxyDefinition A T}
    (hd : d ∈ cfg.pallet.proxies s.proxies a) (hd' : d' ∈ cfg.pallet.proxies s.proxies a)
    (heq : d.delegate = d'.delegate) : d = d' :=
  List.inj_on_of_nodup_map (hs a) hd hd' heq

/-- The definition that is found for a registered delegate, if its type is the forced one. -/
theorem Distinct.findProxy [DecidableEq T] {s : State A T P W} (hs : Distinct cfg s) {real : A}
    {d : ProxyDefinition A T} (hd : d ∈ cfg.pallet.proxies s.proxies real) (force : Option T) :
    (cfg.pallet.findProxy s.proxies real d.delegate force).toOption
      = if ∀ t ∈ force, d.proxyType = t then some d else none := by
  rcases hfind : cfg.pallet.findProxy s.proxies real d.delegate force with e | d'
  · obtain ⟨t, ht, hne⟩ := cfg.pallet.findProxy_error hfind d hd rfl
    rw [if_neg fun hall => hne (hall t ht)]
    rfl
  · obtain ⟨hmem, hdelegate, htype⟩ := cfg.pallet.findProxy_ok hfind
    obtain rfl := hs.eq hmem hd hdelegate
    rw [if_pos htype]
    rfl

/-- The forced type only matters for the definition that is found. -/
theorem innerProxy_congr {ctx : Context} {call : HandleCall A T P W} {real : H160}
    {force force' : Option T} {sub : EvmSubCall} {s : State A T P W} {m : M}
    (h : (cfg.pallet.findProxy s.proxies (cfg.intoAccountId real) (cfg.intoAccountId ctx.caller)
        force).toOption
      = (cfg.pallet.findProxy s.proxies (cfg.intoAccountId real) (cfg.intoAccountId ctx.caller)
        force').toOption) :
    innerProxy cfg ctx call real force sub (s, m)
      = innerProxy cfg ctx call real force' sub (s, m) := by
  unfold innerProxy
  rw [storage_bind, storage_bind]
  simp only [h]

variable [DecidableEq A] [DecidableEq T]

theorem Registered.genesis {s : State A T P W} (h : (machine (M := M) cfg).genesis s) :
    Registered cfg s := by
  constructor
  · intro a
    rw [h.1 a]
    exact List.nodup_nil
  · intro a d hd
    rw [h.1 a] at hd
    cases hd

section Answers

variable {s : State A T P W} {ctx : Context} {real : H160} {t : UInt8} {type : T} {n : U32}

theorem Distinct.isProxy_iff (hs : Distinct cfg s) (htype : cfg.decodeProxyType t = some type)
    (hd : ⟨cfg.intoAccountId ctx.caller, type, n⟩ ∈
      cfg.pallet.proxies s.proxies (cfg.intoAccountId real)) {t' : UInt8} {n' : U32} {m : M}
    {b : Bool} {p : State A T P W × M}
    (h : isProxy cfg real ctx.caller t' n' (s, m) = (.ok b, p)) :
    b = true ↔ cfg.decodeProxyType t' = cfg.decodeProxyType t ∧ n' = n := by
  obtain ⟨-, type', htype', hyes⟩ := isProxy_eq_ok h
  rw [hyes, htype, htype', Option.some.injEq]
  constructor
  · intro hd'
    have heq := hs.eq hd' hd rfl
    simp only [ProxyDefinition.mk.injEq, true_and] at heq
    exact heq
  · rintro ⟨rfl, rfl⟩
    exact hd

omit [DecidableEq A] in
theorem Distinct.proxyForceType_eq (hs : Distinct cfg s)
    (hd : ⟨cfg.intoAccountId ctx.caller, type, n⟩ ∈
      cfg.pallet.proxies s.proxies (cfg.intoAccountId real))
    (htype : cfg.decodeProxyType t = some type) (call : HandleCall A T P W) (callTo : H160)
    (callData : BoundedVec UInt8 callDataLimit) (m : M) :
    proxyForceType cfg ctx call real t callTo callData (s, m)
      = proxy cfg ctx call real callTo callData (s, m) := by
  unfold proxyForceType proxy decodeType
  rw [htype, Call.okOr_some, Call.bind_pure_left]
  refine innerProxy_congr ?_
  have hforced := hs.findProxy hd (some type)
  have hunforced := hs.findProxy hd none
  rw [if_pos (by simp)] at hforced hunforced
  exact hforced.trans hunforced.symm

omit [DecidableEq A] [DecidableEq T] in
/-- A forced call goes through only under the type of the definition, without delay. -/
theorem Distinct.of_proxyForceType (hs : Distinct cfg s)
    (hd : ⟨cfg.intoAccountId ctx.caller, type, n⟩ ∈
      cfg.pallet.proxies s.proxies (cfg.intoAccountId real)) {call : HandleCall A T P W}
    {callTo : H160} {callData : BoundedVec UInt8 callDataLimit} {m : M} {v : Unit}
    {p : State A T P W × M}
    (h : proxyForceType cfg ctx call real t callTo callData (s, m) = (.ok v, p)) :
    cfg.decodeProxyType t = some type ∧ n = 0 := by
  obtain ⟨type', htype', h⟩ := Call.okOr_bind_eq_ok.1 h
  obtain ⟨u, hmem, hpermitted, hreal, hctx, hforce, -, -, -⟩ := innerProxy_eq_ok rfl h
  have heq := hs.eq (hreal ▸ hmem) hd (by rw [hpermitted.delegate, hctx])
  have hu := hforce type' rfl
  have hannounced := hpermitted.announced
  rw [heq] at hu hannounced
  exact ⟨by rw [htype', ← hu], hannounced⟩

variable (cfg) in
/-- A request left `s'` with one subcall, under a definition whose type `isProxy` answers yes to,
without delay. -/
def MadeUnder (ctx : Context) (call : HandleCall A T P W) (real : H160) (s s' : State A T P W) :
    Prop :=
  ∃ u t, (call u { s with world := u.start }).1.1 = .succeed ∧
    s' = (call u { s with world := u.start }).2 ∧ u.real = cfg.intoAccountId real ∧
    u.context = ctx ∧ cfg.decodeProxyType t = some u.definition.proxyType ∧
    (∃ m p, isProxy cfg real ctx.caller t 0 (s, m) = (.ok true, p)) ∧
    ∀ m b p, isProxy cfg real ctx.caller t 0 (s, m) = (.ok b, p) → b = true

theorem Registered.madeUnder (hs : Registered cfg s) {call : HandleCall A T P W}
    {force : Option T} {sub : EvmSubCall} {m : M} {v : Unit} {p : State A T P W × M}
    (hvalue : sub.value = ctx.apparentValue)
    (h : innerProxy cfg ctx call real force sub (s, m) = (.ok v, p)) :
    MadeUnder (M := M) cfg ctx call real s p.1 := by
  obtain ⟨u, hmem, hpermitted, hreal, hctx, -, hexit, hp, m₁, m₂, hread⟩ :=
    innerProxy_eq_ok hvalue h
  obtain ⟨t, ht⟩ := hs.encoded u.real u.definition hmem
  have hyes {m : M} {b : Bool} {p : State A T P W × M}
      (h : isProxy cfg real ctx.caller t 0 (s, m) = (.ok b, p)) : b = true := by
    obtain ⟨-, type, htype, hyes⟩ := isProxy_eq_ok h
    obtain rfl : u.definition.proxyType = type := Option.some.inj (ht.symm.trans htype)
    rw [hyes, ← hreal, ← hctx, ← hpermitted.delegate, ← hpermitted.announced]
    exact hmem
  obtain ⟨b, p', hanswer⟩ : ∃ b p', isProxy cfg real ctx.caller t 0 (s, m₁) = (.ok b, p') :=
    isProxy_answers ht hread
  obtain rfl := hyes hanswer
  exact ⟨u, t, hexit, hp, hreal, hctx, ht, ⟨m₁, p', hanswer⟩, fun _ _ _ => hyes⟩

end Answers

/-- **Proxy types.** Where delegates are registered through the precompile alone, `isProxy` answers
yes to one type and delay of a delegate at most. A call forced to that type is the call that is not
forced; one forced to another type is refused, and so are both where there is a delay. Conversely
`isProxy` answers yes, without delay, to the type under which each call that goes through made its
subcall. -/
theorem is_proxy_decides {h : List (Machine.Event (State A T P W) (Op A T W M) Unit)}
    {s : State A T P W}
    (hr : (machine cfg).Run (fun _ _ op => ∀ who delegate t n,
      op ≠ .extrinsic who (.addProxy delegate t n)) h s)
    (ctx : Context) (real : H160) (m : M) :
    (∀ t n m₁ p₁, isProxy cfg real ctx.caller t n (s, m₁) = (.ok true, p₁) →
      (∀ t' n' m₂ b p₂, isProxy cfg real ctx.caller t' n' (s, m₂) = (.ok b, p₂) →
        (b = true ↔ cfg.decodeProxyType t' = cfg.decodeProxyType t ∧ n' = n)) ∧
      (∀ call callTo callData t', cfg.decodeProxyType t' = cfg.decodeProxyType t →
        proxyForceType cfg ctx call real t' callTo callData (s, m)
          = proxy cfg ctx call real callTo callData (s, m)) ∧
      ∀ call callTo callData t' v p,
        proxyForceType cfg ctx call real t' callTo callData (s, m) = (.ok v, p) →
          cfg.decodeProxyType t' = cfg.decodeProxyType t ∧ n = 0) ∧
    (∀ call callTo callData v p, proxy cfg ctx call real callTo callData (s, m) = (.ok v, p) →
      MadeUnder (M := M) cfg ctx call real s p.1) ∧
    ∀ call callTo callData t v p,
      proxyForceType cfg ctx call real t callTo callData (s, m) = (.ok v, p) →
        MadeUnder (M := M) cfg ctx call real s p.1 := by
  have hs : Registered cfg s := by
    refine stable_registered.of_run (fun _ => Registered.genesis) ?_ hr
    rintro _ t t' who c hallow ht hok
    exact ht.dispatch hok fun delegate type n hc =>
      absurd (congrArg (Op.extrinsic who) hc) (hallow who delegate type n)
  refine ⟨fun t n m₁ p₁ htrue => ?_, fun call callTo callData v p hok => hs.madeUnder rfl hok,
    fun call callTo callData t v p hok => ?_⟩
  · obtain ⟨-, type, htype, hyes⟩ := isProxy_eq_ok htrue
    have hd := hyes.1 rfl
    refine ⟨fun t' n' m₂ b p₂ h₂ => hs.distinct.isProxy_iff htype hd h₂,
      fun call callTo callData t' ht' => ?_, fun call callTo callData t' v p hok => ?_⟩
    · exact hs.distinct.proxyForceType_eq hd (ht'.trans htype) call callTo callData m
    · rw [htype]
      exact hs.distinct.of_proxyForceType hd hok
  · obtain ⟨type, -, hok⟩ := Call.okOr_bind_eq_ok.1 hok
    exact hs.madeUnder rfl hok

end Types

section Example

/-- `pallet_proxy` with at most `maxProxies` definitions for an account, without deposits. -/
def exampleDispatch (maxProxies : ℕ) [DecidableEq A] [DecidableEq T]
    (s : (A → List (ProxyDefinition A T)) × W) (who : A) :
    ProxyCall A T → Except String ((A → List (ProxyDefinition A T)) × W)
  | .addProxy delegate t n =>
    if delegate = who then .error "NoSelfProxy"
    else if ⟨delegate, t, n⟩ ∈ s.1 who then .error "Duplicate"
    else if maxProxies ≤ (s.1 who).length then .error "TooMany"
    else .ok (Function.update s.1 who (⟨delegate, t, n⟩ :: s.1 who), s.2)
  | .removeProxy delegate t n =>
    if ⟨delegate, t, n⟩ ∈ s.1 who then
      .ok (Function.update s.1 who ((s.1 who).erase ⟨delegate, t, n⟩), s.2)
    else .error "NotFound"
  | .removeProxies => .ok (Function.update s.1 who [], s.2)

def examplePallet (A T W : Type) [DecidableEq A] [DecidableEq T] (maxProxies : ℕ) :
    ProxyPallet A T (A → List (ProxyDefinition A T)) W String where
  proxies p a := p a
  findProxy p real delegate force :=
    match (p real).find? fun d => d.delegate = delegate ∧ ∀ t ∈ force, d.proxyType = t with
    | some d => .ok d
    | none => .error "NotProxy"
  dispatch := exampleDispatch maxProxies
  findProxy_ok := by
    intro p real delegate force d h
    split at h
    · rename_i d' hd
      cases h
      have hp := List.find?_some hd
      simp only [decide_eq_true_eq] at hp
      exact ⟨List.mem_of_find?_eq_some hd, hp.1, hp.2⟩
    · cases h
  findProxy_error := by
    intro p real delegate force e h d hd hdelegate
    split at h
    · cases h
    · rename_i hnone
      have hp := List.find?_eq_none.1 hnone d hd
      simp only [decide_eq_true_eq, not_and, hdelegate, true_imp_iff, not_forall] at hp
      obtain ⟨t, ht, hne⟩ := hp
      exact ⟨t, ht, hne⟩
  add_self := by
    intro s s' who delegate t n h
    simp only [exampleDispatch] at h
    split_ifs at h
    cases h
    simp only [Function.update_self, List.Perm.refl]
  remove_self := by
    intro s s' who delegate t n h
    simp only [exampleDispatch] at h
    split_ifs at h with hmem
    cases h
    simp only [Function.update_self]
    exact List.perm_cons_erase hmem
  clear_self := by
    intro s s' who h
    cases h
    exact Function.update_self ..
  other := by
    intro s s' who call h a ha
    cases call with
    | removeProxies =>
      cases h
      exact Function.update_of_ne ha ..
    | _ =>
      simp only [exampleDispatch] at h
      split_ifs at h
      cases h
      exact Function.update_of_ne ha ..

/-- The proxy types of the mock runtime. -/
inductive ProxyType where
  | any
  | something
  | nothing
deriving DecidableEq

abbrev Registrations := H160 → List (ProxyDefinition H160 ProxyType)

abbrev Balances := Issued H160 (2 ^ 128 - 1)

def exampleConfig :
    Config H160 ProxyType Registrations Balances String Unit (2 ^ 128 - 1) where
  metering := Mock.metering
  intoAccountId := id
  decodeProxyType
    | 0 => some .any
    | 1 => some .something
    | 2 => some .nothing
    | _ => none
  maxProxies := 5
  isEvmProxyCallAllowed proxyType _ _ _ := .ok (proxyType ≠ .nothing)
  addressType _ a := if a = Mock.precompile then .precompile else .eoa
  recordAddressType _ _ := .ok
  accountCodeLen _ _ := 0
  pallet := examplePallet H160 ProxyType Balances 5
  transferAllowDeath w a b n :=
    match ExpendableCurrency.reapingTransfer 1 w a b n with
    | .ok w' => .ok w'
    | .error _ => .error "Token"
  debug := id

/-- Alith registers bob, and takes that back in the subcall that bob then makes in her name with a
value of 5; bob's next call is refused. -/
def exampleActivity : Activity Balances Unit :=
  .request (Mock.context Mock.alith Mock.precompile) ()
    (.addProxy Mock.bob 1 0) .done .succeed []
    (.request ⟨Mock.precompile, Mock.bob, .lit 5⟩ ()
      (.proxyForceType Mock.alith 1 Mock.charlie ∅)
      (.request (Mock.context Mock.alith Mock.precompile) () .removeProxies .done .succeed [] .done)
      .succeed []
      (.request (Mock.context Mock.bob Mock.precompile) () (.proxy Mock.alith Mock.charlie ∅)
        .done .succeed [] .done))

abbrev ExampleEvent := Machine.Event (State H160 ProxyType Registrations Balances)
  (Op H160 ProxyType Balances Unit) Unit

/-- The precompile has received the value of bob's first call. -/
def exampleWorld : Balances := ⟨.lit 5, fun a => if a = Mock.precompile then .lit 5 else 0⟩

def exampleRun :
    List ExampleEvent × State H160 ProxyType Registrations Balances :=
  (machine exampleConfig).replay [] ⟨fun _ => [], exampleWorld, []⟩ [.transact exampleActivity]

theorem run_exampleRun : (machine exampleConfig).Run (fun _ _ _ => True) exampleRun.1
    exampleRun.2 :=
  Machine.run_replay_all _ (.start ⟨fun _ => rfl, rfl⟩)

/-- Alith registers bob. -/
def exampleRegistered :
    List ExampleEvent × State H160 ProxyType Registrations Balances :=
  (machine exampleConfig).replay [] ⟨fun _ => [], exampleWorld, []⟩
    [.transact (.request (Mock.context Mock.alith Mock.precompile) () (.addProxy Mock.bob 1 0)
      .done .succeed [] .done)]

theorem run_exampleRegistered : (machine exampleConfig).Run (fun _ _ op =>
    ∀ who delegate t n, op ≠ .extrinsic who (.addProxy delegate t n)) exampleRegistered.1
    exampleRegistered.2 :=
  .step (.start ⟨fun _ => rfl, rfl⟩) fun _ _ _ _ h => by cases h

/-- A subcall that does nothing. -/
def exampleCall : HandleCall H160 ProxyType Registrations Balances := fun _ s => ((.succeed, []), s)

theorem is_proxy_decides_sampled :
    (∃ p, isProxy exampleConfig Mock.alith Mock.bob 1 0 (exampleRegistered.2, ())
      = (.ok true, p)) ∧
    proxyForceType exampleConfig (Mock.context Mock.bob Mock.precompile) exampleCall Mock.alith 1
        Mock.charlie ∅ (exampleRegistered.2, ())
      = proxy exampleConfig (Mock.context Mock.bob Mock.precompile) exampleCall Mock.alith
        Mock.charlie ∅ (exampleRegistered.2, ()) ∧
    ∃ p, proxy exampleConfig (Mock.context Mock.bob Mock.precompile) exampleCall Mock.alith
        Mock.charlie ∅ (exampleRegistered.2, ()) = (.ok (), p) ∧
      MadeUnder (M := Unit) exampleConfig (Mock.context Mock.bob Mock.precompile) exampleCall
        Mock.alith exampleRegistered.2 p.1 := by
  have hyes : isProxy exampleConfig Mock.alith Mock.bob 1 0 (exampleRegistered.2, ())
      = (.ok true, exampleRegistered.2, ()) := rfl
  obtain ⟨p, hok⟩ : ∃ p, proxy exampleConfig (Mock.context Mock.bob Mock.precompile) exampleCall
    Mock.alith Mock.charlie ∅ (exampleRegistered.2, ()) = (.ok (), p) := ⟨_, rfl⟩
  obtain ⟨htrue, hproxy, -⟩ := is_proxy_decides run_exampleRegistered
    (Mock.context Mock.bob Mock.precompile) Mock.alith ()
  exact ⟨⟨_, hyes⟩, (htrue 1 0 () _ hyes).2.1 _ _ _ 1 rfl, p, hok, hproxy _ _ _ _ _ hok⟩

end Example

end Proxy

end Moonkit
