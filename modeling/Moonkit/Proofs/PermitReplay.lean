import Moonkit.Base.Counter
import Moonkit.CallPermit
import Moonkit.PrecompilesMock

/-!
# Call permits are not replayed

A dispatch that answers has taken the nonce of `from` and put it up by one, checked a signature of
`from` on the digest of what it then calls, and not done anything else (`dispatch_eq_ok`). Whatever
frames run inside and around it, and whichever of them fail, the storage has seen the nonces of each
account one after the other (`run_good`): a frame that fails takes back the nonces of the dispatches
in it together with the dispatches.
-/

namespace Moonkit

namespace CallPermit

open Precompile TypedData

variable {D M : Type} {cfg : Config D M}

section Digest

/-- What a signature on a call permit is a signature of. -/
structure Permit where
  contract : H160
  from_ : H160
  to_ : H160
  value : U256
  data : List UInt8
  gasLimit : U64
  nonce : U256
  deadline : U256

variable (cfg) in
def Permit.digest (p : Permit) : D :=
  generatePermit cfg p.contract p.from_ p.to_ p.value p.data p.gasLimit p.nonce p.deadline

def Permit.subCall (p : Permit) : SubCall :=
  CallPermit.subCall p.from_ p.to_ p.value p.data p.gasLimit

theorem ofU64_injective : Function.Injective U256.ofU64 := by
  intro a b h
  have hval : (U256.ofU64 a).val = (U256.ofU64 b).val := by rw [h]
  exact Uint.ext_val hval

theorem digest_injective : Function.Injective (Permit.digest cfg) := by
  intro p q h
  obtain ⟨hd, hl⟩ := permitDigest_inj (by rfl) h
  have hcontract := domainSeparator_inj hd
  simp only [List.cons.injEq, Arg.address.injEq, Arg.uint.injEq, Arg.digest.injEq, true_and,
    and_true] at hl
  obtain ⟨hfrom, hto, hvalue, hdata, hgas, hnonce, hdeadline⟩ := hl
  have hbytes := ofBytes_injective (cfg.crypto.keccak256.injective hdata)
  have hlimit := ofU64_injective hgas
  cases p
  cases q
  simp_all

end Digest

section Dispatch

variable {address : H160} {call : SubCall → State → (ExitReason × List UInt8) × State} {a : Args}

/-- The storage the subcall starts from. -/
def bumped (s : State) (who : H160) (next : U256) : State :=
  { s with nonces := Function.update s.nonces who next }

theorem dispatch_eq_ok {s : State} {m : M} {out : List UInt8} {p' : State × M}
    (h : dispatch cfg address call a (s, m) = (.ok out, p')) :
    seconds s.now ≤ a.deadline ∧
      cfg.crypto.signer a.sig (generatePermit cfg address a.from_ a.to_ a.value a.data a.gasLimit
        (s.nonces a.from_) a.deadline) = some a.from_ ∧
      ∃ next, (s.nonces a.from_).checkedAdd U256.one = some next ∧
        let sub := call (subCall a.from_ a.to_ a.value a.data a.gasLimit) (bumped s a.from_ next)
        sub.1.1 = .succeed ∧ p'.1 = sub.2 := by
  unfold dispatch at h
  obtain ⟨m₁, -, h⟩ := meter_bind_eq_ok.1 h
  obtain ⟨m₂, -, h⟩ := meter_bind_eq_ok.1 h
  obtain ⟨cost, -, h⟩ := Call.expect_bind_eq_ok.1 h
  obtain ⟨m₃, -, h⟩ := meter_bind_eq_ok.1 h
  obtain ⟨total, -, h⟩ := Call.okOr_bind_eq_ok.1 h
  rw [Call.get_bind] at h
  obtain ⟨-, h⟩ := Call.ensure_bind_eq_ok.1 h
  obtain ⟨hdeadline, h⟩ := Call.ensure_bind_eq_ok.1 h
  obtain ⟨hsigner, h⟩ := ensureSigned_bind_eq_ok h
  obtain ⟨next, hadd, h⟩ := Call.expect_bind_eq_ok.1 h
  rw [write_bind] at h
  obtain ⟨⟨reason, output⟩, p₇, hsub, h⟩ := Call.bind_eq_ok.1 h
  simp only [handleCall, Prod.mk.injEq, Outcome.ok.injEq] at hsub
  obtain ⟨hreason, rfl⟩ := hsub
  refine ⟨hdeadline, hsigner, next, hadd, ?_⟩
  cases reason with
  | succeed =>
    simp only [ExitReason.failure, Call.pure_apply, Prod.mk.injEq] at h
    exact ⟨congrArg Prod.fst hreason, h.2 ▸ rfl⟩
  | error e => simp [ExitReason.failure, Call.err] at h
  | revert => simp [ExitReason.failure, Call.err] at h
  | fatal f => simp [ExitReason.failure, Call.err] at h

end Dispatch

namespace Dispatched

/-- The permit whose fields are those of the call that was made. -/
def permit (e : Dispatched) : Permit where
  contract := e.address
  from_ := e.call.context.caller
  to_ := e.call.codeAddress
  value := e.call.context.apparentValue
  data := e.call.input
  gasLimit := e.call.targetGas.getD 0
  nonce := e.nonce
  deadline := e.deadline

variable (cfg) in
/-- The call is the one of a permit that its caller signed and that was in time. -/
structure Authorized (e : Dispatched) : Prop where
  call : e.call = e.permit.subCall
  signed : cfg.crypto.signer e.sig (e.permit.digest cfg) = some e.permit.from_
  inTime : seconds e.now ≤ e.permit.deadline

def number (e : Dispatched) : H160 × ℕ := (e.call.context.caller, e.nonce.val)

end Dispatched

section Evm

variable (cfg) in
structure Good (s : State) : Prop where
  consecutive : Counter.Consecutive (s.dispatched.map Dispatched.number) fun k => (s.nonces k).val
  authorized : ∀ e ∈ s.dispatched, e.Authorized cfg

/-- The storage a subcall starts from, with its dispatch noted. -/
def noted (s : State) (address : H160) (a : Args) (next : U256) : State :=
  { bumped s a.from_ next with
    dispatched := s.dispatched ++ [⟨address, subCall a.from_ a.to_ a.value a.data a.gasLimit,
      s.nonces a.from_, a.deadline, a.sig, s.now⟩] }

theorem Good.noted {s : State} (hs : Good cfg s) {address : H160} {a : Args} {next : U256}
    (htime : seconds s.now ≤ a.deadline)
    (hsigned : cfg.crypto.signer a.sig (generatePermit cfg address a.from_ a.to_ a.value a.data
      a.gasLimit (s.nonces a.from_) a.deadline) = some a.from_)
    (hnext : (s.nonces a.from_).checkedAdd U256.one = some next) :
    Good cfg (noted s address a next) where
  consecutive := by
    have hval : (fun k => (Function.update s.nonces a.from_ next k).val)
        = Function.update (fun k => (s.nonces k).val) a.from_ ((s.nonces a.from_).val + 1) := by
      rw [show (s.nonces a.from_).val + 1 = next.val from (Uint.checkedAdd_eq_some.1 hnext).symm]
      exact Function.comp_update Uint.val s.nonces a.from_ next
    simp only [CallPermit.noted, bumped, List.map_append, hval]
    exact hs.consecutive.append a.from_
  authorized := by
    intro e he
    rcases List.mem_append.1 he with he | he
    · exact hs.authorized e he
    · obtain rfl := List.mem_singleton.1 he
      exact ⟨rfl, hsigned, htime⟩

theorem Good.ended {s t : State} (exit : ExitReason) (hs : Good cfg s) (ht : Good cfg t) :
    Good cfg (ended exit s t) := by
  unfold CallPermit.ended
  split_ifs
  · exact ht
  · exact hs

theorem run_good : ∀ (activity : Activity M) {s : State}, Good cfg s →
    Good cfg (run cfg activity s)
  | .done, _, hs => hs
  | .frame inner exit next, _, hs => run_good next (hs.ended exit (run_good inner hs))
  | .dispatch address gas a inner exit output next, s, hs => by
    refine run_good next ?_
    -- the dispatch answers, with what its subcall left, or nothing of it is left
    rcases Call.transactional_cases (dispatch cfg address _ a) (s, gas) with
      ⟨out, p', hok, htrans⟩ | ⟨-, htrans⟩
    · rw [htrans]
      obtain ⟨htime, hsigned, nonce, hnonce, hexit, hstate⟩ := dispatch_eq_ok hok
      rw [hstate]
      simp only [ended, if_pos (show exit = .succeed from hexit)]
      exact run_good inner (hs.noted htime hsigned hnonce)
    · rw [htrans]
      exact hs

/-- After any transactions the dispatches that were not undone took the nonces of each account one
after the other from zero; each made the call of a permit that its caller signed; and no two were
made under one permit. -/
theorem permits_not_replayed {h : List (Machine.Event State (Op M) Unit)} {s : State}
    (hr : (machine cfg).Run (fun _ _ _ => True) h s) :
    (∀ from_, (s.dispatched.filter fun e => e.call.context.caller = from_).map
        (fun e => e.nonce.val) = List.range (s.nonces from_).val) ∧
      (∀ e ∈ s.dispatched, e.Authorized cfg) ∧
      Function.Injective (Permit.digest cfg) ∧
      (s.dispatched.map fun e => e.permit.digest cfg).Nodup := by
  have hgood : Good cfg s := by
    refine hr.invariant (fun _ t => Good cfg t) ?_ ?_
    · rintro t ⟨hnonces, hdispatched⟩
      refine ⟨?_, ?_⟩
      · rw [hnonces, hdispatched]
        exact Counter.Consecutive.nil
      · simp [hdispatched]
    · rintro _ t (activity | now) - ht -
      · exact run_good activity ht
      · exact ⟨ht.consecutive, ht.authorized⟩
  refine ⟨fun from_ => ?_, hgood.authorized, digest_injective, ?_⟩
  · have hnumbers := hgood.consecutive from_
    simp only [Counter.numbers, List.filter_map, List.map_map] at hnumbers
    exact hnumbers
  · refine hgood.consecutive.nodup_map fun e e' he => ?_
    have hpermit := digest_injective he
    exact Prod.ext (congrArg Permit.from_ hpermit)
      (congrArg (fun p => p.nonce.val) hpermit)

section Example

def exampleConfig : Config FreeDigest Unit where
  crypto := Mock.crypto
  chainId := 0
  metering := Mock.metering
  callCost := fun _ => .lit 700

/-- A permit of `alith` for a call with no value and no data. -/
def exampleArgs (deadline : U256) (n : UInt8) : Args where
  from_ := Mock.alith
  to_ := Mock.bob
  value := 0
  data := []
  bounded := Nat.zero_le _
  gasLimit := .lit 21000
  deadline := deadline
  sig := Mock.signature Mock.alith n

/-- A dispatch whose subcall dispatches twice, the second time in a frame that reverts. -/
def exampleActivity : Activity Unit :=
  .dispatch Mock.precompile () (exampleArgs (.lit 10) 0)
    (.dispatch Mock.precompile () (exampleArgs (.lit 20) 1) .done .succeed []
      (.frame (.dispatch Mock.precompile () (exampleArgs (.lit 30) 2) .done .succeed [] .done)
        .revert .done))
    .succeed [] .done

def exampleRun : List (Machine.Event State (Op Unit) Unit) × State :=
  (machine exampleConfig).replay [] ⟨fun _ => 0, 0, []⟩ [.setTime (.lit 9000),
    .transact exampleActivity]

theorem run_exampleRun :
    (machine exampleConfig).Run (fun _ _ _ => True) exampleRun.1 exampleRun.2 :=
  Machine.run_replay_all _ (.start ⟨rfl, rfl⟩)

theorem permits_not_replayed_nested :
    (exampleRun.2.nonces Mock.alith).val = 2 ∧
      (exampleRun.2.dispatched.filter fun e => e.call.context.caller = Mock.alith).map
        (fun e => e.nonce.val) = List.range (exampleRun.2.nonces Mock.alith).val ∧
      (exampleRun.2.dispatched.map fun e => e.permit.digest exampleConfig).Nodup :=
  ⟨by decide +kernel, (permits_not_replayed run_exampleRun).1 Mock.alith,
    (permits_not_replayed run_exampleRun).2.2.2⟩

end Example

end Evm

end CallPermit

end Moonkit
