import Moonkit.Base.Counter
import Moonkit.Precompiles

/-!
# EIP-2612 permits

The digest of a permit, as `precompiles/balances-erc20/src/eip2612.rs` and
`precompiles/assets-erc20/src/eip2612.rs` both make it, and what the standard asks of a machine that
takes permits: a permit takes the nonce of its owner and sets one allowance (`View.Step`). Over a
run no digest is then taken twice (`View.once_of_run`), whatever the keys of the nonces.
-/

namespace Moonkit

namespace Eip2612

open Precompile TypedData Machine

/-- What a signature on a permit is a signature of. -/
structure Permit where
  contract : H160
  owner : H160
  spender : H160
  value : U256
  nonce : U256
  deadline : U256
deriving DecidableEq

section Digest

variable {D : Type} (C : Crypto D)

def permitTypehash : D :=
  C.keccak256.hash (ofString
    "Permit(address owner,address spender,uint256 value,uint256 nonce,uint256 deadline)")

def computeDomainSeparator (chainId : U64) (name : List UInt8) (address : H160) : D :=
  domainSeparator C chainId name address

/-- The digest of a permit for a token called `name`. -/
def generatePermit (chainId : U64) (name : List UInt8) (p : Permit) : D :=
  permitDigest C (computeDomainSeparator C chainId name p.contract)
    [.digest (permitTypehash C), .address p.owner, .address p.spender, .uint p.value, .uint p.nonce,
      .uint p.deadline]

variable {C}

/-- A digest says which permit it is of, also where the name of the token has changed. -/
theorem generatePermit_inj {chainId : U64} {name name' : List UInt8} {p q : Permit}
    (h : generatePermit C chainId name p = generatePermit C chainId name' q) : p = q := by
  obtain ⟨hd, hl⟩ := permitDigest_inj (by rfl) h
  have hcontract := domainSeparator_inj hd
  simp only [List.cons.injEq, Arg.address.injEq, Arg.uint.injEq, true_and, and_true] at hl
  cases p
  cases q
  simp_all

end Digest

/-- How a machine takes permits: the permit and the signature an event went through with, the nonces
by their keys `K`, and the allowances by their places `S`. -/
structure View (σ ω ρ D K S : Type) where
  permitted : Event σ ω ρ → Option (Permit × Signature)
  digest : σ → Permit → D
  nonce : σ → K → U256
  key : Permit → K
  allowance : σ → S → ℕ
  place : Permit → S
  maxBalance : S → ℕ

namespace View

variable {σ ω ρ D K S : Type} (C : Crypto D) (V : View σ ω ρ D K S)

/-- The event made the permit `p`. -/
structure Granted (e : Event σ ω ρ) (p : Permit) (sig : Signature) : Prop where
  signed : C.signer sig (V.digest e.before p) = some p.owner
  current : p.nonce = V.nonce e.before (V.key p)
  nonce_after : (V.nonce e.after (V.key p)).val = p.nonce.val + 1
  nonce_other : ∀ k, k ≠ V.key p → V.nonce e.after k = V.nonce e.before k
  allowance_after : V.allowance e.after (V.place p) = min p.value.val (V.maxBalance (V.place p))
  allowance_other : ∀ l, l ≠ V.place p → V.allowance e.after l = V.allowance e.before l

/-- Permits are granted as they should be, and other events leave the nonces alone. -/
structure Step (e : Event σ ω ρ) : Prop where
  granted : ∀ p sig, V.permitted e = some (p, sig) → V.Granted C e p sig
  unpermitted : V.permitted e = none → ∀ k, V.nonce e.after k = V.nonce e.before k

/-- The digests of the permits of a history. -/
def digests (h : List (Event σ ω ρ)) : List D :=
  h.filterMap fun e => (V.permitted e).map fun p => V.digest e.before p.1

/-- What the standard promises of a history: every event is a step of it, a digest says which permit
it is of, and no digest was taken twice. -/
structure Once (h : List (Event σ ω ρ)) : Prop where
  steps : ∀ e ∈ h, V.Step C e
  digest_inj : ∀ s s' p q, V.digest s p = V.digest s' q → p = q
  nodup : (V.digests h).Nodup

variable {C V} [DecidableEq K]

/-- The key and the number that a permit of the event took. -/
def given (V : View σ ω ρ D K S) (e : Event σ ω ρ) : Option (K × ℕ) :=
  (V.permitted e).map fun p => (V.key p.1, p.1.nonce.val)

/-- The event with the permit it made. -/
def taken (V : View σ ω ρ D K S) (e : Event σ ω ρ) : Option (Event σ ω ρ × Permit) :=
  (V.permitted e).map fun p => (e, p.1)

omit [DecidableEq K] in
theorem Step.of_permitted {e : Event σ ω ρ} {p : Permit} {sig : Signature}
    (hp : V.permitted e = some (p, sig)) (hg : V.Granted C e p sig) : V.Step C e where
  granted p' sig' hp' := by
    rw [hp, Option.some.injEq, Prod.mk.injEq] at hp'
    obtain ⟨rfl, rfl⟩ := hp'
    exact hg
  unpermitted hnone := by simp [hp] at hnone

omit [DecidableEq K] in
theorem Step.of_unpermitted {e : Event σ ω ρ} (hp : V.permitted e = none)
    (hn : ∀ k, V.nonce e.after k = V.nonce e.before k) : V.Step C e where
  granted p sig hsome := by simp [hp] at hsome
  unpermitted _ := hn

theorem Step.counts {e : Event σ ω ρ} (he : V.Step C e) :
    Counter.Counts V.given (fun s k => (V.nonce s k).val) e := by
  rcases hp : V.permitted e with _ | ⟨p, sig⟩
  · refine .inl ⟨by simp [given, hp], funext fun k => ?_⟩
    exact congrArg Uint.val (he.unpermitted hp k)
  · have hg := he.granted p sig hp
    refine .inr ⟨V.key p, by simp [given, hp, hg.current], funext fun k => ?_⟩
    by_cases hk : k = V.key p
    · subst hk
      simp only [Function.update_self, hg.nonce_after, hg.current]
    · simp only [Function.update_of_ne hk, hg.nonce_other k hk]

theorem nodup_digests {M : Machine σ ω ρ} {allow : List (Event σ ω ρ) → σ → ω → Prop}
    (hg : ∀ s, M.genesis s → ∀ k, V.nonce s k = 0)
    (hstep : ∀ h s op, M.Run allow h s → allow h s op → V.Step C (M.event s op))
    (hinj : ∀ s s' p q, V.digest s p = V.digest s' q → p = q)
    {h : List (Event σ ω ρ)} {s : σ} (hr : M.Run allow h s) : (V.digests h).Nodup := by
  have hcons : Counter.Consecutive (h.reverse.filterMap V.given) fun k => (V.nonce s k).val :=
    Counter.consecutive_of_run (fun s h0 => funext fun k => congrArg Uint.val (hg s h0 k))
      (fun h s op hr ha => (hstep h s op hr ha).counts) hr
  have hnumbers : h.reverse.filterMap V.given
      = (h.reverse.filterMap V.taken).map fun a => (V.key a.2, a.2.nonce.val) := by
    rw [List.map_filterMap]
    exact congrArg (List.filterMap · h.reverse) (funext fun e => by
      simp [given, taken, Function.comp_def])
  have hdigests : V.digests h.reverse
      = (h.reverse.filterMap V.taken).map fun a => V.digest a.1.before a.2 := by
    rw [List.map_filterMap]
    exact congrArg (List.filterMap · h.reverse) (funext fun e => by
      simp [taken, Function.comp_def])
  rw [hnumbers] at hcons
  rw [← List.nodup_reverse, digests, ← List.filterMap_reverse, ← digests, hdigests]
  refine hcons.nodup_map fun a b hab => ?_
  rw [hinj _ _ _ _ hab]

/-- Where every event is a step of the standard and a digest says which permit it is of, runs keep
the promise. -/
theorem once_of_run {M : Machine σ ω ρ} {allow : List (Event σ ω ρ) → σ → ω → Prop}
    (hg : ∀ s, M.genesis s → ∀ k, V.nonce s k = 0)
    (hstep : ∀ h s op, M.Run allow h s → allow h s op → V.Step C (M.event s op))
    (hinj : ∀ s s' p q, V.digest s p = V.digest s' q → p = q)
    {h : List (Event σ ω ρ)} {s : σ} (hr : M.Run allow h s) : V.Once C h where
  steps e he := by
    obtain ⟨h', hr', ha, hevent⟩ := hr.mem_event he
    rw [hevent]
    exact hstep h' e.before e.op hr' ha
  digest_inj := hinj
  nodup := nodup_digests hg hstep hinj hr

end View

end Eip2612

end Moonkit
