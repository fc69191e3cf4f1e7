import Moonkit.AuthorMapping

/-!
# The mock runtime of the author-mapping pallet

`pallets/author-mapping/src/mock.rs`: accounts are numbers, balances are `u128`, and a registration
takes a deposit of 100. The existential deposit is 1.
-/

namespace Moonkit

namespace AuthorMapping

namespace Mock

abbrev Ledger := ℕ → AccountData (2 ^ 128 - 1)

/-- The mock runtime: the additional keys are a nimbus id. -/
def test : Config ℕ NimbusId Ledger where
  balanceMax := 2 ^ 128 - 1
  depositCurrency := .standard ℕ (2 ^ 128 - 1) 1
  keysFrom := id
  sizeOfKeys := 32
  decodeKeys := Bytes.decode 32

def alice : NimbusId := Vector.replicate 32 0

def bob : NimbusId := Vector.replicate 32 1

def charlie : NimbusId := Vector.replicate 32 2

/-- A balance of 1000 on each account. -/
def balances : Ledger := fun _ => ⟨1000, 0, by decide⟩

/-- The genesis with these registrations, at a deposit of 100. -/
def genesis (mappings : List (NimbusId × ℕ)) : State test :=
  build mappings (.empty balances (.lit 100))

/-- The history and the state after these operations. -/
def calls (mappings : List (NimbusId × ℕ)) (ops : List (Op test)) :
    List (RunEvent test) × State test :=
  (machine test fun _ => True).replay [] (genesis mappings) ops

theorem run_calls (mappings : List (NimbusId × ℕ)) (hnodup : (mappings.map Prod.fst).Nodup)
    (ops : List (Op test)) : (machine test fun _ => True).Run (fun _ _ _ => True)
      (calls mappings ops).1 (calls mappings ops).2 :=
  Machine.run_replay_all ops (.start ⟨mappings, balances, .lit 100, hnodup, trivial, rfl⟩)

end Mock

end AuthorMapping

end Moonkit
