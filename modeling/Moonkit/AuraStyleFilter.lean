import Moonkit.AuthorInherent

/-!
# The AuRa-style filter pallet

`pallets/aura-style-filter/src/lib.rs`. It uses no entropy: the potential authors take turns in
their order, and in each slot a single author is eligible.
-/

namespace Moonkit

namespace AuraStyleFilter

variable {AccountId : Type} [DecidableEq AccountId] (potentialAuthors : List AccountId)

def canAuthor (account : AccountId) (slot : U32) : Outcome Empty Bool := do
  let i ← Outcome.rem slot.val potentialAuthors.length
  let activeAuthor ← Outcome.expect potentialAuthors[i]? "index out of bounds"
  pure (account = activeAuthor)

/-- A runtime in which the author inherent asks this filter. The inherent does not go on after a
panic, as it does not after the answer `false`. -/
def env (lookupAccount : NimbusId → Option AccountId) (slot : U32) :
    AuthorInherent.Env AccountId where
  lookupAccount := lookupAccount
  canAuthor account slot := decide (canAuthor potentialAuthors account slot = .ok true)
  slot := slot

end AuraStyleFilter

end Moonkit
