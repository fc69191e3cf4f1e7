import Moonkit.Base.Uint

/-!
# Weights

A weight has a computation part and a proof-size part. Adding saturates; subtracting takes both
parts and has no result where one of them would go below zero.
-/

structure Weight where
  refTime : U64
  proofSize : U64
deriving DecidableEq

namespace Weight

instance : Zero Weight := ⟨⟨0, 0⟩⟩

def saturatingAdd (a b : Weight) : Weight :=
  ⟨a.refTime.saturatingAdd b.refTime, a.proofSize.saturatingAdd b.proofSize⟩

def saturatingSub (a b : Weight) : Weight :=
  ⟨a.refTime.saturatingSub b.refTime, a.proofSize.saturatingSub b.proofSize⟩

def checkedSub (a b : Weight) : Option Weight := do
  let refTime ← a.refTime.checkedSub b.refTime
  let proofSize ← a.proofSize.checkedSub b.proofSize
  pure ⟨refTime, proofSize⟩

end Weight

/-- What one read and one write of the database take. -/
structure RuntimeDbWeight where
  read : U64
  write : U64
deriving DecidableEq

namespace RuntimeDbWeight

def reads (w : RuntimeDbWeight) (r : U64) : Weight := ⟨w.read.saturatingMul r, 0⟩

def writes (w : RuntimeDbWeight) (n : U64) : Weight := ⟨w.write.saturatingMul n, 0⟩

def readsWrites (w : RuntimeDbWeight) (r n : U64) : Weight :=
  ⟨(w.read.saturatingMul r).saturatingAdd (w.write.saturatingMul n), 0⟩

end RuntimeDbWeight
