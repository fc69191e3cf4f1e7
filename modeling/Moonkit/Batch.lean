import Moonkit.Precompiles

/-!
# The batch precompile

`precompiles/batch/src/lib.rs`. One call makes several subcalls, each for its caller, and logs for
each whether it succeeded. Three modes differ in what a subcall that fails, or cannot be paid, does
to the ones after it. What the EVM does with gas, logs and subcalls is the handle, a parameter.
-/

namespace Moonkit

namespace Batch

open Precompile

inductive Mode where
  | batchSome
  | batchSomeUntilFailure
  | batchAll
deriving DecidableEq

/-- The events of the batch, for which the source has the hashes of their signatures. -/
inductive SubcallEvent where
  | subcallSucceeded
  | subcallFailed
deriving DecidableEq

structure SubcallLog where
  address : H160
  event : SubcallEvent
  index : ℕ
deriving DecidableEq

def logSubcallSucceeded (address : H160) (index : ℕ) : SubcallLog :=
  ⟨address, .subcallSucceeded, index⟩

def logSubcallFailed (address : H160) (index : ℕ) : SubcallLog := ⟨address, .subcallFailed, index⟩

/-- What the precompile is run with, on a state `H` of the EVM. -/
structure Handle (H : Type) where
  caller : H160
  codeAddress : H160
  remainingGas : H → U64
  recordLogCosts : SubcallLog → H → Except ExitError H
  log : SubcallLog → H → Except ExitError H
  call : SubCall → H → (ExitReason × List UInt8) × H

structure Config where
  computeCost : SubcallLog → Option U64
  callCost : U256 → U64

/-- One entry of the arrays, with what stands for the arguments that are not there. -/
structure Entry where
  index : ℕ
  address : H160
  value : U256
  callData : List UInt8
  gasLimit : Option U64

/-- A gas limit of zero is none. -/
def limit (x : U64) : Option U64 := if x.val = 0 then none else some x

/-- The entries from the index `i` on, each array read one by one until it is empty. -/
def entries : ℕ → List H160 → List U256 → List (List UInt8) → List U64 → List Entry
  | _, [], _, _, _ => []
  | i, address :: to_, value, callData, gasLimit =>
    ⟨i, address, value.head?.getD 0, callData.head?.getD [], gasLimit.head?.bind limit⟩
      :: entries (i + 1) to_ value.tail callData.tail gasLimit.tail

/-- Each entry takes its arguments from its own place in the arrays, as far as they are there. -/
theorem entries_getElem? : ∀ (to_ : List H160) (i k : ℕ) (value : List U256)
    (callData : List (List UInt8)) (gasLimit : List U64),
    (entries i to_ value callData gasLimit)[k]? = to_[k]?.map fun address =>
      ⟨i + k, address, value[k]?.getD 0, callData[k]?.getD [], gasLimit[k]?.bind limit⟩
  | [], _, _, _, _, _ => by simp [entries]
  | address :: to_, i, 0, value, callData, gasLimit => by
    simp [entries, List.head?_eq_getElem?]
  | address :: to_, i, k + 1, value, callData, gasLimit => by
    rw [entries, List.getElem?_cons_succ, List.getElem?_cons_succ, entries_getElem? to_]
    simp only [List.getElem?_tail, Nat.add_right_comm i 1 k, Nat.add_assoc]

theorem map_index_entries : ∀ (to_ : List H160) (i : ℕ) (value : List U256)
    (callData : List (List UInt8)) (gasLimit : List U64),
    (entries i to_ value callData gasLimit).map Entry.index = List.range' i to_.length
  | [], _, _, _, _ => rfl
  | address :: to_, i, value, callData, gasLimit => by
    rw [entries, List.map_cons, map_index_entries to_, List.length_cons, List.range'_succ]

/-- Whether the loop goes on with the next entry, or the batch returns `Ok`. -/
inductive Flow where
  | next
  | stop
deriving DecidableEq

section Loop

variable {H : Type} (cfg : Config) (hd : Handle H)

def lift (f : H → Except ExitError H) : Call H PrecompileFailure Unit := fun h =>
  match f h with
  | .ok h' => (.ok (), h')
  | .error e => (.err (.error e), h)

def handleCall (sub : SubCall) : Call H PrecompileFailure (ExitReason × List UInt8) := fun h =>
  (.ok (hd.call sub h).1, (hd.call sub h).2)

/-- Pay for a log and emit it. -/
def emit (log : SubcallLog) : Call H PrecompileFailure Unit := do
  lift (hd.recordLogCosts log)
  lift (hd.log log)

/-- How to proceed after an entry that could not be paid. -/
def outOfGas : Mode → Call H PrecompileFailure Flow
  | .batchAll => Call.err (.error .outOfGas)
  | .batchSomeUntilFailure => pure .stop
  | .batchSome => pure .next

def subCall (e : Entry) (gas : U64) : SubCall where
  codeAddress := e.address
  transfer := if e.value.val = 0 then none else some ⟨hd.caller, e.address, e.value⟩
  input := e.callData
  targetGas := some gas
  isStatic := false
  context := { caller := hd.caller, address := e.address, apparentValue := e.value }

def logReason (index : ℕ) : ExitReason → Call H PrecompileFailure Unit
  | .revert => emit hd (logSubcallFailed hd.codeAddress index)
  | .error _ => emit hd (logSubcallFailed hd.codeAddress index)
  | .succeed => emit hd (logSubcallSucceeded hd.codeAddress index)
  | .fatal _ => pure ()

/-- How to proceed after a subcall. -/
def proceed (output : List UInt8) : Mode → ExitReason → Call H PrecompileFailure Flow
  -- Fatal is always fatal
  | _, .fatal f => Call.err (.fatal f)
  -- reverts and errors are immediately forwarded
  | .batchAll, .revert => Call.err (.revert (.bytes output))
  | .batchAll, .error e => Call.err (.error e)
  -- reverts and errors prevent subsequent subcalls
  | .batchSomeUntilFailure, .revert => pure .stop
  | .batchSomeUntilFailure, .error _ => pure .stop
  | _, _ => pure .next

/-- The subcall of an entry, its log, and how to proceed. -/
def callEntry (mode : Mode) (e : Entry) (forwardedGas : U64) : Call H PrecompileFailure Flow := do
  let (reason, output) ← handleCall hd (subCall hd e forwardedGas)
  logReason hd e.index reason
  proceed output mode reason

/-- The body of the loop. -/
def processEntry (mode : Mode) (logCost : U64) (e : Entry) : Call H PrecompileFailure Flow := do
  let h ← Call.get
  -- We reserve enough gas to emit a final log and perform the subcall itself.
  match (hd.remainingGas h).checkedSub logCost, mode with
  | none, .batchAll => Call.err (.error .outOfGas)
  | none, _ => pure .stop
  | some remaining, _ =>
    match remaining.checkedSub (cfg.callCost e.value) with
    | none => do
      emit hd (logSubcallFailed hd.codeAddress e.index)
      outOfGas mode
    | some forwardedGas =>
      match e.gasLimit with
      | none => callEntry hd mode e forwardedGas
      | some limit =>
        if forwardedGas < limit then do
          emit hd (logSubcallFailed hd.codeAddress e.index)
          outOfGas mode
        else callEntry hd mode e limit

def batchLoop (mode : Mode) (logCost : U64) : List Entry → Call H PrecompileFailure Unit
  | [] => pure ()
  | e :: es => do
    match ← processEntry cfg hd mode logCost e with
    | .next => batchLoop mode logCost es
    | .stop => pure ()

def innerBatch (mode : Mode) (to_ : List H160) (value : List U256) (callData : List (List UInt8))
    (gasLimit : List U64) : Call H PrecompileFailure Unit := do
  -- Cost of batch log. (doesn't change when index changes)
  let logCost ← Call.okOr (cfg.computeCost (logSubcallFailed hd.codeAddress 0))
    (revert "Failed to compute log cost")
  batchLoop cfg hd mode logCost (entries 0 to_ value callData gasLimit)

def batchSome : List H160 → List U256 → List (List UInt8) → List U64 →
    Call H PrecompileFailure Unit :=
  innerBatch cfg hd .batchSome

def batchSomeUntilFailure : List H160 → List U256 → List (List UInt8) → List U64 →
    Call H PrecompileFailure Unit :=
  innerBatch cfg hd .batchSomeUntilFailure

def batchAll : List H160 → List U256 → List (List UInt8) → List U64 →
    Call H PrecompileFailure Unit :=
  innerBatch cfg hd .batchAll

end Loop

end Batch

end Moonkit
