import Bria.DurableFlow.Process

/-!
# The calls of the fence as methods

`Commit`, `VerifyAcceptance` and `Lease` from their first line to their last, as the flow calls
them. What a method adds to the log is what it asks of the journal.
-/

namespace Bria.AcceptedInput

open Go MessageJournal DurableFlow Program

/-! ## Commit -/

/-- The call of `MarkInputAccepted` in `Commit`. -/
def CommitCall.mark (call : CommitCall) : InputCall :=
  .markInputAccepted call.key.sessionID call.key.messageID call.owner

/-- The write of `Commit`, which is tried once again after an error. -/
def markTwice (ctx : Ctx) (call : CommitCall) : Method (Input × Option Err) := do
  match ← callInput ctx.withoutCancel call.mark with
  | (_, some _) => callInput ctx.withoutCancel call.mark
  | (accepted, none) => return (accepted, none)

/-- `Commit`. -/
def commit (ctx : Ctx) (call : CommitCall) : Method (Option Err) := do
  match ← callLookup ctx call.key with
  | .error e => return some e
  | .ok (input, _) =>
    if acknowledged input.phase then return none
    else if input.phase ≠ some .pending ∨ input.lease.owner ≠ call.owner ∨ call.owner = [] then
      return some (err .invalidReceipt)
    else
      callObserve call.key
      match ← markTwice ctx call with
      | (_, some e) => return some e
      | (accepted, none) =>
        if call.confirms accepted then
          callClear call.key
          return none
        else return some (err .invalidReceipt)

/-- `VerifyAcceptance`. -/
def verifyAcceptance (ctx : Ctx) (key : Receipt) : Method (Option Err) := do
  match ← callLookup ctx key with
  | .error e => return some e
  | .ok (input, _) =>
    if acknowledged input.phase then return none else return some (err .invalidReceipt)

/-! ## Lease -/

/-- The loop of `Lease`: the error that it returns, nil when it comes to an end. -/
def leaseLoop (ctx : Ctx) (sessionID : GoString) : List Receipt → Method (Option Err)
  | [] => return none
  | key :: rest =>
    if key.sessionID ≠ sessionID then leaseLoop ctx sessionID rest
    else do
      match ← callLookup ctx key with
      | .error e => return some e
      | .ok (input, _) =>
        if input.phase.all (!·.handedOff) then return some (err .uncommitted)
        else
          callClear key
          leaseLoop ctx sessionID rest

/-- `Lease`. -/
def lease (ctx : Ctx) (call : LeaseCall) : Method (Input × Option Err) := do
  let keys ← callBlocked
  match ← leaseLoop ctx call.sessionID keys with
  | some e => return ({}, some e)
  | none => callInput ctx (.leaseNextInput call.sessionID call.owner call.now call.duration)

/-! ## What a call asks -/

variable {limits : Limits} {keys : List Receipt} {process process' : Process} {ctx : Ctx}
  {call : CommitCall} {e : Option Err} {input : Input} {P : Done → Prop}

end Bria.AcceptedInput
