import Bria.MessageJournal.Input

/-!
# Output operations

The operations of `output.go`. They have the shape of the input operations. A lease may look
through several sessions, and unlike a failed input a failed output does not hold up the ones
after it.
-/

namespace Bria.MessageJournal

open Go

variable (operationID owner : GoString) (limits : Limits) (ctx : Context)

/-- `validateOutputValues`. -/
def validateOutputValues (sessionID operationID kind payload : GoString) :
    Except Err Unit := do
  validateOpaqueID sessionID limits.maxIDBytes "session id"
  validateOpaqueID operationID limits.maxIDBytes "operation id"
  refuse (blank kind || trimSpace kind ≠ kind || limits.maxKindBytes < kind.length)
    (.message "output kind is invalid")
  refuse (limits.maxPayloadBytes < payload.length) (.message "output payload exceeds its limit")

/-! ## Enqueue -/

/-- The change of `EnqueueOutput` on its session. -/
def enqueueOutputRecord (operationID kind payload : GoString) (session : SessionRecord) :
    (Output × Bool) × Except Err SessionRecord :=
  match session.outputs.find? (·.operationID = operationID) with
  | some record =>
    if record.kind ≠ kind ∨ record.payload ≠ payload then (({}, false), .error (err .conflict))
    else ((outputFromRecord session.sessionID record, false), .error (err .noMutation))
  | none =>
    if session.outputs.length = limits.maxOutputsPerSession ∨
        session.nextSequence = maxUint64 then
      (({}, false), .error (err .journalFull))
    else
      let record : OutputRecord :=
        { operationID, sequence := session.nextSequence + 1, kind, payload, phase := .pending }
      ((outputFromRecord session.sessionID record, true),
        .ok { session with
          nextSequence := session.nextSequence + 1
          outputs := session.outputs ++ [record] })

/-- `EnqueueOutput`. -/
def enqueueOutput (sessionID operationID kind payload : GoString) : Call (Output × Bool) :=
  .checked
    (do checkContext ctx
        validateOutputValues limits sessionID operationID kind payload)
    ({}, false) fun loaded =>
      changeSession (do recheckContext ctx; createSession loaded sessionID limits) ({}, false)
        (enqueueOutputRecord limits operationID kind payload)

/-! ## Lease -/

/-- `leaseNextOutput`: the session with its first pending output leased, none when there is no
such output or its lease is live. -/
def leaseNextOutputRecord (now : Time) (duration : Int) (session : SessionRecord) :
    Option (Output × SessionRecord) :=
  match session.outputs.find? (·.phase = .pending) with
  | none => none
  | some record =>
    if record.lease.live now then none
    else
      let record := { record with lease := newLease owner now duration }
      some (outputFromRecord session.sessionID record,
        { session with outputs := Table.replaceFirst (·.phase = .pending) record session.outputs })

/-- The loop of `LeaseNextOutputForSessions`. -/
def leaseOutputLoop (owner : GoString) (now : Time) (duration : Int) (loaded : Document) :
    List GoString → Output × Except Err Document
  | [] => ({}, .error (err .noAvailable))
  | sessionID :: rest =>
    match sessionAt loaded sessionID with
    | none => leaseOutputLoop owner now duration loaded rest
    | some session =>
      match leaseNextOutputRecord owner now duration session with
      | none => leaseOutputLoop owner now duration loaded rest
      | some (output, session) => (output, .ok (loaded.setSession session))

/-- `LeaseNextOutputForSessions`. -/
def leaseNextOutputForSessions (sessionIDs : List GoString) (owner : GoString) (now : Time)
    (duration : Int) : Call Output :=
  match sessionIDs with
  | [] => ⟨some ({}, some (err .noAvailable)), {}, fun _ => ({}, .error (err .noAvailable))⟩
  | first :: rest =>
    .checked
      (do validateLeaseRequest limits ctx first owner now duration
          rest.forM fun sessionID => validateOpaqueID sessionID limits.maxIDBytes "session id")
      {} fun loaded => leaseOutputLoop owner now duration loaded sessionIDs

/-- `LeaseNextOutput`. -/
def leaseNextOutput (sessionID owner : GoString) (now : Time) (duration : Int) : Call Output :=
  leaseNextOutputForSessions limits ctx [sessionID] owner now duration

/-! ## Supersede -/

variable (receipt keepOperationID : GoString) (keepSequence : Nat) (kinds : List GoString)

/-- The condition of the loop of `SupersedePendingOutputs`: an unleased pending output of a wanted
kind before the one to keep. -/
def supersedable (record : OutputRecord) : Bool :=
  record.operationID ≠ keepOperationID && record.sequence < keepSequence &&
    record.phase = .pending && record.lease.owner = [] && kinds.any (· = record.kind)

/-- One turn of the loop of `SupersedePendingOutputs`. -/
def supersedeRecord (record : OutputRecord) : OutputRecord :=
  if supersedable keepOperationID keepSequence kinds record then
    { record with phase := .superseded }
  else record

/-- The change of `SupersedePendingOutputs` on its session. -/
def supersedeRecords (session : SessionRecord) : List Output × Except Err SessionRecord :=
  match session.outputs.find? (·.operationID = keepOperationID) with
  | none => ([], .error (err .notFound))
  | some keep =>
    if keep.sequence = 0 then ([], .error (err .notFound))
    else
      let swept := session.outputs.filter (supersedable keepOperationID keep.sequence kinds)
      let result := swept.map fun record =>
        outputFromRecord session.sessionID { record with phase := .superseded }
      if result = [] then (result, .error (err .noMutation))
      else (result, .ok { session with
        outputs := session.outputs.map (supersedeRecord keepOperationID keep.sequence kinds) })

/-- `SupersedePendingOutputs`. Without kinds it returns before the journal is touched. -/
def supersedePendingOutputs (sessionID keepOperationID : GoString) (kinds : List GoString) :
    Call (List Output) :=
  let check : Except Err Unit := do
    checkContext ctx
    validateOpaqueID sessionID limits.maxIDBytes "session id"
    validateOpaqueID keepOperationID limits.maxIDBytes "operation id"
    kinds.forM fun kind =>
      refuse (blank kind || kind ≠ trimSpace kind || limits.maxKindBytes < kind.length)
        (.message "output kind is invalid")
  { early :=
      match check with
      | .error e => some ([], some e)
      | .ok () => if kinds = [] then some ([], none) else none
    zero := []
    change := fun loaded =>
      changeSession (findSession loaded sessionID (err .notFound)) []
        (supersedeRecords keepOperationID kinds) }

/-! ## Transitions of one record -/

/-- A transition: the record it leaves, or the error that refuses it. -/
abbrev OutputTransition := OutputRecord → Except Err OutputRecord

/-- The loop of `transitionOutput`. -/
def transitionOutputRecord (transition : OutputTransition) (session : SessionRecord) :
    Output × Except Err SessionRecord :=
  match session.outputs.find? (·.operationID = operationID) with
  | none => ({}, .error (err .notFound))
  | some record =>
    match transition record with
    | .error e => (outputFromRecord session.sessionID record, .error e)
    | .ok record =>
      (outputFromRecord session.sessionID record,
        .ok { session with
          outputs := Table.replaceFirst (·.operationID = operationID) record session.outputs })

/-- `transitionOutput`, after the checks `first` of its caller. -/
def transitionOutput (first : Except Err Unit) (sessionID operationID : GoString)
    (transition : OutputTransition) : Call Output :=
  .checked
    (do first
        checkContext ctx
        validateOpaqueID sessionID limits.maxIDBytes "session id"
        validateOpaqueID operationID limits.maxIDBytes "operation id")
    {} fun loaded =>
      changeSession (findSession loaded sessionID (err .notFound)) {}
        (transitionOutputRecord operationID transition)

/-- The transition of `ConfirmOutput`. -/
def confirmTransition : OutputTransition := fun record => do
  refuse (record.phase = .confirmed && record.receipt ≠ receipt) (err .conflict)
  refuse (record.phase = .confirmed) (err .noMutation)
  refuse (record.phase ≠ .pending) (err .invalidTransition)
  refuse (record.lease.owner ≠ owner || owner = []) (err .leaseOwner)
  .ok { record with phase := .confirmed, receipt, lease := {} }

/-- `ConfirmOutput`. -/
def confirmOutput (sessionID operationID owner receipt : GoString) : Call Output :=
  transitionOutput limits ctx
    (refuse (blank receipt || limits.maxReceiptBytes < receipt.length)
      (.message "output receipt is invalid"))
    sessionID operationID (confirmTransition owner receipt)

/-- The transition of `finishOutput`. -/
def finishTransition (phase : OutputPhase) : OutputTransition :=
  fun record => do
    refuse (record.phase = phase) (err .noMutation)
    refuse (record.phase ≠ .pending) (err .invalidTransition)
    refuse (record.lease.owner ≠ owner || owner = []) (err .leaseOwner)
    .ok { record with phase, lease := {} }

section

variable (sessionID operationID owner : GoString)

/-- `finishOutput`. -/
def finishOutput (phase : OutputPhase) : Call Output :=
  transitionOutput limits ctx (.ok ()) sessionID operationID (finishTransition owner phase)

/-- `MarkOutputFailed`. -/
def markOutputFailed : Call Output := finishOutput limits ctx sessionID operationID owner .failed

/-- `MarkOutputUnknown`. -/
def markOutputUnknown : Call Output := finishOutput limits ctx sessionID operationID owner .unknown

/-- The transition of `RetryOutput`. -/
def retryOutputTransition : OutputTransition := fun record => do
  refuse (record.phase = .pending) (err .noMutation)
  refuse (record.phase ≠ .failed && record.phase ≠ .unknown) (err .invalidTransition)
  .ok { record with phase := .pending, lease := {} }

/-- `RetryOutput`. -/
def retryOutput : Call Output :=
  transitionOutput limits ctx (.ok ()) sessionID operationID retryOutputTransition

end

end Bria.MessageJournal
