import Bria.MessageJournal.Persistence

/-!
# Input operations

The operations of `input.go` on a session's inputs, each as a `Call`. A change finds its session,
computes the session it leaves, and writes it back through the pointer that `sessionAt` returned
(`changeSession`). Most operations write one record: they find it by its message id and apply a
transition, a function from the record to the record it becomes or the error that refuses it.
-/

namespace Bria.MessageJournal

open Go

/-! ## Sessions of a document -/

section

variable (loaded : Document) (sessionID : GoString)

/-- `sessionAt` without `create`. -/
def sessionAt : Option SessionRecord := loaded.sessions.find? (·.sessionID = sessionID)

/-- The write of a session through the pointer that `sessionAt` returned. -/
def Document.setSession (session : SessionRecord) : Document :=
  { loaded with
    sessions := Table.replaceFirst (·.sessionID = session.sessionID) session loaded.sessions }

/-- `sessionAt` without `create`, for a caller that returns `missing` when there is no session. -/
def findSession (missing : Err) : Except Err (Document × SessionRecord) :=
  match sessionAt loaded sessionID with
  | some session => .ok (loaded, session)
  | none => .error missing

/-- `sessionAt` with `create`: the document has the session that it returns. -/
def createSession (limits : Limits) : Except Err (Document × SessionRecord) :=
  match sessionAt loaded sessionID with
  | some session => .ok (loaded, session)
  | none =>
    if loaded.sessions.length = limits.maxSessions then .error (err .journalFull)
    else .ok ({ loaded with sessions := loaded.sessions ++ [{ sessionID }] }, { sessionID })

end

/-- A change of one session: the rest of the document stays. -/
def changeSession {α : Type} (found : Except Err (Document × SessionRecord)) (zero : α)
    (change : SessionRecord → α × Except Err SessionRecord) : α × Except Err Document :=
  match found with
  | .error e => (zero, .error e)
  | .ok (loaded, session) =>
    match change session with
    | (result, .error e) => (result, .error e)
    | (result, .ok session) => (result, .ok (loaded.setSession session))

/-! ## Argument checks -/

variable (limits : Limits) (ctx : Context) (sessionID messageID : GoString)

/-- `validateInputIdentity`. -/
def validateInputIdentity :
    Except Err Unit := do
  validateOpaqueID sessionID limits.maxIDBytes "session id"
  validateOpaqueID messageID limits.maxIDBytes "message id"

variable (payload owner : GoString) (now : Time) (sequence : Nat) (attachments : List AttachmentRef)

/-- `validateInputValues`. -/
def validateInputValues :
    Except Err Unit := do
  validateInputIdentity limits sessionID messageID
  refuse (limits.maxPayloadBytes < payload.length) (.message "input payload exceeds its limit")
  ((attachmentRecords attachments).getD []).forM fun attachment =>
    (validateAttachmentRecord attachment limits).mapError fun _ =>
      .message "invalid input attachment"

/-- `validateLeaseRequest`. -/
def validateLeaseRequest (duration : Int) : Except Err Unit := do
  checkContext ctx
  validateOpaqueID sessionID limits.maxIDBytes "session id"
  validateOpaqueID owner limits.maxIDBytes "lease owner"
  refuse (now.isZero || duration ≤ 0 || limits.maxLeaseDuration < duration ||
      (now.add duration).unixNano ≤ 0)
    (.message "lease time or duration is invalid")

/-! ## Enqueue -/

section

variable (duration : Int) (session : SessionRecord)

/-- The change of `EnqueueInputWithAttachments` on its session. -/
def enqueueInputRecord : (Input × Bool) × Except Err SessionRecord :=
  match session.inputs.find? (·.messageID = messageID) with
  | some record =>
    if record.payload ≠ payload ∨ record.attachments ≠ attachmentRecords attachments then
      (({}, false), .error (err .conflict))
    else ((inputFromRecord session.sessionID record, false), .error (err .noMutation))
  | none =>
    if session.inputs.length = limits.maxInputsPerSession then
      (({}, false), .error (err .journalFull))
    else if session.inputs.countP (·.phase = .pending) = limits.maxPendingInputsPerSession then
      (({}, false), .error (err .queueFull))
    else if session.nextSequence = maxUint64 then (({}, false), .error (err .journalFull))
    else
      let record : InputRecord :=
        { messageID, sequence := session.nextSequence + 1, payload
          attachments := attachmentRecords attachments, phase := .pending }
      ((inputFromRecord session.sessionID record, true),
        .ok { session with
          nextSequence := session.nextSequence + 1
          inputs := session.inputs ++ [record] })

/-- `EnqueueInputWithAttachments`. -/
def enqueueInputWithAttachments : Call (Input × Bool) :=
  .checked
    (do checkContext ctx
        validateInputValues limits sessionID messageID payload attachments)
    ({}, false) fun loaded =>
      changeSession (do recheckContext ctx; createSession loaded sessionID limits) ({}, false)
        (enqueueInputRecord limits messageID payload attachments)

/-- `EnqueueInput`. -/
def enqueueInput : Call (Input × Bool) :=
  enqueueInputWithAttachments limits ctx sessionID messageID payload []

/-! ## Lease -/

/-- The phases over which the loop of `LeaseNextInput` continues. -/
def InputPhase.handedOff : InputPhase → Bool
  | .accepted | .completed | .terminalFailed | .skipped => true
  | _ => false

/-- Whether the session has an open recovery. -/
def SessionRecord.recoveryOpen : Bool := session.recovery.any (·.phase = .opened)

/-- A lease that has not ended: `record.Lease.Owner != "" && now.UnixNano() < UntilUnix`. -/
def LeaseRecord.live (lease : LeaseRecord) (now : Time) : Bool :=
  lease.owner ≠ [] && now.unixNano < lease.untilUnix

/-- The lease that `owner` takes at `now`. -/
def newLease : LeaseRecord := ⟨owner, (now.add duration).unixNano⟩

/-- The change of `LeaseNextInput` on its session. A failed or unknown input ends the loop, so a
later one does not overtake it. -/
def leaseNextInputRecord : Input × Except Err SessionRecord :=
  if session.recoveryOpen then ({}, .error (err .noAvailable))
  else
    match session.inputs.find? (!·.phase.handedOff) with
    | none => ({}, .error (err .noAvailable))
    | some record =>
      if record.phase ≠ .pending ∨ record.lease.live now then ({}, .error (err .noAvailable))
      else
        let record := { record with lease := newLease owner now duration }
        (inputFromRecord session.sessionID record,
          .ok { session with
            inputs := Table.replaceFirst (!·.phase.handedOff) record
              session.inputs })

/-- `LeaseNextInput`. -/
def leaseNextInput : Call Input :=
  .checked (validateLeaseRequest limits ctx sessionID owner now duration) {} fun loaded =>
    changeSession (findSession loaded sessionID (err .noAvailable)) {}
      (leaseNextInputRecord owner now duration)

/-! ## Transitions of one record -/

/-- A transition: the record it leaves, or the error that refuses it. -/
abbrev InputTransition := SessionRecord → InputRecord → Except Err InputRecord

/-- The loop of `transitionInputWithSession`. -/
def transitionInputRecord (transition : InputTransition) (session : SessionRecord) :
    Input × Except Err SessionRecord :=
  match session.inputs.find? (·.messageID = messageID) with
  | none => ({}, .error (err .notFound))
  | some record =>
    match transition session record with
    | .error e => (inputFromRecord session.sessionID record, .error e)
    | .ok record =>
      (inputFromRecord session.sessionID record,
        .ok { session with
          inputs := Table.replaceFirst (·.messageID = messageID) record session.inputs })

/-- `transitionInputWithSession`. -/
def transitionInputWithSession (transition : InputTransition) : Call Input :=
  .checked
    (do checkContext ctx
        validateInputIdentity limits sessionID messageID)
    {} fun loaded =>
      changeSession (findSession loaded sessionID (err .notFound)) {}
        (transitionInputRecord messageID transition)

end

/-- The transition of `MarkInputAccepted`. -/
def acceptTransition : InputTransition := fun session record => do
  refuse (session.recovery.any fun r => r.phase = .opened && record.sequence ≤ r.throughSequence)
    (err .inputSkipped)
  refuse (record.phase = .skipped) (err .inputSkipped)
  refuse (record.phase = .accepted) (err .noMutation)
  refuse (record.phase ≠ .pending) (err .invalidTransition)
  refuse (record.lease.owner ≠ owner || owner = []) (err .leaseOwner)
  .ok { record with phase := .accepted, lease := {} }

/-- `MarkInputAccepted`. -/
def markInputAccepted : Call Input :=
  transitionInputWithSession limits ctx sessionID messageID (acceptTransition owner)

/-- The transition of `ReplaceLeasedInputPayload`. -/
def replaceTransition (payload : GoString) :
    InputTransition := fun _ record => do
  refuse (record.phase ≠ .pending || record.sequence ≠ sequence) (err .invalidTransition)
  refuse (record.lease.owner ≠ owner || owner = []) (err .leaseOwner)
  refuse (record.payload = payload) (err .noMutation)
  .ok { record with payload }

/-- `ReplaceLeasedInputPayload`. The payload's length is checked before the context. -/
def replaceLeasedInputPayload (payload : GoString) : Call Input :=
  .checked
    (do refuse (limits.maxPayloadBytes < payload.length)
          (.message "input payload exceeds its limit")
        checkContext ctx
        validateInputIdentity limits sessionID messageID)
    {} fun loaded =>
      changeSession (findSession loaded sessionID (err .notFound)) {}
        (transitionInputRecord messageID (replaceTransition owner sequence payload))

/-- The transition of `ReleaseInputLease`. -/
def releaseTransition : InputTransition := fun _ record => do
  refuse (record.phase ≠ .pending) (err .invalidTransition)
  refuse (record.lease = {}) (err .noMutation)
  refuse (record.lease.owner ≠ owner || owner = []) (err .leaseOwner)
  .ok { record with lease := {} }

/-- `ReleaseInputLease`. -/
def releaseInputLease : Call Input :=
  transitionInputWithSession limits ctx sessionID messageID (releaseTransition owner)

/-- The transition of `MarkInputDeliveryFailed` and `MarkInputDeliveryUnknown`, which differ in
the phase they record. -/
def deliveryTransition (phase : InputPhase) (owner : GoString) : InputTransition :=
  fun _ record => do
    refuse (record.phase = phase) (err .noMutation)
    refuse (record.phase ≠ .pending) (err .invalidTransition)
    refuse (record.lease.owner ≠ owner || owner = []) (err .leaseOwner)
    .ok { record with phase, lease := {} }

/-- `MarkInputDeliveryFailed`. -/
def markInputDeliveryFailed : Call Input :=
  transitionInputWithSession limits ctx sessionID messageID (deliveryTransition .failed owner)

/-- `MarkInputDeliveryUnknown`. -/
def markInputDeliveryUnknown : Call Input :=
  transitionInputWithSession limits ctx sessionID messageID (deliveryTransition .unknown owner)

/-- The transition of `transitionInputOutcome`. A zero sequence stands for any. -/
def outcomeTransition (outcome «from» : InputPhase) : InputTransition :=
  fun _ record => do
    refuse (sequence ≠ 0 && record.sequence ≠ sequence) (err .invalidTransition)
    refuse (record.phase = .skipped) (err .inputSkipped)
    refuse (record.phase = outcome || record.phase = .accepted && outcome = .unknown)
      (err .noMutation)
    refuse (record.phase ≠ «from» && !(sequence ≠ 0 && «from» = .accepted &&
        (record.phase = .unknown || record.phase = .failed && outcome = .terminalFailed)))
      (err .invalidTransition)
    .ok { record with phase := outcome }

/-- `transitionInputOutcome`. -/
def transitionInputOutcome (outcome «from» : InputPhase) : Call Input :=
  transitionInputWithSession limits ctx sessionID messageID
    (outcomeTransition sequence outcome «from»)

/-- `CompleteInput`. -/
def completeInput : Call Input :=
  transitionInputOutcome limits ctx sessionID messageID 0 .completed .accepted

/-- `FailInput`. -/
def failInput : Call Input :=
  transitionInputOutcome limits ctx sessionID messageID 0 .failed .accepted

/-- `MarkInputUnknown`. -/
def markInputUnknown : Call Input :=
  transitionInputOutcome limits ctx sessionID messageID 0 .unknown .accepted

/-! ## Retry -/

/-- The transition of `RetryInput`, which counts the session's pending inputs first. -/
def retryTransition : InputTransition := fun session record => do
  refuse (record.phase = .pending) (err .noMutation)
  refuse (record.phase ≠ .failed && record.phase ≠ .unknown) (err .invalidTransition)
  refuse (session.inputs.countP (·.phase = .pending) = limits.maxPendingInputsPerSession)
    (err .queueFull)
  .ok { record with phase := .pending, lease := {} }

/-- `RetryInput`. -/
def retryInput : Call Input :=
  transitionInputWithSession limits ctx sessionID messageID (retryTransition limits)

/-! ## Reading -/

/-- `Inputs`: the records of a session, none when there is no session. -/
def inputs (limits : Limits) (ctx : Context) (fault : Bool) (sessionID : GoString) (disk : Disk) :
    Except Err (List Input) := do
  checkContext ctx
  validateOpaqueID sessionID limits.maxIDBytes "session id"
  let loaded ← readFile limits fault disk
  recheckContext ctx
  match sessionAt loaded sessionID with
  | none => .ok []
  | some session => .ok (session.inputs.map (inputFromRecord sessionID))

end Bria.MessageJournal
