import Bria.MessageJournal.Output

/-!
# Recovery operations

The operations of `recovery.go`: the outcomes of accepted and unknown inputs, and the recovery
boundary of a session. `BeginInputRecovery` opens a boundary at the session's last sequence, or
takes over one that is open; `CommitInputRecoverySkip` and `CommitInputRecoveryAttach` close it,
each with its own treatment of the inputs at or below it.
-/

namespace Bria.MessageJournal

open Go

/-- A method that refuses its arguments before anything else. -/
def Call.refusing {α : Type} (call : Call α) (c : Bool) (e : Err) : Call α :=
  if c then { call with early := some (call.zero, some e) } else call

/-- A further check leaves the change as it is. -/
@[simp]
theorem Call.refusing_change {α : Type} (c : Bool) (e : Err) (call : Call α) :
    (call.refusing c e).change = call.change := by
  unfold Call.refusing
  split <;> rfl

variable (limits : Limits) (ctx : Context) (sessionID token : GoString)

variable (messageID : GoString) (sequence : Nat) (outcome : InputPhase) (legacyBlockedOnly : Bool)

/-- `ResolveUnknownInput`. -/
def resolveUnknownInput : Call Input :=
  (transitionInputOutcome limits ctx sessionID messageID sequence outcome .unknown).refusing
    (sequence = 0 || outcome ≠ .completed && outcome ≠ .failed && outcome ≠ .terminalFailed)
    (err .invalidTransition)

/-- `ResolveAcceptedInput`. -/
def resolveAcceptedInput : Call Input :=
  (transitionInputOutcome limits ctx sessionID messageID sequence outcome .accepted).refusing
    (sequence = 0 || outcome ≠ .completed && outcome ≠ .failed && outcome ≠ .unknown &&
      outcome ≠ .terminalFailed)
    (err .invalidTransition)

/-- The checks shared by the operations on a recovery boundary. -/
def validateRecoveryRequest :
    Except Err Unit := do
  checkContext ctx
  validateOpaqueID sessionID limits.maxIDBytes "session id"
  validateOpaqueID token limits.maxIDBytes "input recovery token"

/-! ## Begin -/

/-- The phases that `hasUnresolvedInputs` looks for. -/
def InputPhase.unresolved : InputPhase → Bool
  | .pending | .accepted | .failed | .unknown => true
  | _ => false

section

variable (record : InputRecord) (inputs : List InputRecord) (session : SessionRecord)

/-- `hasUnresolvedInputs`. -/
def hasUnresolvedInputs : Bool := inputs.any (·.phase.unresolved)

/-- The loop of `hasBlockedSuccessor`, with `blockedSequence` so far. -/
def blockedSuccessorFrom : Nat → List InputRecord → Bool
  | _, [] => false
  | blockedSequence, input :: rest =>
    if blockedSequence = 0 ∧ (input.phase = .failed ∨ input.phase = .unknown) then
      blockedSuccessorFrom input.sequence rest
    else if blockedSequence ≠ 0 ∧ blockedSequence < input.sequence ∧ input.phase = .pending then
      true
    else blockedSuccessorFrom blockedSequence rest

/-- `hasBlockedSuccessor`. -/
def hasBlockedSuccessor : Bool := blockedSuccessorFrom 0 inputs

/-- The end of `BeginInputRecovery`, where no open recovery is in the way. -/
def openRecovery : Bool × Except Err SessionRecord :=
  if !hasUnresolvedInputs session.inputs ||
      legacyBlockedOnly && !hasBlockedSuccessor session.inputs then
    (false, .error (err .noMutation))
  else (true, .ok { session with recovery := some ⟨token, session.nextSequence, .opened⟩ })

/-- The change of `BeginInputRecovery` on its session. A later owner takes over an open boundary
without moving it. -/
def beginRecovery : Bool × Except Err SessionRecord :=
  match session.recovery with
  | some recovery =>
    if recovery.token = token then (true, .error (err .noMutation))
    else if recovery.phase = .opened then
      (true, .ok { session with recovery := some { recovery with token } })
    else openRecovery token legacyBlockedOnly session
  | none => openRecovery token legacyBlockedOnly session

/-- `BeginInputRecovery`. -/
def beginInputRecovery : Call Bool :=
  .checked (validateRecoveryRequest limits ctx sessionID token) false fun loaded =>
    changeSession (do recheckContext ctx; findSession loaded sessionID (err .noMutation)) false
      (beginRecovery token legacyBlockedOnly)

/-! ## Commit -/

/-- What `CommitInputRecoverySkip` does to an input at or below the boundary. -/
def skipUnresolved : InputRecord :=
  match record.phase with
  | .pending | .accepted | .failed | .unknown => { record with phase := .skipped, lease := {} }
  | .completed | .terminalFailed | .skipped => record

/-- What `CommitInputRecoveryAttach` does to an input at or below the boundary. -/
def skipAmbiguous : InputRecord :=
  match record.phase with
  | .pending =>
    if record.lease.owner ≠ [] then { record with phase := .skipped, lease := {} } else record
  | .accepted | .completed | .terminalFailed | .skipped => record
  | .failed | .unknown => { record with phase := .skipped, lease := {} }

end

/-- The loop of a commit: it stops at the first input above the boundary. -/
def applyThrough (through : Nat) (f : InputRecord → InputRecord) :
    List InputRecord → List InputRecord
  | [] => []
  | record :: rest =>
    if through < record.sequence then record :: rest
    else f record :: applyThrough through f rest

section

variable (phase : InputRecoveryPhase) (f : InputRecord → InputRecord)

/-- The change of a commit on its session: `f` is its treatment of an input, and `phase` the
phase in which it leaves the boundary. -/
def commitRecovery (session : SessionRecord) : Unit × Except Err SessionRecord :=
  match session.recovery with
  | none => ((), .error (err .notFound))
  | some recovery =>
    if recovery.token ≠ token then ((), .error (err .conflict))
    else if recovery.phase = phase then ((), .error (err .noMutation))
    else if recovery.phase ≠ .opened then ((), .error (err .invalidFormat))
    else ((), .ok { session with
      inputs := applyThrough recovery.throughSequence f session.inputs
      recovery := some { recovery with phase } })

/-- The call that both commits make. -/
def commitInputRecovery : Call Unit :=
  .checked (validateRecoveryRequest limits ctx sessionID token) () fun loaded =>
    changeSession (do recheckContext ctx; findSession loaded sessionID (err .notFound)) ()
      (commitRecovery token phase f)

end

/-- `CommitInputRecoverySkip`. -/
def commitInputRecoverySkip : Call Unit :=
  commitInputRecovery limits ctx sessionID token .committed skipUnresolved

/-- `CommitInputRecoveryAttach`. -/
def commitInputRecoveryAttach : Call Unit :=
  commitInputRecovery limits ctx sessionID token .attached skipAmbiguous

end Bria.MessageJournal
