import Bria.AcceptedInput.Calls

/-!
# Processing an input

`ProcessNextInput` of `flow.go`. It leases the next input of a session, gives it to a processor and
ends with what the processor has reported. The processor is not trusted: it is any tree of calls of
the three callbacks, each under any context and with any arguments, that goes on with what a
callback returned and ends with any result and any error. Its goroutines may call back beside each
other. `OnPrepared` and `OnCompleted` ask the journal once, so that their calls stand in some order;
`OnAccepted` has two steps in the tree, the observation and the commit, and the processor may do
anything between them, or return. What is committed after the return is not in the tree: the call of
`ProcessNextInput` no longer waits for it.
-/

namespace Bria.DurableFlow

open Go MessageJournal AcceptedInput Program Process

/-! ## The flow -/

/-- `Flow`: the parts of it that its methods look at, with what `New` checks. -/
structure Flow where
  owner : GoString
  leaseDuration : Int
  /-- Whether there is a sender. -/
  sender : Bool
  /-- Whether the journal has `LeaseNextOutputForSessions`. -/
  batch : Bool
  ownerNonblank : blank owner = false
  ownerTrimmed : owner = trimSpace owner
  leasePositive : 0 < leaseDuration

/-! ## Processors -/

/-- `ProviderInput`. -/
structure ProviderInput where
  (sessionID messageID : GoString)
  sequence : Nat
  payload : GoString
  attachments : List AttachmentRef

/-- `InputProcessState`, a string of which the constants are named. -/
inductive InputProcessState where
  | accepted
  | deferred
  | completed
  | failed
  | terminalFailed
  | unknown
  | other (text : GoString)
  deriving DecidableEq

/-- `InputProcessResult`. -/
structure InputProcessResult where
  sessionID : GoString := []
  messageID : GoString := []
  sequence : Nat := 0
  state : InputProcessState := .other []

/-- What a processor does: it calls back, goes on with the error it is given, and ends. -/
inductive Processor where
  /-- It returns. -/
  | finish (result : InputProcessResult) (error : Option Err)
  /-- It calls `OnPrepared`. -/
  | onPrepared (ctx : Ctx) (prepared : ProviderInput) (next : Option Err → Processor)
  /-- It calls `OnAccepted`, which observes the acceptance or returns an error. -/
  | startAccepted (receipt : HandoffResult) (next : Option Err → Processor)
  /-- The call of `OnAccepted` that is in flight, if there is one, commits and returns. -/
  | endAccepted (ctx : Ctx) (next : Option Err → Processor)
  /-- It calls `OnCompleted`. -/
  | onCompleted (ctx : Ctx) (receipt : InputProcessResult) (next : Option Err → Processor)

section

variable (flow : Flow) (ctx : Ctx) (result : InputProcessResult) (input : Input)

/-- The receipt of an input. -/
def keyOf : Receipt := ⟨input.sessionID, input.messageID, input.sequence⟩

/-- The receipt that the processor's results name. -/
def InputProcessResult.key : Receipt := ⟨result.sessionID, result.messageID, result.sequence⟩

/-- The receipt that a prepared input names. -/
def ProviderInput.key (prepared : ProviderInput) : Receipt :=
  ⟨prepared.sessionID, prepared.messageID, prepared.sequence⟩

/-- The receipt that a hand-off names. -/
def HandoffResult.key (receipt : HandoffResult) : Receipt :=
  ⟨receipt.sessionID, receipt.messageID, receipt.sequence⟩

/-! ## The journal's side -/

/-- `RecordLeasedInputAccepted`. -/
def recordLeasedInputAccepted (key : Receipt) :
    Method (HandoffResult × Option Err) := do
  match ← commit ctx ⟨key, flow.owner⟩ with
  | none => return (⟨key.sessionID, key.messageID, key.sequence, .accepted⟩, none)
  | some e => return (⟨key.sessionID, key.messageID, key.sequence, .unknown⟩, some e)

/-- `markInputUnknown`. -/
def markInputUnknown : Method (Option Err) := do
  let (_, e) ← callInput ctx (.markInputDeliveryUnknown input.sessionID input.messageID flow.owner)
  return e

/-- `messagejournal.InputPhase(result.State)` for the states that end an accepted input. -/
def InputProcessState.outcome : InputProcessState → Option InputPhase
  | .completed => some .completed
  | .failed => some .failed
  | .unknown => some .unknown
  | .terminalFailed => some .terminalFailed
  | .accepted | .deferred | .other _ => none

/-- `recordProcessOutcome`. -/
def recordProcessOutcome : Method (Option Err) :=
  if result.sequence = 0 then return some (err .invalidReceipt)
  else if result.state = .accepted then verifyAcceptance ctx.withoutCancel result.key
  else
    match result.state.outcome with
    | none => return some (err .invalidReceipt)
    | some outcome => do
      let (_, e) ← callInput ctx.withoutCancel
        (.resolveAcceptedInput result.sessionID result.messageID result.sequence outcome)
      if e.any fun e => e.is .invalidTransition || e.is .notFound then
        return joinErrors (some (err .invalidReceipt)) e
      else return e

/-! ## The callbacks -/

/-- The variables that the callbacks share. -/
structure Progress where
  accepted : Bool := false
  observed : Bool := false
  acceptanceErr : Option Err := none
  /-- A call of `OnAccepted` has observed the acceptance and not returned yet. -/
  inFlight : Bool := false

/-- `OnPrepared`. -/
def onPrepared (ctx : Ctx) (prepared : ProviderInput) : Method (Option Err) :=
  if prepared.key ≠ keyOf input then return some (err .invalidReceipt)
  else do
    let (persisted, e) ← callInput ctx (.replaceLeasedInputPayload input.sessionID input.messageID
      flow.owner input.sequence prepared.payload)
    if e.isSome ∨ persisted.sequence ≠ input.sequence ∨ persisted.payload ≠ prepared.payload then
      return joinErrors (some (err .invalidReceipt)) e
    else return none

/-- `OnAccepted` up to its commit. Only the first call with the exact receipt gets past the check. -/
def startAccepted (input : Input) (progress : Progress) (receipt : HandoffResult) :
    Method (Option Err × Progress) :=
  if receipt.key ≠ keyOf input ∨ receipt.state ≠ .accepted ∨ progress.observed then
    return (some (err .invalidReceipt), progress)
  else do
    callObserve (keyOf input)
    return (none, { progress with observed := true, inFlight := true })

/-- The rest of `OnAccepted`. -/
def endAccepted (flow : Flow) (input : Input) (progress : Progress) (ctx : Ctx) :
    Method (Option Err × Progress) :=
  if progress.inFlight then do
    let (persisted, e) ← recordLeasedInputAccepted flow ctx (keyOf input)
    if e.isSome ∨ persisted.state ≠ .accepted then
      let e := joinErrors (some (err .invalidReceipt)) e
      return (e, { progress with inFlight := false, acceptanceErr := e })
    else return (none, { progress with inFlight := false, accepted := true })
  else return (none, progress)

/-- `OnCompleted`. -/
def onCompleted (progress : Progress) (ctx : Ctx) (receipt : InputProcessResult) :
    Method (Option Err) :=
  if !progress.accepted ∨ receipt.key ≠ keyOf input then return some (err .invalidReceipt)
  else recordProcessOutcome ctx receipt

end

/-- A receipt that proves the acceptance of the input. -/
def HandoffResult.Proves (receipt : HandoffResult) (input : Input) : Prop :=
  receipt.key = keyOf input ∧ receipt.state = .accepted

/-- An entry that writes the input and leaves its lease alone while it is pending. -/
def Done.Tends (input : Input) : Done → Prop
  | .input call ctx _ _ _ =>
    (call.op ctx).writes = some (input.sessionID, input.messageID) ∧ (call.op ctx).leases = false
  | _ => False

variable {limits : Limits} {flow : Flow} {input : Input} {ctx : Ctx} {p p1 p' : Process}
  {receipt processed result : InputProcessResult} {progress' : Progress} {done : List Done}
  {processErr : Option Err} {sessionID : GoString} {r : InputRecord}

variable {progress : Progress}

/-- What the shared variables say about the calls so far: a proof of the acceptance was observed,
and if its commit has failed, the error is kept. -/
structure Progress.Tracks (input : Input) (progress : Progress) (done : List Done) : Prop where
  observed : ∀ receipt, .reported receipt ∈ done → receipt.Proves input → progress.observed
  failed : progress.observed → progress.accepted = false → progress.inFlight = false →
    progress.acceptanceErr ≠ none

variable {e : Option Err}

/-- Every call of `OnAccepted` that observes the acceptance commits and returns before the processor
does. The flag says that one is in flight. -/
def Processor.Waits : Processor → Bool → Prop
  | .finish _ _, inFlight => inFlight = false
  | .onPrepared _ _ next, inFlight => ∀ e, (next e).Waits inFlight
  | .startAccepted _ next, inFlight => (next none).Waits true ∧ ∀ e, (next (some e)).Waits inFlight
  | .endAccepted _ next, _ => ∀ e, (next e).Waits false
  | .onCompleted _ _ next, inFlight => ∀ e, (next e).Waits inFlight

/-- An entry of a processor's run: it tends to the input, or it reports an acceptance. -/
def Done.Processes (input : Input) (entry : Done) : Prop :=
  entry.Tends input ∨ ∃ receipt, entry = .reported receipt

/-- A run after `done` writes the input only, and the shared variables follow it. -/
def Followed (limits : Limits) (input : Input) (p p' : Process) (done : List Done)
    (progress : Progress) : Prop :=
  ∃ later, Extends limits p p' later ∧ (∀ entry ∈ later, entry.Processes input) ∧
    progress.Tracks input (done ++ later)

theorem Followed.after {first : List Done} (h : Followed limits input p1 p' (done ++ first) progress)
    (hext : Extends limits p p1 first) (hfirst : ∀ entry ∈ first, entry.Processes input) :
    Followed limits input p p' done progress := by
  obtain ⟨later, hext1, hlater, hend⟩ := h
  exact ⟨first ++ later, hext.trans hext1, forall_mem_append.mpr ⟨hfirst, hlater⟩,
    by simpa using hend⟩

/-- The call of `ReleaseInputLease` for the input. -/
def Done.Releases (flow : Flow) (input : Input) (entry : Done) : Prop :=
  ∃ context faults result error, entry =
    .input (.releaseInputLease input.sessionID input.messageID flow.owner) context faults result
      error

/-- The steps of a log, from its entries. -/
theorem forall_mem_events {Q : Event → Prop}
    (h : ∀ entry ∈ done, ∀ event, entry.event = some event → Q event) :
    ∀ event ∈ events done, Q event := by
  intro event hevent
  obtain ⟨entry, hentry, heq⟩ := List.mem_filterMap.mp hevent
  exact h entry hentry event heq

variable {entry : Done}

/-- What a call that tends to the input does to the file. -/
theorem Done.Tends.event {event : Event} (h : entry.Tends input)
    (hevent : entry.event = some event) :
    event.op.writes = some (input.sessionID, input.messageID) ∧ event.op.leases = false := by
  cases entry with
  | input call ctx faults result error =>
    simp only [Done.event, some.injEq] at hevent
    rw [← hevent]
    exact h
  | output | reported | delivered => exact h.elim

/-- What an entry of a processor's run does to the file. -/
theorem Done.Processes.event {event : Event} (h : entry.Processes input)
    (hevent : entry.event = some event) :
    event.op.writes = some (input.sessionID, input.messageID) ∧ event.op.leases = false := by
  rcases h with h | ⟨receipt, rfl⟩
  · exact h.event hevent
  · simp [Done.event] at hevent

/-- An entry of a processor's run neither leases nor releases. -/
theorem Done.Processes.call {call : InputCall} {context : Context} {faults : Faults}
    {result : Input} {error : Option Err}
    (h : (Done.input call context faults result error).Processes input) :
    (call.op context).leases = false :=
  (h.event rfl).2

/-- An entry after the lease: of the processor's run, or the release. -/
def Done.Custodial (flow : Flow) (input : Input) (entry : Done) : Prop :=
  entry.Processes input ∨ entry.Releases flow input

/-- An entry after the lease writes the input that was leased. -/
theorem Done.Custodial.event {event : Event} (h : entry.Custodial flow input)
    (hevent : entry.event = some event) :
    event.op.writes = some (input.sessionID, input.messageID) := by
  rcases h with h | ⟨_, _, _, _, rfl⟩
  · exact (h.event hevent).1
  simp only [Done.event, some.injEq] at hevent
  rw [← hevent]
  rfl

variable {call : LeaseCall} {context : Context} {faults : Faults} {done : List Done}

section

variable
  (hrun : (leaseNextInput limits context call.sessionID call.owner call.now call.duration).run
    limits faults p.shared.disk = ((input, none), p1.shared.disk))
  (hext : Extends limits p1 p' done)
include hrun hext

end

/-- A flow with the owner `o`. -/
def plainFlow : Flow where
  owner := [0x6F]
  leaseDuration := 1
  sender := true
  batch := true
  ownerNonblank := by decide
  ownerTrimmed := by decide
  leasePositive := by decide

end Bria.DurableFlow
