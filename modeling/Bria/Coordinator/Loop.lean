import Bria.Base.Program
import Bria.Coordinator.Types

/-!
# The checkpoint loop

`Loop.Run` and the methods of an operator (`coordinator/loop.go`, `coordinator/recovery.go`) as
programs. A request asks something of what the loop does not compute: the update source, the
checkpoint store, the handler, the sender, the readiness gate. Every answer is a choice of the
surroundings, so a cancelled context needs no model: it is a request that fails. Three requests
mean more than their answer.

* `save` compares the revision and may or may not write, whatever it answers. What it writes may
  differ from the checkpoint it was given in texts, as the JSON layer of the store can change them,
  but not in its offset or in the update and the phase of its outbound operation (`Keeps`).
* `load` answers with what is stored, or fails.
* `free` is a moment at which the loop does not hold `mutation`: any calls of the operator's methods
  may happen.

The surroundings keep a log of what was done, the newest entry first. A request to the sender names
the update whose message it is about, for the log only.
-/

namespace Bria.Coordinator

open Go

/-! ## Requests -/

/-- The sender's method for a status, with its keyboard where the method takes one. -/
inductive Carrier where
  | editStatusWithKeyboard (keyboard : Option KeyboardMarkup)
  | sendStatusWithKeyboard (keyboard : Option KeyboardMarkup)
  | sendStatus

/-- A request of the loop. -/
inductive Request where
  /-- `ctx.Err()`. -/
  | ctxErr
  /-- `store.Load`. -/
  | load
  /-- `store.Save`. -/
  | save (expected : Nat) (next : Checkpoint)
  /-- `mutation` is not held. -/
  | free
  /-- `readiness.Ready`. -/
  | ready (checkpoint : Checkpoint)
  /-- `source.Bootstrap`. -/
  | bootstrap
  /-- `source.Poll`. -/
  | poll (offset : Int)
  /-- `handler.Handle`. -/
  | handle (update : Update)
  /-- `PrepareUnknownRecovery` of a handler that has it. -/
  | prepareUnknownRecovery (update : Update)
  /-- `DeliverPreparedStatus` of a sender that has it. -/
  | deliverPreparedStatus (updateID : Int) (operationID : GoString) (status : Status)
      (keyboard : Option KeyboardMarkup)
  /-- `EnqueueStatus` of a sender that has it. -/
  | enqueueStatus (updateID : Int) (operationID : GoString) (status : Status)
      (keyboard : Option KeyboardMarkup)
  /-- A status is sent, by the loop or, with `owner`, by `RetryUnknownOutbound`. -/
  | send (owner : Bool) (carrier : Carrier) (updateID : Int) (operationID : GoString)
      (status : Status)
  /-- `ResolveStatusReceipt` of a sender that has it. -/
  | resolveStatusReceipt (updateID : Int) (operationID : GoString)

/-- The answer to a request. A result next to an error is dropped, as every caller drops it; a
receipt with a boolean is an option. -/
abbrev Answer : Request → Type
  | .ctxErr => Option Err
  | .load => Except Err (Option StoredCheckpoint)
  | .save _ _ => Except Err StoredCheckpoint
  | .free => Unit
  | .ready _ => Option Err
  | .bootstrap => Except Err Int
  | .poll _ => Except Err (List Update)
  | .handle _ => Except Err Decision
  | .prepareUnknownRecovery _ => Except Err (RecoveryControl × Decision)
  | .deliverPreparedStatus _ _ _ _ => Option (Except Err Receipt)
  | .enqueueStatus _ _ _ _ => Except Err DurableOutboundReceipt
  | .send _ _ _ _ _ => Except Err Receipt
  | .resolveStatusReceipt _ _ => Except Err (Option Receipt)

/-! ## The surroundings -/

/-- What a request to the sender was for. -/
inductive Way where
  | deliverPrepared
  | enqueue
  | send
  | resolve
  | retry

/-- What the sender answers to say that it has a message. -/
inductive Evidence where
  | receipt (receipt : Receipt)
  | durable (receipt : DurableOutboundReceipt)

/-- An entry of the log. -/
inductive Entry where
  /-- The source answered a poll. -/
  | polled (offset : Int) (updates : List Update)
  /-- The handler decided. -/
  | decided (update : Update) (decision : Decision)
  /-- The handler, which failed on the update, prepared a recovery prompt. -/
  | prompted (update : Update) (control : RecoveryControl) (prompt : Decision)
  /-- The store was asked to save a checkpoint, and wrote this, if anything. -/
  | saved (next : Checkpoint) (written : Option Checkpoint)
  /-- The sender was asked about an update's message and gave this evidence, if any. -/
  | told (way : Way) (updateID : Int) (operationID : GoString) (evidence : Option Evidence)

/-- What the store holds and the log. -/
structure World where
  /-- What the file of the store holds. -/
  store : Option StoredCheckpoint
  /-- What the store has in memory, which it answers with and compares revisions with. -/
  memory : Option StoredCheckpoint
  log : List Entry

/-- What writing a checkpoint keeps of it. -/
def Checkpoint.Keeps (written next : Checkpoint) : Prop :=
  written.nextUpdateID = next.nextUpdateID ∧
    written.outbound.map (fun o => (o.updateID, o.phase)) =
      next.outbound.map fun o => (o.updateID, o.phase)

/-- The revision that a save is compared with. -/
def World.revision (w : World) : Nat := (w.memory.map (·.revision)).getD 0

variable (held : Bool) (w : World)

/-- A new entry of the log. -/
def World.add (entry : Entry) : World := { w with log := entry :: w.log }

/-- A new entry of the log if a call succeeded. -/
def World.addOk {α : Type} (w : World) (x : Except Err α) (entry : α → Entry) : World :=
  match x with
  | .ok a => w.add (entry a)
  | .error _ => w

/-- A save that writes, or not. The store reads the file again after it wrote; if it cannot, or
finds another checkpoint there, its memory stays as it was, with the generation of the new file, so
that it does not look at the file again. -/
def World.save (w : World) (expected : Nat) (next : Checkpoint) (written : Option Checkpoint)
    (reread : Bool) : World :=
  if w.revision = expected then
    let landed := written.map fun c => ⟨expected + 1, c⟩
    { store := landed.or w.store
      memory := bif reread then landed.or w.memory else w.memory
      log := .saved next written :: w.log }
  else w.add (.saved next none)

/-- What a request leaves open. The choices at a `free` request are the type `Free`; with `rereads`
the store can read back what it wrote. -/
abbrev Choice (rereads : Bool) (Free : Type) : Request → Type
  | .load => Option Err
  | .save _ next => { written : Option Checkpoint // ∀ c ∈ written, c.Keeps next } ×
      { reread : Bool // rereads → reread } × Except Err StoredCheckpoint
  | .free => Free
  | r => Answer r

/-- What a request does. -/
def perform {rereads : Bool} {Free : Type} (act : Free → World → World) :
    (r : Request) → World → Choice rereads Free r → Answer r × World
  | .ctxErr, w, c => (c, w)
  | .load, w, c => (c.elim (.ok w.memory) .error, w)
  | .save expected next, w, c => (c.2.2, w.save expected next c.1.1 c.2.1)
  | .free, w, c => ((), act c w)
  | .ready _, w, c => (c, w)
  | .bootstrap, w, c => (c, w)
  | .poll offset, w, c => (c, w.addOk c (.polled offset))
  | .handle update, w, c => (c, w.addOk c (.decided update))
  | .prepareUnknownRecovery update, w, c =>
    (c, w.addOk c fun answer => .prompted update answer.1 answer.2)
  | .deliverPreparedStatus id op _ _, w, c =>
    (c, w.add (.told .deliverPrepared id op ((c.bind Except.toOption).map .receipt)))
  | .enqueueStatus id op _ _, w, c => (c, w.add (.told .enqueue id op (c.toOption.map .durable)))
  | .send owner _ id op _, w, c =>
    (c, w.add (.told (if owner then .retry else .send) id op (c.toOption.map .receipt)))
  | .resolveStatusReceipt id op, w, c =>
    (c, w.add (.told .resolve id op (c.toOption.join.map .receipt)))

/-! ## Calls -/

/-- A method of the loop. -/
abbrev Method (α : Type) : Type := Program.Fallible Request Answer Err α

/-- A request. -/
abbrev ask (r : Request) : Method (Answer r) := Program.Fallible.request r

/-- A computed result. -/
abbrev check {α : Type} (x : Except Err α) : Method α := Program.Fallible.check x

/-- A value that must be there. -/
abbrev required {α : Type} (x : Option α) (e : Err) : Method α := check (x.elim (.error e) .ok)

/-- `store.Load`, with its error wrapped. -/
def load (wrap : Err → Err) : Method (Option StoredCheckpoint) := do
  let answer ← ask .load
  check (Except.mapError wrap answer)

/-- A moment without the mutex, unless it is held. -/
def pause : Method Unit := if held then pure () else ask .free

/-- The loop by what its handler and its sender can do beyond what they must. -/
structure Loop where
  /-- The handler is an `UnknownRecoveryHandler`. -/
  recoveryHandler : Bool := false
  /-- The sender is a `PreparedDurableStatusSender`. -/
  preparedSender : Bool := false
  /-- The sender is a `DurableStatusSender`. -/
  durableSender : Bool := false
  /-- The sender is a `CarrierEditor`. -/
  carrierEditor : Bool := false
  /-- The sender is a `KeyboardSender`. -/
  keyboardSender : Bool := false
  /-- The sender is an `OutboundReceiptResolver`. -/
  receiptResolver : Bool := false

variable (loop : Loop) (updateID : Int)

/-! ## Saving -/

/-- `saveVerified`. Only `bootstrap` calls it without the mutex. -/
def saveVerified (current : StoredCheckpoint) (next : Checkpoint) :
    Method StoredCheckpoint := do
  check (validateCheckpoint next)
  let answer ← ask (.save current.revision (cloneCheckpoint next))
  let saved ← check (Except.mapError (.wrap "save coordinator checkpoint") answer)
  check (refuse (saved.revision ≤ current.revision || saved.checkpoint ≠ next)
    (err .checkpointMismatch))
  pause held
  let found ← load (.wrap "reread coordinator checkpoint")
  let reread ← required found (err .checkpointMismatch)
  check (refuse (reread ≠ saved) (err .checkpointMismatch))
  check (validateStored reread)
  pure reread

variable (checkpoint : Checkpoint) (outbound : Outbound) (receipt : Receipt)

section

variable (stored : StoredCheckpoint)

/-- A copy of a checkpoint with its outbound operation changed. -/
def amend (change : Outbound → Outbound) : Checkpoint :=
  { cloneCheckpoint checkpoint with outbound := (cloneCheckpoint checkpoint).outbound.map change }

/-- `ErrDeliveryUnknown` for an operation. -/
def unknownFor (text : String) (operationID : GoString) : Err :=
  .wrap (text ++ quoted operationID) (err .deliveryUnknown)

/-- The outbound operation that `confirmOutbound` stores. -/
def Outbound.confirm : Outbound :=
  { outbound with phase := .confirmed, receipt := some receipt, durable := none }

/-- The offset that `confirmOutbound` stores. -/
def confirmedOffset (nextUpdateID : Int) (outbound : Outbound) : Int :=
  if nextUpdateID ≤ outbound.updateID then nextID outbound.updateID else nextUpdateID

/-- The checkpoint that `confirmOutbound` saves. -/
def confirmation : Checkpoint :=
  { amend checkpoint (·.confirm receipt) with
    nextUpdateID := confirmedOffset checkpoint.nextUpdateID outbound }

/-- `confirmOutbound`. -/
def confirmOutbound (receipt : Receipt) : Method StoredCheckpoint := do
  check (refuse (receipt.messageID ≤ 0) (err .deliveryUnknown))
  let outbound ← required stored.checkpoint.outbound (err .deliveryUnknown)
  saveVerified true stored (confirmation stored.checkpoint outbound receipt)

/-- `resolveOutboundReceipt`. -/
def Loop.resolveOutboundReceipt (operationID : GoString) : Method (Option Receipt) :=
  if loop.receiptResolver then do
    let answer ← ask (.resolveStatusReceipt updateID operationID)
    let found ← check answer
    check (refuse (found.any (·.messageID ≤ 0)) (err .deliveryUnknown))
    pure found
  else pure none

/-! ## Starting -/

/-- `bootstrap`. -/
def bootstrap : Method StoredCheckpoint := do
  let answer ← ask .bootstrap
  let nextUpdateID ← check (Except.mapError (.wrap "bootstrap update source") answer)
  let next : Checkpoint := { initialized := true, nextUpdateID }
  check (validateCheckpoint next)
  ask .free
  saveVerified false {} next

/-- What `resolveInterruptedState` does when the sender has no receipt for the operation. -/
def unresolved (outbound : Outbound) : Method StoredCheckpoint :=
  match outbound.phase with
  | .enqueued => pure stored
  | .unknown => throw (unknownFor "for operation " outbound.operationID)
  | _ => do
    -- The request may have gone out before a crash: a prepared operation is not replayed.
    let verified ← saveVerified true stored
      (amend stored.checkpoint fun outbound => { outbound with phase := .unknown })
    throw (unknownFor "for operation " ((verified.checkpoint.outbound.map (·.operationID)).getD []))

/-- `resolveInterruptedState` at an outbound operation that is not confirmed. -/
def Loop.resolveOutbound (outbound : Outbound) :
    Method StoredCheckpoint := do
  let found ← loop.resolveOutboundReceipt outbound.updateID outbound.operationID
  match found with
  | some receipt => confirmOutbound stored receipt
  | none => unresolved stored outbound

end

/-- `resolveInterruptedState`, which replaces the checkpoint it is given by the stored one. -/
def Loop.resolveInterruptedState : Method StoredCheckpoint := do
  let found ← load (.wrap "refresh coordinator checkpoint before recovery")
  let stored ← required found (err .checkpointMismatch)
  check (validateStored stored)
  check (stored.checkpoint.blocked.elim (.ok ()) fun blocked =>
    .error (.wrap ("at update " ++ toString blocked.updateID) (err .updateBlocked)))
  match stored.checkpoint.outbound with
  | none => pure stored
  | some outbound =>
    if outbound.phase = .confirmed then pure stored else loop.resolveOutbound stored outbound

/-! ## Handling an update -/

/-- The operation of an update's status. -/
def statusOperation : GoString := ofText "status:" ++ formatInt updateID

section Sending

variable (stored : StoredCheckpoint) (updateID : Int) (operationID : GoString) (status : Status)
  (keyboard : Option KeyboardMarkup)

/-- The method by which a status goes out. -/
def Loop.carrier : Carrier :=
  if loop.carrierEditor && 0 < status.sourceMessageID then .editStatusWithKeyboard keyboard
  else if loop.keyboardSender then .sendStatusWithKeyboard keyboard
  else .sendStatus

/-- The checkpoint with a prepared operation. -/
def prepared : Checkpoint :=
  { cloneCheckpoint checkpoint with
    outbound := some
      { operationID, updateID, status
        keyboard := cloneKeyboard keyboard, phase := .prepared } }

/-- The receipt of `DeliverPreparedStatus`, if the sender has the method and handled the status. -/
def Loop.deliverPreparedStatus : Method (Option Receipt) :=
  if loop.preparedSender then do
    let answer ← ask (.deliverPreparedStatus updateID operationID status keyboard)
    let found ← check ((answer.map fun result => result.map some).getD (.ok none))
    check (refuse (found.any (·.messageID ≤ 0)) (unknownFor "for prepared operation " operationID))
    pure found
  else pure none

/-- A prepared operation whose send has no usable receipt is stored as unknown. -/
def recordUnknown (text : String) (operationID : GoString) (stored : StoredCheckpoint) :
    Method StoredCheckpoint := do
  let _ ← saveVerified true stored
    (amend stored.checkpoint fun outbound => { outbound with phase := .unknown })
  throw (unknownFor text operationID)

/-- The part of `sendStatus` and `enqueueRecoveryPrompt` after the operation is prepared, for a
sender that is a `DurableStatusSender`. -/
def enqueuePrepared (text : String) (stored : StoredCheckpoint) (updateID : Int)
    (operationID : GoString) (status : Status) (keyboard : Option KeyboardMarkup) :
    Method StoredCheckpoint := do
  let answer ← ask (.enqueueStatus updateID operationID status keyboard)
  match answer with
  | .ok receipt =>
    if receipt.operationID ≠ operationID || receipt.sequence = 0 then
      recordUnknown text operationID stored
    else
      saveVerified true stored
        { amend stored.checkpoint fun outbound =>
            { outbound with phase := .enqueued, durable := some receipt } with
          nextUpdateID := nextID updateID }
  | .error _ => recordUnknown text operationID stored

/-- The part of `sendStatus` after the operation is prepared, for any other sender. -/
def Loop.sendPrepared : Method StoredCheckpoint := do
  let answer ← ask (.send false (loop.carrier status keyboard) updateID operationID status)
  match answer with
  | .ok receipt =>
    if receipt.messageID ≤ 0 then recordUnknown "for operation " operationID stored
    else
      saveVerified true stored
        { amend stored.checkpoint fun outbound =>
            { outbound with phase := .confirmed, receipt := some receipt } with
          nextUpdateID := nextID updateID }
  | .error _ => recordUnknown "for operation " operationID stored

/-- The part of `sendStatus` for a status that `DeliverPreparedStatus` did not handle. -/
def Loop.prepareAndSend : Method StoredCheckpoint := do
  let operationID := statusOperation updateID
  let verified ← saveVerified true stored
    (prepared stored.checkpoint updateID operationID status keyboard)
  if loop.durableSender then
    enqueuePrepared "for durable operation " verified updateID operationID status keyboard
  else loop.sendPrepared verified updateID operationID status keyboard

/-- The operation of a status that `DeliverPreparedStatus` delivered. -/
def deliveredOutbound (receipt : Receipt) : Outbound :=
  { operationID := statusOperation updateID, updateID, status
    keyboard := cloneKeyboard keyboard, phase := .confirmed, receipt := some receipt }

/-- `sendStatus`. -/
def Loop.sendStatus : Method StoredCheckpoint := do
  let delivered ← loop.deliverPreparedStatus updateID (statusOperation updateID) status keyboard
  match delivered with
  | some receipt =>
    saveVerified true stored
      { cloneCheckpoint stored.checkpoint with
        nextUpdateID := nextID updateID
        outbound := some (deliveredOutbound updateID status keyboard receipt) }
  | none => loop.prepareAndSend stored updateID status keyboard

/-- The checkpoint that `enqueueRecoveryPrompt` prepares. -/
def recoveryPrompt (checkpoint : Checkpoint) (updateID : Int) (control : RecoveryControl)
    (prompt : Decision) : Checkpoint :=
  { prepared checkpoint updateID control.promptOperationID prompt.status prompt.keyboard with
    recovery := some control }

/-- `enqueueRecoveryPrompt`. -/
def Loop.enqueueRecoveryPrompt (control : RecoveryControl) (prompt : Decision) :
    Method StoredCheckpoint := do
  check (stored.checkpoint.recovery.elim (.ok ()) fun recovery =>
    refuse (stored.checkpoint.nextUpdateID ≤ recovery.updateID)
      (unknownFor "for recovery operation " recovery.originalOperationID))
  check (refuse (!loop.durableSender)
    (unknownFor "for recovery operation " control.originalOperationID))
  let verified ← saveVerified true stored
    (recoveryPrompt stored.checkpoint updateID control prompt)
  enqueuePrepared "for durable recovery operation " verified updateID control.promptOperationID
    prompt.status prompt.keyboard

end Sending

section

variable (stored : StoredCheckpoint) (update : Update)

/-- The part of `handleUpdate` after the handler failed. -/
def Loop.recoverUpdate (e : Err) : Method StoredCheckpoint :=
  if loop.recoveryHandler && update.kind = .callback then do
    let wrap := GoError.wrap ("prepare recovery for update " ++ toString update.id)
    let answer ← ask (.prepareUnknownRecovery update)
    let found ← check (Except.mapError wrap answer)
    check ((found.1.validate update.id).mapError fun text => wrap (.message text))
    check ((validateDecision found.2).mapError fun text => wrap (.message text))
    check (refuse (found.2.kind ≠ .status)
      (wrap (.message "recovery prompt must be a status decision")))
    loop.enqueueRecoveryPrompt stored update.id found.1 found.2
  else throw (.wrap ("handle update " ++ toString update.id) e)

/-- The part of `handleUpdate` after the handler decided. The last case is a panic in the source;
no validated decision gets there. -/
def Loop.decide (decision : Decision) : Method StoredCheckpoint :=
  match decision.kind with
  | .skip =>
    saveVerified true stored
      { cloneCheckpoint stored.checkpoint with nextUpdateID := nextID update.id }
  | .block => do
    let _ ← saveVerified true stored
      { cloneCheckpoint stored.checkpoint with
        blocked := some { updateID := update.id, reason := decision.blockReason } }
    throw (.wrap ("at update " ++ toString update.id) (err .updateBlocked))
  | .status => loop.sendStatus stored update.id decision.status decision.keyboard
  | .other _ => throw (.message "validated decision has unsupported kind")

/-- The part of `handleUpdate` after the checkpoint is refreshed. -/
def Loop.handleFresh :
    Method StoredCheckpoint := do
  let answer ← ask (.handle update)
  match answer with
  | .error e => loop.recoverUpdate stored update e
  | .ok decision => do
    check ((validateDecision decision).mapError fun text =>
      .wrap ("handle update " ++ toString update.id) (.message text))
    loop.decide stored update decision

/-- The checkpoint that `handleUpdate` goes on with. -/
def refresh (latest : StoredCheckpoint) : Except Err StoredCheckpoint :=
  if latest.revision = stored.revision then .ok stored
  else if latest.checkpoint.nextUpdateID = stored.checkpoint.nextUpdateID then .ok latest
  else .error (err .checkpointMismatch)

/-- `handleUpdate`. -/
def Loop.handleUpdate :
    Method StoredCheckpoint := do
  let found ← load (.wrap "refresh coordinator checkpoint")
  let latest ← required found (err .checkpointMismatch)
  check ((validateStored latest).mapError fun _ => err .checkpointMismatch)
  let fresh ← check (refresh stored latest)
  loop.handleFresh fresh update

end

/-! ## Running -/

/-- The loop of `Run` over a batch. The mutex is not held between two updates. -/
def Loop.handleUpdates (loop : Loop) (stored : StoredCheckpoint) :
    List Update → Method StoredCheckpoint
  | [] => pure stored
  | update :: rest => do
    ask .free
    let stored ← loop.handleUpdate stored update
    loop.handleUpdates stored rest

/-- The loop of `Run`, cut off after a number of polls. -/
def Loop.pollLoop (loop : Loop) : Nat → StoredCheckpoint → Method StoredCheckpoint
  | 0, stored => pure stored
  | polls + 1, stored => do
    let cancelled ← ask .ctxErr
    check (Option.elim cancelled (.ok ()) .error)
    ask .free
    let answer ← ask (.poll stored.checkpoint.nextUpdateID)
    let updates ← check answer
    check (validateUpdates stored.checkpoint.nextUpdateID updates)
    let stored ← loop.handleUpdates stored updates
    loop.pollLoop polls stored

/-- `Run`, cut off after a number of polls. -/
def Loop.run (polls : Nat) : Method StoredCheckpoint := do
  let found ← load (.wrap "load coordinator checkpoint")
  check (found.elim (.ok ()) validateStored)
  ask .free
  let notReady ← ask (.ready ((found.map (·.checkpoint)).getD {}))
  check (Option.elim notReady (.ok ()) fun e => .error (.wrap "verify coordinator readiness" e))
  ask .free
  let _ ← found.elim bootstrap pure
  ask .free
  let stored ← loop.resolveInterruptedState
  loop.pollLoop polls stored

/-! ## The operator's methods -/

/-- The outbound operation of a stored checkpoint, if it is in a phase. -/
def outboundIn (phase : OutboundPhase) (found : Option StoredCheckpoint) :
    Option (StoredCheckpoint × Outbound) := do
  let stored ← found
  let outbound ← stored.checkpoint.outbound
  if outbound.phase = phase then some (stored, outbound) else none

/-- `ListUnknown`: the operation, the update and the status of the unknown operation. -/
def listUnknown : Method (List (GoString × Int × Status)) := do
  let found ← load id
  pure ((outboundIn .unknown found).toList.map fun (_, outbound) =>
    (outbound.operationID, outbound.updateID, outbound.status))

section Confirming

variable (phase : OutboundPhase) (operationID : GoString) (updateID : Int)

/-- `loadExactUnknown`, and the same check of `ConfirmEnqueuedOutbound` on another phase. -/
def loadExact : Method (StoredCheckpoint × Outbound) := do
  let found ← load id
  let pending ← required (outboundIn phase found) (err .deliveryUnknown)
  check (refuse (pending.2.operationID ≠ operationID || pending.2.updateID ≠ updateID)
    (err .deliveryUnknown))
  pure pending

/-- `ConfirmUnknownOutbound` and `ConfirmEnqueuedOutbound` by the phase that they confirm. -/
def Loop.confirmFrom : Method StoredCheckpoint := do
  let pending ← loadExact phase operationID updateID
  let found ← loop.resolveOutboundReceipt updateID operationID
  let receipt ← required found (err .deliveryUnknown)
  confirmOutbound pending.1 receipt

/-- `ConfirmUnknownOutbound`. -/
def Loop.confirmUnknownOutbound : Method StoredCheckpoint :=
  loop.confirmFrom .unknown operationID updateID

/-- `ConfirmEnqueuedOutbound`. -/
def Loop.confirmEnqueuedOutbound : Method StoredCheckpoint :=
  loop.confirmFrom .enqueued operationID updateID

/-- `RetryUnknownOutbound`. -/
def Loop.retryUnknownOutbound : Method StoredCheckpoint := do
  let pending ← loadExact .unknown operationID updateID
  let answer ← ask (.send true (loop.carrier pending.2.status pending.2.keyboard) updateID operationID
    pending.2.status)
  let receipt ← check (Except.mapError (fun _ => unknownFor "for operation " operationID) answer)
  check (refuse (receipt.messageID ≤ 0) (unknownFor "for operation " operationID))
  confirmOutbound pending.1 receipt

end Confirming

/-- A call of one of the operator's methods. -/
inductive Call where
  | listUnknown
  | confirmUnknownOutbound (operationID : GoString) (updateID : Int)
  | confirmEnqueuedOutbound (operationID : GoString) (updateID : Int)
  | retryUnknownOutbound (operationID : GoString) (updateID : Int)

/-- The method of a call. -/
def Call.method : Call → Method Unit
  | .listUnknown => do let _ ← Coordinator.listUnknown
  | .confirmUnknownOutbound op id => do let _ ← loop.confirmUnknownOutbound op id
  | .confirmEnqueuedOutbound op id => do let _ ← loop.confirmEnqueuedOutbound op id
  | .retryUnknownOutbound op id => do let _ ← loop.retryUnknownOutbound op id

/-! ## Histories -/

/-- The surroundings of a loop, with what may happen at a `free` request. -/
def around {Free : Type} (rereads : Bool) (act : Free → World → World) :
    Program.Surroundings Request Answer World where
  Choice := Choice rereads Free
  perform := perform act

/-- The surroundings of a method that holds the mutex. -/
abbrev locked (rereads : Bool) : Program.Surroundings Request Answer World :=
  around rereads fun (_ : Unit) w => w

/-- Calls of the operator's methods, each with the mutex, one after another. -/
inductive Interferes (rereads : Bool) (loop : Loop) : World → World → Prop where
  | none {w : World} : Interferes rereads loop w w
  | call {w w₁ w₂ : World} {result : Except Err Unit} (call : Call)
      (first : Interferes rereads loop w w₁)
      (runs : Program.Runs (locked rereads) (call.method loop) w₁ result w₂) :
      Interferes rereads loop w w₂

/-- What may happen while the loop does not hold the mutex. -/
abbrev Interference (rereads : Bool) (loop : Loop) : Type :=
  { f : World → World // ∀ w, Interferes rereads loop w (f w) }

/-- The surroundings of `Run`. -/
abbrev shared (rereads : Bool) (loop : Loop) : Program.Surroundings Request Answer World :=
  around rereads fun (f : Interference rereads loop) w => f.1 w

/-- The worlds that processes can leave, from a store with `init`. A process runs the loop or an
operator's call, up to any request of it, and may then run another; the next process reads the file
and may have another sender. With `rereads` the store can always read back what it wrote. -/
inductive History (rereads : Bool) (init : Option StoredCheckpoint) : World → Prop where
  | start : History rereads init ⟨init, init, []⟩
  | run {w w' : World} (loop : Loop) (polls : Nat) (before : History rereads init w)
      (reaches : Program.Reaches (shared rereads loop) (loop.run polls) w w') :
      History rereads init w'
  | call {w w' : World} (loop : Loop) (call : Call) (before : History rereads init w)
      (reaches : Program.Reaches (locked rereads) (call.method loop) w w') : History rereads init w'
  | restart {w : World} (before : History rereads init w) :
      History rereads init { w with memory := w.store }

end Bria.Coordinator
