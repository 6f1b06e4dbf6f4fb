import Bria.Computer.Fence
import Bria.NodeLink.Ledger

/-!
# The processor of node-link envelopes

`Processor.Process` of `nodelink/protocol.go`. A call checks its envelope against the channel and
against the fence, and then applies it: at once if its kind changes nothing, and through the ledger
otherwise. The fence is asked under its own lock, and the ledger has another, so other calls and
`Accept` come between the two. `enter` is a call up to the answer of the fence, and `deliver` is the
rest of it.
-/

namespace Bria.NodeLink

open Go Computer

/-- `ProtocolVersion`. -/
def protocolVersion : Nat := 1

/-- `MessageKind`. -/
inductive MessageKind where
  | registration
  | readiness
  | capabilities
  | command
  | acknowledgement
  | event
  | historyRequest
  | coordinatorTransfer
  | update
  /-- A text that is none of the kinds. -/
  | other (text : GoString)
  deriving DecidableEq

/-- `valid`. -/
def MessageKind.valid : MessageKind → Bool
  | .other _ => false
  | _ => true

/-- `mutating`. -/
def MessageKind.mutating : MessageKind → Bool
  | .historyRequest | .other _ => false
  | _ => true

/-- `requiresCoordinatorSource`. -/
def MessageKind.requiresCoordinatorSource : MessageKind → Bool
  | .command | .historyRequest | .coordinatorTransfer | .update => true
  | _ => false

/-- `Envelope`. -/
structure Envelope where
  version : Nat
  kind : MessageKind
  operationID : GoString
  generation : Nat
  (coordinatorID sourceComputerID targetComputerID payload : GoString)
  deriving DecidableEq

/-- The term that an envelope claims. -/
def Envelope.term (envelope : Envelope) : CoordinatorTerm :=
  { coordinatorID := envelope.coordinatorID, generation := envelope.generation }

/-- `ChannelIdentity`. -/
structure ChannelIdentity where
  (localComputerID peerComputerID executorComputerID peerCertificateSHA256 : GoString)
  mutuallyAuthenticated : Bool
  deriving DecidableEq

/-- What the processor computes with bytes only: `json.Valid`, and `digestEnvelope`. -/
structure Codec where
  validJSON : GoString → Bool
  digestEnvelope : Envelope → GoString

variable (identity : ChannelIdentity) (codec : Codec) (envelope : Envelope)

/-- `validateEnvelope`. -/
def validateEnvelope : Except Err Unit := do
  refuse (!envelope.kind.valid || blank envelope.coordinatorID || blank envelope.sourceComputerID ||
    blank envelope.targetComputerID) (err .invalidEnvelope)
  refuse (envelope.generation = 0) (err .invalidGeneration)
  refuse (envelope.kind.mutating && blank envelope.operationID)
    (.wrap "mutating operation id is required" (err .invalidEnvelope))
  refuse (!envelope.payload.isEmpty && !codec.validJSON envelope.payload)
    (.wrap "payload is not valid JSON" (err .invalidEnvelope))

/-- The executor of an envelope that comes over a channel: the end that is not the coordinator. -/
def executor : Except Err GoString :=
  if identity.localComputerID = envelope.coordinatorID then .ok identity.peerComputerID
  else if identity.peerComputerID ≠ envelope.coordinatorID then .error (err .wrongIdentity)
  else .ok identity.localComputerID

/-- `Process` up to the answer of the fence. -/
def enter (localID : GoString) (fence : CoordinatorTerm) (identity : ChannelIdentity)
    (envelope : Envelope) : Except Err Unit := do
  refuse (envelope.version ≠ protocolVersion) (err .incompatibleVersion)
  refuse (!identity.mutuallyAuthenticated) (err .unauthenticated)
  refuse (identity.localComputerID ≠ localID || envelope.targetComputerID ≠ localID ||
    identity.peerComputerID ≠ envelope.sourceComputerID) (err .wrongIdentity)
  let executorID ← executor identity envelope
  refuse (identity.executorComputerID ≠ executorID || executorID = envelope.coordinatorID)
    (err .wrongIdentity)
  validateEnvelope codec envelope
  refuse (envelope.kind.requiresCoordinatorSource &&
    envelope.sourceComputerID ≠ envelope.coordinatorID) (err .wrongIdentity)
  Computer.validate fence envelope.term

/-- The answer of the rest of a call: whether the envelope was a duplicate, and whether its apply
function began. -/
structure Delivery where
  result : Option (Except Err Bool)
  begun : Bool
  ledger : Ledger

/-- The operation of an envelope. -/
def Envelope.operation (codec : Codec) : Operation :=
  { id := envelope.operationID, digest := codec.digestEnvelope envelope }

/-- `Process` after the answer of the fence. -/
def deliver (call : Applying) (ledger : Ledger) : Delivery :=
  if !envelope.kind.mutating then
    { result := match call.effect with
        | .completed => some (.ok false)
        | .failed e => some (.error e)
        | .interrupted => none
      begun := true
      ledger }
  else
    let answer := applyOnce (envelope.operation codec) call ledger
    { result := answer.result, begun := !answer.events.isEmpty, ledger := answer.ledger }

end Bria.NodeLink
