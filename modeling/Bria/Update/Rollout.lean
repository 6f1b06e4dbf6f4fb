import Bria.Update.Release

/-!
# The rollout machine

`update/rollout.go`: the nodes of a rollout in their order, of which one after the other is updated,
executors before the coordinator. A node that was installed has to be found healthy, and else it is
rolled back, which ends the rollout. The state names are strings; `other` is any that is not one of
the constants, and `other []` the empty one.
-/

namespace Bria.Update

open Go

/-- `Role`. -/
inductive Role where
  | executor
  | coordinator
  | other (text : GoString)
  deriving DecidableEq

/-- `Availability`. -/
inductive Availability where
  | unknown
  | offline
  | online
  | other (text : GoString)
  deriving DecidableEq

/-- The text of an availability. -/
def Availability.text : Availability → GoString
  | .unknown => ofText "unknown"
  | .offline => ofText "offline"
  | .online => ofText "online"
  | .other text => text

/-- One of the constants. -/
def Availability.known : Availability → Bool
  | .other _ => false
  | _ => true

/-- `NodeState`. -/
inductive NodeState where
  | pending
  | installing
  | awaitingHealth
  | rollbackPending
  | rollingBack
  | awaitingRollbackHealth
  | updated
  | rolledBack
  | blocked
  | rollbackFailed
  | other (text : GoString)
  deriving DecidableEq

/-- One of the constants. -/
def NodeState.known : NodeState → Bool
  | .other _ => false
  | _ => true

/-- `RolloutStatus`. -/
inductive RolloutStatus where
  | running
  | stopped
  | completed
  | rollbackFailed
  | other (text : GoString)
  deriving DecidableEq

/-- `Node`. -/
structure Node where
  id : GoString
  role : Role
  currentVersion : GoString
  availability : Availability
  state : NodeState := .other []
  blockedFrom : NodeState := .other []
  deriving DecidableEq

/-- `HealthReceipt`. -/
structure HealthReceipt where
  (nodeID runningVersion : GoString)
  started : Bool := false
  stateReadable : Bool := false
  providersAvailable : Bool := false
  coordinatorConnected : Bool := false
  sessionsAvailable : Bool := false
  probeSucceeded : Bool := false

/-- `healthyFor`. -/
def HealthReceipt.healthyFor (receipt : HealthReceipt) (node : Node) (version : GoString) : Bool :=
  receipt.nodeID = node.id && receipt.runningVersion = version && receipt.started &&
    receipt.stateReadable && receipt.providersAvailable &&
    (node.role = .coordinator || receipt.coordinatorConnected) && receipt.sessionsAvailable &&
    receipt.probeSucceeded

/-- `Rollout`. The index is never negative in a file that is read. -/
structure Rollout where
  targetVersion : GoString
  rolloutState : RolloutStatus
  orderedNodes : List Node
  currentIndex : Nat := 0
  deriving DecidableEq

/-! ## A new rollout -/

/-- The loop of `NewRollout` over the nodes, with the ids it has seen. -/
def newNodes : List Node → List GoString → Except Err (List Node)
  | [], _ => .ok []
  | node :: rest, seen => do
    let id := trimSpace node.id
    let currentVersion := trimSpace node.currentVersion
    refuse (id = [] || currentVersion = [])
      (.wrap ": node identity and current version are required" (err .invalidRollout))
    refuse (seen.contains id) (.wrap (": duplicate node " ++ quoted id) (err .invalidRollout))
    refuse (node.role ≠ .executor && node.role ≠ .coordinator)
      (.wrap (": invalid role for " ++ quoted id) (err .invalidRollout))
    refuse (!node.availability.known)
      (.wrap (": invalid availability for " ++ quoted id) (err .invalidRollout))
    refuse (node.state ≠ .other [] && node.state ≠ .pending || node.blockedFrom ≠ .other [])
      (.wrap ": new nodes must be pending" (err .invalidRollout))
    let nodes ← newNodes rest (id :: seen)
    return { node with id, currentVersion, state := .pending } :: nodes

/-- `NewRollout`. The stable sort puts the executors before the coordinator. -/
def newRollout (targetVersion : GoString) (nodes : List Node) : Except Err Rollout := do
  refuse (trimSpace targetVersion = [] || nodes = [])
    (.wrap ": target version and nodes are required" (err .invalidRollout))
  let copied ← newNodes nodes []
  refuse ((copied.filter fun node => node.role = .coordinator).length ≠ 1)
    (.wrap ": exactly one coordinator is required" (err .invalidRollout))
  return {
    targetVersion := trimSpace targetVersion
    rolloutState := .running
    orderedNodes := copied.filter (·.role ≠ .coordinator) ++
      copied.filter fun node => node.role = .coordinator }

/-! ## Transitions -/

namespace Rollout

/-- The node at the current index, if the rollout is in the given status. -/
def current (status : RolloutStatus) (r : Rollout) : Option Node :=
  if r.rolloutState = status then r.orderedNodes[r.currentIndex]? else none

variable (r : Rollout) (node : Node) (nodeID : GoString)

/-- The current node is assigned. -/
def setCurrent : Rollout := { r with orderedNodes := r.orderedNodes.set r.currentIndex node }

/-- A branch of `NextAction`: `requireOnline`, and the next state of the node. The action itself is
not looked at by the flow. -/
def issue (next : NodeState) : Option Err × Rollout :=
  if node.availability = .online then (none, r.setCurrent { node with state := next })
  else
    (some (.wrap (": " ++ shown node.id ++ " is " ++ shown node.availability.text)
      (err .nodeUnavailable)),
    { r.setCurrent { node with blockedFrom := node.state, state := .blocked } with
      rolloutState := .stopped })

/-- `NextAction`. -/
def nextAction : Option Err × Rollout :=
  match r.current .running with
  | none => (some (err .unexpectedState), r)
  | some node =>
    match node.state with
    | .pending => r.issue node .installing
    | .rollbackPending => r.issue node .rollingBack
    | _ => (some (err .unexpectedState), r)

/-- `currentNode`. -/
def currentNode : Option Node := (r.current .running).filter fun node => node.id = nodeID

/-- `RecordApplied`. -/
def recordApplied : Option Err × Rollout :=
  match r.currentNode nodeID with
  | none => (some (err .unexpectedState), r)
  | some node =>
    match node.state with
    | .installing => (none, r.setCurrent { node with state := .awaitingHealth })
    | .rollingBack => (none, r.setCurrent { node with state := .awaitingRollbackHealth })
    | _ => (some (err .unexpectedState), r)

/-- `RecordApplyFailure`. -/
def recordApplyFailure : Option Err × Rollout :=
  match r.currentNode nodeID with
  | none => (some (err .unexpectedState), r)
  | some node =>
    match node.state with
    | .installing => (none, r.setCurrent { node with state := .rollbackPending })
    | .rollingBack =>
      (some (err .rollbackFailed),
        { r.setCurrent { node with state := .rollbackFailed } with rolloutState := .rollbackFailed })
    | _ => (some (err .unexpectedState), r)

/-- `advance`. -/
def advance : Rollout :=
  { r with
    currentIndex := r.currentIndex + 1
    rolloutState :=
      if r.currentIndex + 1 = r.orderedNodes.length then .completed else r.rolloutState }

/-- `RecordHealth`. -/
def recordHealth (receipt : HealthReceipt) : Option Err × Rollout :=
  match r.currentNode receipt.nodeID with
  | none => (some (err .unexpectedState), r)
  | some node =>
    match node.state with
    | .awaitingHealth =>
      if receipt.healthyFor node r.targetVersion then
        (none, (r.setCurrent
          { node with state := .updated, currentVersion := r.targetVersion }).advance)
      else (some (err .unhealthyReceipt), r.setCurrent { node with state := .rollbackPending })
    | .awaitingRollbackHealth =>
      if receipt.healthyFor node node.currentVersion then
        (none, { r.setCurrent { node with state := .rolledBack } with rolloutState := .stopped })
      else
        (some (err .unhealthyReceipt), { r.setCurrent { node with state := .rollbackFailed } with
          rolloutState := .rollbackFailed })
    | _ => (some (err .unexpectedState), r)

/-- The loop of `SetAvailability`: the first node with the id is assigned. -/
def setAvailability (availability : Availability) :
    Except Err Rollout := do
  refuse (!availability.known) (err .invalidRollout)
  match r.orderedNodes.findIdx? fun node => node.id = nodeID with
  | none => .error (err .invalidRollout)
  | some index =>
    return { r with
      orderedNodes := r.orderedNodes.modify index fun node =>
        { node with availability } }

/-- `Resume`. -/
def resume : Except Err Rollout :=
  match r.current .stopped with
  | none => .error (err .unexpectedState)
  | some node =>
    if node.state ≠ .blocked || node.availability ≠ .online ||
        (node.blockedFrom ≠ .pending && node.blockedFrom ≠ .rollbackPending) then
      .error (err .unexpectedState)
    else
      .ok { r.setCurrent { node with state := node.blockedFrom, blockedFrom := .other [] } with
        rolloutState := .running }

end Rollout

end Bria.Update
