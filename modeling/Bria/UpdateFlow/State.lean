import Bria.Go.Map
import Bria.Update.Rollout

/-!
# The state of an update flow

`State` of `updateflow/flow.go` with its checks, and what JSON makes of it. The checks of
`validateState` all return the same error, so that they are conditions here. The SHA-256 sum is left
open.
-/

namespace Bria.UpdateFlow

open Go Update

/-! ## Data -/

/-- `StageReceipt`. -/
structure StageReceipt where
  (operationID nodeID version : GoString)
  artifact : Artifact
  reference : GoString
  deriving DecidableEq

/-- `StageStatus`. -/
inductive StageStatus where
  | unconfirmed
  | confirmed
  | other (text : GoString)
  deriving DecidableEq

/-- `StageOperation`. -/
structure StageOperation where
  (operationID nodeID version : GoString)
  artifact : Artifact
  status : StageStatus
  receipt : Option StageReceipt := none
  deriving DecidableEq

/-- `Target`. -/
structure Target where
  node : Node
  (platform arch priorState : GoString)
  deriving DecidableEq

/-- `Phase`. -/
inductive Phase where
  | prepared
  | installing
  | awaitingPostflight
  | rollingBack
  | awaitingRollbackHealth
  | stopped
  | completed
  | rollbackFailed
  | other (text : GoString)
  deriving DecidableEq

/-- `State`. The revision is a `uint64`. -/
structure State where
  formatVersion : Int := 1
  revision : Nat := 0
  (flowID signedManifest verifiedKeyID : GoString)
  manifest : Manifest
  rollout : Rollout
  targets : List Target
  stageOperations : Map GoString StageOperation := ∅
  phase : Phase := .prepared

variable (r : Rollout) (sum256 : GoString → Vector UInt8 32) (state : State)

/-- The current target. -/
def State.target : Option Target := state.targets[state.rollout.currentIndex]?

/-! ## Checks -/

/-- `invalidIdentity`. -/
def invalidIdentity (value : GoString) (max : Nat) : Bool :=
  value = [] || max < value.length || value ≠ trimSpace value || value.contains 0

/-- `operationID`, of which the kind and the version are arguments. -/
def operationID (flowID nodeID kind version : GoString) : GoString :=
  ofText "update:" ++ kind ++ ofText ":" ++
    hexText ((sum256 (flowID ++ 0 :: nodeID ++ 0 :: kind ++ 0 :: version)).toList.take 16) ++
    ofText ":1"

/-- `stageOperationID`. -/
def stageOperationID (flowID nodeID version : GoString) (artifact : Artifact) : GoString :=
  ofText "update:stage:" ++
    hexText ((sum256 (flowID ++ 0 :: nodeID ++ 0 :: ofText "stage" ++ 0 :: version ++
      0 :: artifact.platform ++ 0 :: artifact.arch ++ 0 :: artifact.name ++ 0 :: artifact.sha256 ++
      0 :: formatInt artifact.size)).toList.take 16) ++
    ofText ":1"

/-- `derivePhase`. -/
def derivePhase : Phase :=
  match r.rolloutState with
  | .stopped => .stopped
  | .completed => .completed
  | .rollbackFailed => .rollbackFailed
  | _ =>
    match r.orderedNodes[r.currentIndex]? with
    | none => .stopped
    | some node =>
      match node.state with
      | .pending => .prepared
      | .installing => .installing
      | .awaitingHealth => .awaitingPostflight
      | .rollbackPending | .rollingBack => .rollingBack
      | .awaitingRollbackHealth => .awaitingRollbackHealth
      | _ => .stopped

/-- The roles in `validateRolloutState`: executors, and the coordinator as the last node. The number is
that of the coordinators before. -/
def validRoles : List Node → Nat → Bool
  | [], coordinators => coordinators = 1
  | node :: rest, coordinators =>
    match node.role with
    | .executor => coordinators = 0 && validRoles rest coordinators
    | .coordinator => rest.isEmpty && validRoles rest (coordinators + 1)
    | .other _ => false

/-- The ids in `validateRolloutState`, with those that were seen before. -/
def validIDs : List Node → List GoString → Bool
  | [], _ => true
  | node :: rest, seen => !seen.contains node.id && validIDs rest (node.id :: seen)

/-- A node and its target in `validateRolloutState`. -/
def validNode (version : GoString) (node : Node) (target : Target) : Bool :=
  !invalidIdentity node.id 1024 && !invalidIdentity node.currentVersion 128 &&
    node.availability.known && node.state.known &&
    (if node.state = .blocked then
      node.blockedFrom = .pending || node.blockedFrom = .rollbackPending
    else node.blockedFrom = .other []) &&
    !invalidIdentity target.node.currentVersion 128 &&
    (target.node.state = .other [] || target.node.state = .pending) &&
    target.node.blockedFrom = .other [] &&
    (if node.state = .updated then node.currentVersion = version
    else node.currentVersion = target.node.currentVersion)

/-- The nodes before the current one are updated, and those after it pending. -/
def validOrder : Bool :=
  (r.orderedNodes.take r.currentIndex).all (·.state = .updated) &&
    (r.orderedNodes.drop (r.currentIndex + 1)).all fun node => node.state = .pending

/-- The states of the current node while the rollout is running. -/
def NodeState.active : NodeState → Bool
  | .pending | .installing | .awaitingHealth | .rollbackPending | .rollingBack
  | .awaitingRollbackHealth => true
  | _ => false

/-- The status in `validateRolloutState`. -/
def validStatus : Bool :=
  match r.rolloutState with
  | .running => (r.orderedNodes[r.currentIndex]?).any (NodeState.active ·.state) && validOrder r
  | .completed =>
    r.currentIndex = r.orderedNodes.length && r.orderedNodes.all fun node => node.state = .updated
  | .stopped =>
    (r.orderedNodes[r.currentIndex]?).any (fun node =>
      node.state = .blocked || node.state = .rolledBack) && validOrder r
  | .rollbackFailed =>
    (r.orderedNodes[r.currentIndex]?).any fun node => node.state = .rollbackFailed
  | .other _ => false

/-- `validateRolloutState`. -/
def validRollout : Bool :=
  state.rollout.orderedNodes ≠ [] &&
    state.rollout.currentIndex ≤ state.rollout.orderedNodes.length &&
    validIDs state.rollout.orderedNodes [] && validRoles state.rollout.orderedNodes 0 &&
    (state.rollout.orderedNodes.zip state.targets).all (fun e =>
      validNode state.manifest.version e.1 e.2) &&
    validStatus state.rollout

/-- A target in `validateState`. -/
def validTarget (manifest : Manifest) (node : Node) (target : Target) : Bool :=
  target.node.id = node.id && target.node.role = node.role &&
    !invalidIdentity target.platform 64 && !invalidIdentity target.arch 64 &&
    !invalidIdentity target.priorState 4096 &&
    (selectArtifact manifest target.platform target.arch).toOption.isSome

/-- A receipt that confirms an operation. -/
def confirms (operation : StageOperation) (receipt : StageReceipt) : Bool :=
  receipt.operationID = operation.operationID && receipt.nodeID = operation.nodeID &&
    receipt.version = operation.version && receipt.artifact = operation.artifact &&
    !invalidIdentity receipt.reference 4096

/-- A staging operation in `validateState`: its artifact is that of the first target with its node. -/
def validOperation (nodeID : GoString) (operation : StageOperation) : Bool :=
  nodeID = operation.nodeID && !invalidIdentity operation.operationID 256 &&
    operation.version = state.manifest.version &&
    (state.targets.find? fun target => target.node.id = nodeID).any (fun target =>
      (selectArtifact state.manifest target.platform target.arch).toOption.any fun artifact =>
        artifact = operation.artifact &&
          operation.operationID =
            stageOperationID sum256 state.flowID nodeID state.manifest.version artifact) &&
    match operation.status with
    | .unconfirmed => operation.receipt.isNone
    | .confirmed => operation.receipt.any (confirms operation)
    | .other _ => false

/-- `validateState`. A map of operations that is nil is not modelled. -/
def validState : Bool :=
  state.formatVersion = 1 && !invalidIdentity state.flowID 1024 && state.signedManifest ≠ [] &&
    !invalidIdentity state.verifiedKeyID 128 &&
    state.manifest.version = state.rollout.targetVersion &&
    state.targets.length = state.rollout.orderedNodes.length &&
    state.phase = derivePhase state.rollout && validRollout state &&
    (state.rollout.orderedNodes.zip state.targets).all (fun e =>
      validTarget state.manifest e.1 e.2) &&
    state.stageOperations.entries.all fun e => validOperation sum256 state e.1 e.2

/-- `validateState` as a check. -/
def validateState : Except Err Unit := refuse (!validState sum256 state) (err .invalidUpdateRequest)

/-! ## JSON -/

/-- An artifact as read from JSON. -/
def artifactJSON (a : Artifact) : Artifact :=
  { a with
    name := jsonText a.name
    platform := jsonText a.platform
    arch := jsonText a.arch
    sha256 := jsonText a.sha256 }

/-- A node as read from JSON. -/
def nodeJSON (node : Node) : Node :=
  { node with
    id := jsonText node.id
    role := match node.role with
      | .other text => .other (jsonText text)
      | role => role
    currentVersion := jsonText node.currentVersion
    availability := match node.availability with
      | .other text => .other (jsonText text)
      | availability => availability
    state := stateJSON node.state
    blockedFrom := stateJSON node.blockedFrom }
where
  /-- The state of a node. -/
  stateJSON : NodeState → NodeState
    | .other text => .other (jsonText text)
    | state => state

/-- A receipt as read from JSON. -/
def StageReceipt.json (receipt : StageReceipt) : StageReceipt where
  operationID := jsonText receipt.operationID
  nodeID := jsonText receipt.nodeID
  version := jsonText receipt.version
  artifact := artifactJSON receipt.artifact
  reference := jsonText receipt.reference

/-- An operation as read from JSON. -/
def StageOperation.json (operation : StageOperation) : StageOperation where
  operationID := jsonText operation.operationID
  nodeID := jsonText operation.nodeID
  version := jsonText operation.version
  artifact := artifactJSON operation.artifact
  status := match operation.status with
    | .other text => .other (jsonText text)
    | status => status
  receipt := operation.receipt.map StageReceipt.json

/-- A target as read from JSON. -/
def Target.json (target : Target) : Target where
  node := nodeJSON target.node
  platform := jsonText target.platform
  arch := jsonText target.arch
  priorState := jsonText target.priorState

/-- A state as read from its file. Byte slices are written in base64. -/
def State.json (state : State) : State :=
  { state with
    flowID := jsonText state.flowID
    verifiedKeyID := jsonText state.verifiedKeyID
    manifest := { state.manifest with
      version := jsonText state.manifest.version
      artifacts := state.manifest.artifacts.map artifactJSON }
    rollout := { state.rollout with
      targetVersion := jsonText state.rollout.targetVersion
      rolloutState := match state.rollout.rolloutState with
        | .other text => .other (jsonText text)
        | status => status
      orderedNodes := state.rollout.orderedNodes.map nodeJSON }
    targets := state.targets.map Target.json
    stageOperations := state.stageOperations.rekey jsonText StageOperation.json
    phase := match state.phase with
      | .other text => .other (jsonText text)
      | phase => phase }

/-- `reflect.DeepEqual` of two states. -/
def State.deepEqual (a b : State) : Bool :=
  a.formatVersion = b.formatVersion && a.revision = b.revision && a.flowID = b.flowID &&
    a.signedManifest = b.signedManifest && a.verifiedKeyID = b.verifiedKeyID &&
    a.manifest = b.manifest && a.rollout = b.rollout && a.targets = b.targets &&
    a.phase = b.phase &&
    (a.stageOperations.entries.all fun e => b.stageOperations.lookup e.1 = some e.2) &&
    b.stageOperations.entries.all fun e => a.stageOperations.lookup e.1 = some e.2

end Bria.UpdateFlow
