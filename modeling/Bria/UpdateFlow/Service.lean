import Bria.Base.Program
import Bria.UpdateFlow.State

/-!
# The update flow

The methods of `Service` of `updateflow/flow.go`, over a `FileStore` (`updateflow/store.go`). What a
method asks of its surroundings is a request: to read and write the flow's file, to fetch a manifest
or an artifact, to stage, install and roll back, and to probe. Its answers are arbitrary, but for
those of the file.

The loops of `advanceCurrent` and `runLocked` have no bound. Here they get an amount of fuel, and a
call that has used it up has not returned yet.

The calls of one flow are serialized by its lock, and a call keeps nothing in memory when it returns or
when its process ends. So a run is a sequence of calls, each of which is cut off anywhere or not at all.
The flow's file is the only one that they read or write.
-/

namespace Bria.UpdateFlow

open Go Update Program

/-! ## Requests -/

/-- `StageRequest`, without the manifest and the content. -/
structure StageRequest where
  (operationID nodeID version : GoString)
  artifact : Artifact

/-- `InstallRequest`. -/
structure InstallRequest where
  (operationID nodeID fromVersion targetVersion priorState : GoString)
  stage : StageReceipt

/-- `RollbackRequest`. -/
structure RollbackRequest where
  (operationID nodeID fromVersion targetVersion targetState : GoString)

/-- `InstallReceipt`. -/
structure InstallReceipt where
  (operationID nodeID runningVersion state : GoString)
  applied : Bool

/-- `PostflightReceipt`. -/
structure PostflightReceipt where
  health : HealthReceipt
  stateFingerprint : GoString

/-- An error of the file system, of the source or of the context: none of the packages' own. -/
inductive Fault where
  | canceled
  | other (text : String)

/-- The fault as an error. -/
def Fault.error : Fault → Err
  | .canceled => err .canceled
  | .other text => .message text

/-- A payload: what reading it to its end returns, and seeking its start. -/
structure Payload where
  content : Except Fault GoString
  seek : Option Fault := none

/-- What comes of staging a payload. -/
structure Staged where
  /-- The answer of the stager, none if it is an error. -/
  receipt : Option StageReceipt
  /-- What the stager has read of the payload. -/
  observed : GoString
  /-- Whether it has seen the end. -/
  sawEOF : Bool
  /-- Whether closing the payload fails. -/
  closeFails : Bool := false

/-- What a method asks. -/
inductive Request where
  | load (flowID : GoString)
  | save (state : State)
  | signedManifest
  | artifact (artifact : Artifact)
  | stage (request : StageRequest)
  | install (request : InstallRequest)
  /-- A rollback, with whether `RetryRollback` asks for it. -/
  | rollback (retry : Bool) (request : RollbackRequest)
  | probe (nodeID version : GoString)

/-- The answers. An error of the stager, the installer or the probe is not looked at. -/
def Answer : Request → Type
  | .load _ => Except Err (Option State)
  | .save _ => Except Err Unit
  | .signedManifest => Except Fault GoString
  | .artifact _ => Except Fault (Option Payload)
  | .stage _ => Staged
  | .install _ => Option InstallReceipt
  | .rollback _ _ => Option InstallReceipt
  | .probe _ _ => Option PostflightReceipt

/-- A computation of a method. -/
abbrev Work (α : Type) : Type := Program Request Answer α

/-- `Store.Load`. -/
def load (flowID : GoString) : Work (Except Err (Option State)) := request (Request.load flowID)

/-- `Store.Save`. -/
def save (state : State) : Work (Except Err Unit) := request (Request.save state)

/-- `Source.SignedManifest`. -/
def fetchManifest : Work (Except Fault GoString) := request Request.signedManifest

/-- `Source.Artifact`. -/
def fetchArtifact (artifact : Artifact) : Work (Except Fault (Option Payload)) :=
  request (Request.artifact artifact)

/-- `Stager.Stage`. -/
def stage (request : StageRequest) : Work Staged := Program.request (Request.stage request)

/-- `Installer.Install`. -/
def install (request : InstallRequest) : Work (Option InstallReceipt) :=
  Program.request (Request.install request)

/-- `Installer.Rollback`. -/
def rollback (retry : Bool) (request : RollbackRequest) : Work (Option InstallReceipt) :=
  Program.request (Request.rollback retry request)

/-- `Postflight.Probe`. -/
def probe (nodeID version : GoString) : Work (Option PostflightReceipt) :=
  request (Request.probe nodeID version)

/-! ## Methods -/

/-- `Service`, as far as it computes: `update.VerifySignedManifest` with the trusted keys, and
`sha256.Sum256`. -/
structure Service where
  verifySignedManifest : GoString → Except Err (Manifest × GoString)
  sum256 : GoString → Vector UInt8 32
  /-- The errors are about the manifest. -/
  manifestErrors : ∀ signed e, verifySignedManifest signed = .error e → e.is .rollbackFailed = false

/-- What a method returns. A state is none if it is `State{}`. -/
structure Result where
  state : Option State
  err : Option Err

/-- A result with an error only. -/
def Result.fail (e : Err) : Result := ⟨none, some e⟩

/-- `persist`. -/
def persist (state : State) : Work (State × Option Err) :=
  if state.revision = maxUint64 then return (state, some (err .revisionConflict))
  else do
    let next := { state with revision := state.revision + 1 }
    match ← save next with
    | .ok _ => return (next, none)
    | .error e => return (state, some e)

/-- Another rollout, with its phase. -/
def State.withRollout (state : State) (r : Rollout) : State :=
  { state with rollout := r, phase := derivePhase r }

/-- An operation is assigned. -/
def State.withOperation (state : State) (operation : StageOperation) : State :=
  { state with stageOperations := state.stageOperations.insert operation.nodeID operation }

variable (svc : Service)

/-- Fetching an artifact and reading it once. -/
def fetch (artifact : Artifact) : Work (Except Err Unit) := do
  match ← fetchArtifact artifact with
  | .error fault => return .error fault.error
  | .ok none => return .error (err .artifactUnstaged)
  | .ok (some payload) =>
    match verifyArtifact svc.sum256 (payload.content.mapError Fault.error) artifact with
    | .error e => return .error e
    | .ok _ => return match payload.seek with
      | some fault => .error fault.error
      | none => .ok ()

/-- `observedReader.complete`. -/
def Staged.complete (staged : Staged) (artifact : Artifact) : Bool :=
  staged.sawEOF && (staged.observed.length : Int) = artifact.size &&
    hexText (svc.sum256 staged.observed).toList = artifact.sha256

/-- `stagePayload` and the closing of the payload: the receipt, none if there is an error. -/
def stagePayload (target : Target) (operation : StageOperation) : Work (Option StageReceipt) := do
  let staged ← stage {
    operationID := operation.operationID, nodeID := target.node.id, version := operation.version,
    artifact := operation.artifact }
  return staged.receipt.filter fun receipt =>
    staged.complete svc operation.artifact &&
      confirms { operation with nodeID := target.node.id } receipt && !staged.closeFails

variable (fuel : Nat) (flowID : GoString) (targets : List Target) (state : State)

/-- The end of a staging: the operation is confirmed and saved. -/
def confirmStage (target : Target) (operation : StageOperation) :
    Work (State × Option Err) := do
  match ← stagePayload svc target operation with
  | none => return (state, some (err .stageUnknown))
  | some receipt =>
    persist (state.withOperation { operation with status := .confirmed, receipt := some receipt })

/-- The operation that `beginStage` starts. -/
def newOperation (sum256 : GoString → Vector UInt8 32) (state : State) (target : Target)
    (artifact : Artifact) : StageOperation where
  operationID :=
    stageOperationID sum256 state.flowID target.node.id state.manifest.version artifact
  nodeID := target.node.id
  version := state.manifest.version
  artifact
  status := .unconfirmed

/-- `beginStage`. -/
def beginStage (target : Target) : Work (State × Option Err) :=
  match selectArtifact state.manifest target.platform target.arch with
  | .error e => return (state, some e)
  | .ok artifact => do
    match ← fetch svc artifact with
    | .error e => return (state, some e)
    | .ok _ =>
      let operation := newOperation svc.sum256 state target artifact
      match ← persist (state.withOperation operation) with
      | (state, some e) => return (state, some e)
      | (state, none) => confirmStage svc state target operation

/-- How a turn of the loop of `advanceCurrent` ends. -/
inductive Turn where
  /-- The loop goes on, with whether a rollback was issued in it. -/
  | again (state : State) (issued : Bool)
  /-- The method returns. -/
  | ended (state : State) (e : Option Err)

variable (file : Option State) (receipt : InstallReceipt) (nodeID : GoString) (issued : Bool)

/-- A branch that saves the state and goes on. -/
def saveAgain : Work Turn := do
  match ← persist state with
  | (state, some e) => return .ended state (some e)
  | (state, none) => return .again state issued

/-- A branch that saves the state and returns. -/
def saveEnded (result : Option Err) : Work Turn := do
  match ← persist state with
  | (state, some e) => return .ended state (some e)
  | (state, none) => return .ended state result

/-- `NextAction` and the saving of its result. -/
def act : Work Turn :=
  match state.rollout.nextAction with
  | (some e, r) => saveEnded (state.withRollout r) (some e)
  | (none, r) => saveAgain (state.withRollout r) issued

/-- The receipt of a confirmed operation. -/
def StageOperation.confirmed (operation : StageOperation) : Option StageReceipt :=
  if operation.status = .confirmed then operation.receipt else none

/-- The receipt for the staging of a node. -/
def State.staged : Option StageReceipt :=
  (state.stageOperations.lookup nodeID).bind StageOperation.confirmed

/-- The turn at a pending node, once there is an operation for it. -/
def turnStaged : Work Turn :=
  if (state.staged nodeID).isNone then return .ended state (some (err .stageUnknown))
  else act state issued

/-- The turn at a pending node. -/
def turnPending (target : Target) (node : Node) (issued : Bool) : Work Turn :=
  if node.availability ≠ .online then
    saveEnded (state.withRollout state.rollout.nextAction.2) state.rollout.nextAction.1
  else
    match state.stageOperations.lookup node.id with
    | some _ => turnStaged state node.id issued
    | none => do
      match ← beginStage svc state target with
      | (state, some e) => return .ended state (some e)
      | (state, none) => turnStaged state node.id issued

/-- `RecordApplied` and the saving of its result. -/
def turnApplied : Work Turn :=
  match state.rollout.recordApplied nodeID with
  | (some e, _) => return .ended state (some e)
  | (none, r) => saveAgain (state.withRollout r) issued

/-- `scheduleRollback`. -/
def scheduleRollback : Work Turn :=
  match state.rollout.recordApplyFailure nodeID with
  | (some e, r) => return .ended { state with rollout := r } (some e)
  | (none, r) => saveAgain (state.withRollout r) issued

section

variable (target : Target) (node : Node) (issued : Bool)

/-- `validInstallReceipt`. -/
def validInstallReceipt (request : InstallRequest) : Bool :=
  receipt.applied && receipt.operationID = request.operationID &&
    receipt.nodeID = request.nodeID && receipt.runningVersion = request.targetVersion &&
    receipt.state = request.priorState

/-- The turn at a node that is being installed. -/
def turnInstalling : Work Turn :=
  match state.staged node.id with
  | none => return .ended state (some (err .stageUnknown))
  | some receipt => do
    let request := {
      operationID :=
        operationID svc.sum256 state.flowID node.id (ofText "install") state.manifest.version
      nodeID := node.id
      fromVersion := target.node.currentVersion
      targetVersion := state.manifest.version
      priorState := target.priorState
      stage := receipt }
    if (← install request).any fun receipt => validInstallReceipt receipt request then
      turnApplied state node.id issued
    else scheduleRollback state node.id issued

/-- The receipt of a probe. An error or another fingerprint counts as an unhealthy one. -/
def observedHealth (answer : Option PostflightReceipt) (target : Target)
    (nodeID version : GoString) : HealthReceipt :=
  match answer.filter fun receipt => receipt.stateFingerprint = target.priorState with
  | some receipt => receipt.health
  | none => { nodeID, runningVersion := version }

/-- The turn at a node whose health is awaited. -/
def turnHealth : Work Turn := do
  let answer ← probe node.id state.manifest.version
  let recorded :=
    state.rollout.recordHealth (observedHealth answer target node.id state.manifest.version)
  if recorded.1.isSome then saveAgain (state.withRollout recorded.2) issued
  else saveEnded (state.withRollout recorded.2) none

/-- `newRollbackRequest`. -/
def newRollbackRequest : RollbackRequest where
  operationID :=
    operationID svc.sum256 state.flowID node.id (ofText "rollback") target.node.currentVersion
  nodeID := node.id
  fromVersion := state.manifest.version
  targetVersion := target.node.currentVersion
  targetState := target.priorState

/-- `validRollbackReceipt`. -/
def validRollbackReceipt (request : RollbackRequest) : Bool :=
  receipt.applied && receipt.operationID = request.operationID &&
    receipt.nodeID = request.nodeID && receipt.runningVersion = request.targetVersion &&
    receipt.state = request.targetState

/-- The turn at a node that is being rolled back. -/
def turnRollingBack : Work Turn :=
  if !issued then return .ended state (some (err .rollbackUnknown))
  else do
    let request := newRollbackRequest svc state target node
    if (← rollback false request).any fun receipt => validRollbackReceipt receipt request then
      turnApplied state node.id issued
    else return .ended state (some (err .rollbackUnknown))

/-- The turn at a node whose health after the rollback is awaited. -/
def turnRollbackHealth : Work Turn := do
  let answer ← probe node.id target.node.currentVersion
  let recorded := state.rollout.recordHealth
    (observedHealth answer target node.id target.node.currentVersion)
  saveEnded (state.withRollout recorded.2)
    (some (err (if recorded.1.isSome then .rollbackFailed else .updateRolledBack)))

/-- A turn of the loop of `advanceCurrent`. -/
def turn : Work Turn :=
  match state.rollout.orderedNodes[state.rollout.currentIndex]? with
  | none => return .ended state (some (err .unexpectedState))
  | some node =>
    match node.state with
    | .pending => turnPending svc state target node issued
    | .rollbackPending => act state true
    | .installing => turnInstalling svc state target node issued
    | .awaitingHealth => turnHealth state target node issued
    | .rollingBack => turnRollingBack svc state target node issued
    | .awaitingRollbackHealth => turnRollbackHealth state target node
    | _ => return .ended state (some (err .unexpectedState))

end

/-- The loop of `advanceCurrent`, none if it has not ended. -/
def turns (target : Target) : Nat → State → Bool → Work (Option (State × Option Err))
  | 0, _, _ => return none
  | fuel + 1, state, issued => do
    match ← turn svc state target issued with
    | .again state issued => turns target fuel state issued
    | .ended state e => return some (state, e)

/-- `advanceCurrent`. -/
def advanceCurrent : Work (Option (State × Option Err)) :=
  match if state.rollout.rolloutState = .running then state.target else none with
  | none => return some (state, some (err .unexpectedState))
  | some target => turns svc target fuel state false

/-- `runLocked`. -/
def runLocked (fuel : Nat) : Nat → State → Work (Option Result)
  | 0, _ => return none
  | n + 1, state =>
    if state.rollout.rolloutState ≠ .running then return some ⟨some state, none⟩
    else do
      match ← advanceCurrent svc fuel state with
      | none => return none
      | some (state, some e) => return some ⟨some state, some e⟩
      | some (state, none) => runLocked fuel n state

/-- `loadVerified`. -/
def loadVerified : Work (Except Err State) :=
  if invalidIdentity flowID 1024 then return .error (err .invalidUpdateRequest)
  else do
    match ← load flowID with
    | .error e => return .error e
    | .ok none => return .error (err .flowAbsent)
    | .ok (some state) => return do
      let (manifest, keyID) ← svc.verifySignedManifest state.signedManifest
      refuse (keyID ≠ state.verifiedKeyID || manifest ≠ state.manifest) (err .invalidUpdateRequest)
      validateState svc.sum256 state
      return state

/-- `Advance`. -/
def advance : Work (Option Result) := do
  match ← loadVerified svc flowID with
  | .error e => return some (.fail e)
  | .ok state => return (← advanceCurrent svc fuel state).map fun r => ⟨some r.1, r.2⟩

/-- `Run`. -/
def run : Work (Option Result) := do
  match ← loadVerified svc flowID with
  | .error e => return some (.fail e)
  | .ok state => runLocked svc fuel fuel state

/-- The change of the rollout in `Resume`. -/
def resumed (r : Rollout) (availability : Availability) : Except Err Rollout :=
  match r.orderedNodes[r.currentIndex]? with
  | none => .error (err .unexpectedState)
  | some node => do (← r.setAvailability node.id availability).resume

/-- `Resume`. -/
def resume (availability : Availability) :
    Work (Option Result) := do
  match ← loadVerified svc flowID with
  | .error e => return some (.fail e)
  | .ok state =>
    match resumed state.rollout availability with
    | .error e => return some ⟨some state, some e⟩
    | .ok r =>
      match ← persist (state.withRollout r) with
      | (state, some e) => return some ⟨some state, some e⟩
      | (state, none) => runLocked svc fuel fuel state

/-- The node and the target that a retry is about. -/
def State.retried (is : NodeState) : Option (Target × Node) :=
  if state.rollout.rolloutState = .running then
    match state.target, state.rollout.orderedNodes[state.rollout.currentIndex]? with
    | some target, some node => if node.state = is then some (target, node) else none
    | _, _ => none
  else none

/-- `RetryStage`. -/
def retryStage : Work (Option Result) := do
  match ← loadVerified svc flowID with
  | .error e => return some (.fail e)
  | .ok state =>
    match state.retried .pending with
    | none => return some ⟨some state, some (err .unexpectedState)⟩
    | some (target, node) =>
      match (state.stageOperations.lookup node.id).filter fun operation =>
          operation.status = .unconfirmed && operation.receipt.isNone with
      | none => return some ⟨some state, some (err .unexpectedState)⟩
      | some operation =>
        match ← fetch svc operation.artifact with
        | .error e => return some ⟨some state, some e⟩
        | .ok _ =>
          let (state, e) ← confirmStage svc state target operation
          return some ⟨some state, e⟩

/-- `RetryRollback`. -/
def retryRollback : Work (Option Result) := do
  match ← loadVerified svc flowID with
  | .error e => return some (.fail e)
  | .ok state =>
    match state.retried .rollingBack with
    | none => return some ⟨some state, some (err .unexpectedState)⟩
    | some (target, node) =>
      let request := newRollbackRequest svc state target node
      if (← rollback true request).any fun receipt => validRollbackReceipt receipt request then
        match state.rollout.recordApplied node.id with
        | (some e, _) => return some ⟨some state, some e⟩
        | (none, r) =>
          let (state, e) ← persist (state.withRollout r)
          return some ⟨some state, e⟩
      else return some ⟨some state, some (err .rollbackUnknown)⟩

/-- The loop of `prepareLocked` over the targets, with the ids it has seen. -/
def checkTargets (manifest : Manifest) : List Target → List GoString → Except Err Unit
  | [], _ => .ok ()
  | target :: rest, seen => do
    refuse (invalidIdentity target.node.id 1024 || invalidIdentity target.platform 64 ||
      invalidIdentity target.arch 64 || invalidIdentity target.priorState 4096)
      (err .invalidUpdateRequest)
    refuse (seen.contains target.node.id) (err .invalidUpdateRequest)
    let _ ← selectArtifact manifest target.platform target.arch
    checkTargets manifest rest (target.node.id :: seen)

/-- The state that `prepareLocked` makes of a signed manifest. -/
def newState (signed : GoString) :
    Except Err State := do
  let (manifest, keyID) ← svc.verifySignedManifest signed
  checkTargets manifest targets []
  let rollout ← newRollout manifest.version (targets.map (·.node))
  let state := {
    flowID
    signedManifest := signed
    verifiedKeyID := keyID
    manifest
    rollout
    targets := rollout.orderedNodes.filterMap fun node =>
      targets.find? fun target => target.node.id = node.id
    phase := .prepared }
  validateState svc.sum256 state
  return state

/-- `prepareLocked`. -/
def prepareLocked : Work (Except Err State) :=
  if invalidIdentity flowID 1024 || targets = [] then return .error (err .invalidUpdateRequest)
  else do
    match ← load flowID with
    | .error e => return .error e
    | .ok (some _) => return .error (err .flowExists)
    | .ok none =>
      match ← fetchManifest with
      | .error fault => return .error (.wrap "load signed release manifest: " fault.error)
      | .ok signed =>
        match newState svc flowID targets signed with
        | .error e => return .error e
        | .ok state =>
          match ← persist state with
          | (_, some e) => return .error e
          | (state, none) => return .ok state

/-- `Prepare`. -/
def prepare : Work (Option Result) := do
  match ← prepareLocked svc flowID targets with
  | .error e => return some (.fail e)
  | .ok state => return some ⟨some state, none⟩

/-- `Start`. -/
def start : Work (Option Result) := do
  match ← prepareLocked svc flowID targets with
  | .error e => return some (.fail e)
  | .ok state => runLocked svc fuel fuel state

/-! ## The surroundings -/

/-- `loadState`, when the file can be read. -/
def loadState : Option State → Except Err (Option State)
  | none => .ok none
  | some state =>
    if state.flowID ≠ flowID || state.revision = 0 || !validState svc.sum256 state then
      .error (err .invalidUpdateStore)
    else .ok (some state)

/-- How the file system lets a save end. -/
inductive SaveEnd where
  /-- An error before the file is replaced, also of the context or because the state is too large. -/
  | refused (fault : Fault)
  /-- An error after that. -/
  | late (fault : Fault)
  /-- No error. -/
  | done

/-- `writeState` once the file is replaced: the state is read again and compared. -/
def verifySaved : Except Err Unit :=
  match loadState svc state.flowID (some state.json) with
  | .error e => .error (.wrap "verify update flow state: " e)
  | .ok none => .error (.wrap "verify update flow state: " (err .flowAbsent))
  | .ok (some persisted) =>
    if persisted.deepEqual state then .ok ()
    else .error (.message "verify update flow state: persisted value differs")

/-- The comparison with the file in `Save`: whether the file is to be replaced. -/
def replaces : Except Err Bool :=
  match loadState svc state.flowID file with
  | .error e => .error e
  | .ok (some current) =>
    if current.revision = state.revision && current.deepEqual state then .ok false
    else if current.revision + 1 ≠ state.revision then .error (err .revisionConflict)
    else .ok true
  | .ok none => if state.revision ≠ 1 then .error (err .revisionConflict) else .ok true

/-- `FileStore.Save`: the result and the file. -/
def performSave (saved : SaveEnd) (file : Option State) : Except Err Unit × Option State :=
  match validateState svc.sum256 state, saved with
  | .error e, _ => (.error e, file)
  | .ok _, .refused fault => (.error fault.error, file)
  | .ok _, saved =>
    if state.revision = 0 then (.error (err .revisionConflict), file)
    else
      match replaces svc state file with
      | .error e => (.error e, file)
      | .ok false => (.ok (), file)
      | .ok true =>
        match saved with
        | .late fault => (.error fault.error, some state.json)
        | _ => (verifySaved svc state, some state.json)

/-- What the surroundings decide at a request. -/
def Choice : Request → Type
  | .load _ => Option Fault
  | .save _ => SaveEnd
  | r => Answer r

/-- The answer to a request and the file after it. -/
def answer : (r : Request) → Choice r → Answer r × Option State
  | .load _, some fault => (.error fault.error, file)
  | .load flowID, none => (loadState svc flowID file, file)
  | .save state, saved => performSave svc state saved file
  | .signedManifest, c => (c, file)
  | .artifact _, c => (c, file)
  | .stage _, c => (c, file)
  | .install _, c => (c, file)
  | .rollback _ _, c => (c, file)
  | .probe _ _, c => (c, file)

/-- A request with its answer, and the file when it was asked. -/
structure Entry where
  request : Request
  answer : Answer request
  file : Option State

/-- The file of the flow, and all requests so far, the latest first. -/
structure World where
  file : Option State := none
  trace : List Entry := []

/-- The surroundings of the calls. -/
def surroundings : Surroundings Request Answer World where
  Choice
  perform r w c :=
    ((answer svc w.file r c).1,
      { file := (answer svc w.file r c).2, trace := ⟨r, (answer svc w.file r c).1, w.file⟩ :: w.trace })

/-- A call of a method. -/
inductive Call where
  | prepare (targets : List Target)
  | start (targets : List Target)
  | advance
  | run
  | resume (availability : Availability)
  | retryStage
  | retryRollback

/-- What a call computes. -/
def Call.work : Call → Work (Option Result)
  | .prepare targets => UpdateFlow.prepare svc flowID targets
  | .start targets => UpdateFlow.start svc fuel flowID targets
  | .advance => UpdateFlow.advance svc fuel flowID
  | .run => UpdateFlow.run svc fuel flowID
  | .resume availability => UpdateFlow.resume svc fuel flowID availability
  | .retryStage => UpdateFlow.retryStage svc flowID
  | .retryRollback => UpdateFlow.retryRollback svc flowID

/-- The worlds that are reached by calls on a flow, each of which may be cut off anywhere. -/
inductive Reachable (flowID : GoString) : World → Prop where
  | start : Reachable flowID {}
  | call {w w' : World} (before : Reachable flowID w) (call : Call) (fuel : Nat)
      (reaches : Reaches (surroundings svc) (call.work svc fuel flowID) w w') :
      Reachable flowID w'

end Bria.UpdateFlow
