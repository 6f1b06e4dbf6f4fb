import Bria.Go.Values

/-!
# The packages' errors

The sentinel errors of the modelled packages, and the checks that return them.
-/

namespace Bria

open Go

/-- The package-level errors that callers compare with `errors.Is`. Where nothing else is said,
`conflict` is `ErrConflict` of the package above it. -/
inductive Sentinel where
  -- `messagejournal`
  | conflict | invalidFormat | invalidTransition | journalFull | leaseOwner | noAvailable | notFound
  | queueFull | inputSkipped
  /-- `messagejournal.errNoMutation`, which the operations turn into success. -/
  | noMutation
  -- `acceptedinput`
  | uncommitted
  /-- `acceptedinput.ErrInvalidReceipt`, which `durableflow` calls `ErrInvalidHandoff`. -/
  | invalidReceipt
  -- `durableflow`
  | journalRequired | inputProviderRequired | outputSenderRequired | invalidDelivery
  -- `coordinator`
  | deliveryUnknown | updateBlocked | invalidUpdateSequence | checkpointMismatch | invalidCheckpoint
  -- `computer`
  | invalidGeneration | staleGeneration | futureGeneration | coordinatorConflict | noCoordinator
  -- `coordinatortransfer`
  | invalidTransfer | transferPhase | quiesceExpired
  -- `nodelink`
  | invalidEnvelope | incompatibleVersion | unauthenticated | wrongIdentity | operationConflict
  | operationInDoubt | invalidPersistentState
  -- `telegramhistory`
  | promptAnchorUnavailable
  -- `cardhistory`
  | finalInvalid | finalConflict | finalCapacity | finalAnchor
  -- `cardeventhistory`
  | cardUnavailable
  /-- `archiveimport.ErrConflict`. -/
  | importConflict
  -- `storage`
  | compareAndSwapConflict | invariantConflict | sessionNotFound
  /-- `mutationscheduler.ErrStopped`. -/
  | mutationsStopped
  /-- `mutationscheduler.ErrSuperseded`. -/
  | mutationSuperseded
  -- `update`
  | invalidManifest | noArtifact | artifactHash | invalidRollout | nodeUnavailable | unexpectedState
  | unhealthyReceipt | rollbackFailed
  -- `updateflow`
  /-- `updateflow.ErrInvalidRequest`. -/
  | invalidUpdateRequest
  | flowAbsent | flowExists | revisionConflict | artifactUnstaged | stageUnknown | rollbackUnknown
  | updateRolledBack
  /-- `updateflow.ErrInvalidStore`. -/
  | invalidUpdateStore
  -- `interactionstore`
  | operationExists | immutableIdentity | invalidOperation
  /-- `interactionstore.ErrInvalidTransition`. -/
  | invalidPhaseTransition
  | storeExhausted
  -- `interactionflow`
  /-- `interactionflow.ErrInvalidConfiguration`. -/
  | invalidFlowConfiguration
  /-- `interactionflow.ErrInvalidEnvelope`. -/
  | invalidInteractionEnvelope
  | invalidCallback | staleCallback | sendUnknown | providerResponseUnknown | pendingTextUnavailable
  | secretDeletionUnknown
  /-- `coordinatorbundle.ErrInvalid`. -/
  | invalidBundle
  -- `coordinatorstate`
  | invalidState | sensitiveState | recoveryRequired
  -- `artifactdelivery`
  | invalidService | manifestAbsent | finalMismatch
  -- `files`
  /-- `files.ErrInvalidManifest`. -/
  | invalidDeliveryManifest
  | unknownFile
  /-- `context.Canceled` or `context.DeadlineExceeded`. -/
  | canceled
  deriving DecidableEq

/-- An error of the modelled packages. -/
abbrev Err := GoError Sentinel

/-- A sentinel as an error. -/
def err (s : Sentinel) : Err := .sentinel s

/-- `if err := ctx.Err(); err != nil { return err }` at the start of a call. -/
def checkContext (ctx : Context) : Except Err Unit := refuse ctx.cancelled (err .canceled)

/-- The same check inside a change. -/
def recheckContext (ctx : Context) : Except Err Unit := refuse ctx.cancelledLater (err .canceled)

end Bria
