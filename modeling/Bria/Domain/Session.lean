import Bria.Errors
import Bria.Go.Runes

/-!
# Sessions

The session of `domain/session.go`: its snapshot with the checks of `RestoreSession`, and the
transitions. `Session` and `SessionSnapshot` have the same fields and `Snapshot` copies them, so one
structure stands for both. A pointer is an option; the texts of statuses, providers and name sources
are enumerated, with a case for any other text. An instant is a number, without its location.
-/

namespace Bria.Domain

open Go

/-! ## Values -/

/-- `Provider`. -/
inductive Provider where
  | codex
  | claude
  | other (text : GoString)
  deriving DecidableEq

/-- The text of a provider. -/
def Provider.text : Provider → GoString
  | .codex => ofText "codex"
  | .claude => ofText "claude"
  | .other text => text

/-- `SessionNameSource`. The empty text is `unset`. -/
inductive SessionNameSource where
  | unset
  | directory
  | model
  | provider
  | other (text : GoString)
  deriving DecidableEq

/-- `SessionStatus`. -/
inductive SessionStatus where
  | starting
  | resuming
  | ready
  | running
  | stopping
  | closingAfterWork
  | awaitingRecovery
  | closing
  | archived
  | resumeFailed
  | other (text : GoString)
  deriving DecidableEq

/-- The text of a status. -/
def SessionStatus.text : SessionStatus → GoString
  | .starting => ofText "starting"
  | .resuming => ofText "resuming"
  | .ready => ofText "ready"
  | .running => ofText "running"
  | .stopping => ofText "stopping"
  | .closingAfterWork => ofText "closing_after_work"
  | .awaitingRecovery => ofText "awaiting_recovery"
  | .closing => ofText "closing"
  | .archived => ofText "archived"
  | .resumeFailed => ofText "resume_failed"
  | .other text => text

/-- `SessionLifetime`, in nanoseconds. -/
abbrev SessionLifetime := Int

/-- `time.Hour`. -/
def hour : Int := 3600000000000

/-- `SessionLifetimeNever`. -/
def lifetimeNever : SessionLifetime := 0

/-- The lifetimes after which a session is closed. -/
def lifetimes : List SessionLifetime := [6 * hour, 12 * hour, 24 * hour, 48 * hour]

/-- `ProviderBinding`. -/
structure ProviderBinding where
  provider : Provider
  sessionID : GoString
  generation : Nat
  deriving DecidableEq

/-- `Session`, and `SessionSnapshot`. -/
structure Session where
  (id intentID computerID : GoString)
  provider : Provider
  workdir : GoString
  name : GoString := []
  nameSource : SessionNameSource := .unset
  model : GoString := []
  effort : GoString := []
  status : SessionStatus
  binding : Option ProviderBinding := none
  createdAt : Time
  lastResumedAt : Option Time := none
  stateChangedAt : Time
  lifetime : SessionLifetime
  deadlineAt : Option Time := none
  recoveryTarget : Option SessionStatus := none
  deriving DecidableEq

/-- `Snapshot`. -/
def Session.snapshot (s : Session) : Session := s

/-- `Equal`. It does not look at the name source. -/
def Session.equal (s other : Session) : Bool :=
  { s with nameSource := .unset } = { other with nameSource := .unset }

/-! ## Checks -/

/-- `errorsForStatus`. -/
def errorsForStatus (status : SessionStatus) (message : String) : Err :=
  .message ("status " ++ quoted status.text ++ " " ++ message)

/-- `ValidateSessionIntent`. -/
def validateSessionIntent (intentID computerID : GoString) (provider : Provider)
    (workdir : GoString) : Except Err Unit := do
  refuse (blank intentID) (.message "intent id is required")
  refuse (blank computerID) (.message "computer id is required")
  refuse (provider ≠ .codex && provider ≠ .claude)
    (.message ("unsupported provider " ++ quoted provider.text))
  refuse (blank workdir) (.message "workdir is required")

/-- `validateModelPreferences` of one of the two values. -/
def validateModelPreference (value : GoString) : Except Err Unit := do
  refuse (128 < value.length || !validString value || trimSpace value ≠ value)
    (.message "invalid model preference")
  refuse ((chars value).any fun char => isControl char || isSpace char || isFormat char)
    (.message "invalid model preference")

/-- `validateModelPreferences`. -/
def validateModelPreferences (model effort : GoString) : Except Err Unit := do
  validateModelPreference model
  validateModelPreference effort

/-- `MaxSessionNameRunes`. -/
def maxSessionNameRunes : Nat := 10

/-- The checks of a name in `RestoreSession`, and the name source that the session gets. -/
def restoreName (snapshot : Session) : Except Err SessionNameSource :=
  if snapshot.name ≠ [] then do
    refuse ((chars snapshot.name).any isControl)
      (errorsForStatus snapshot.status "session name contains control characters")
    let words := fields snapshot.name
    refuse (words.length < 1 || 2 < words.length || joinWords words ≠ snapshot.name ||
        maxSessionNameRunes < runeCount snapshot.name)
      (errorsForStatus snapshot.status "session name is invalid")
    let source := if snapshot.nameSource = .unset then .directory else snapshot.nameSource
    refuse (source ≠ .directory && source ≠ .model && source ≠ .provider)
      (errorsForStatus snapshot.status "session name source is invalid")
    .ok source
  else do
    refuse (snapshot.nameSource ≠ .unset)
      (errorsForStatus snapshot.status "unnamed session has a name source")
    .ok snapshot.nameSource

/-- The recovery target that `RestoreSession` gives to a snapshot. -/
def restoreTarget (snapshot : Session) : Option SessionStatus :=
  if snapshot.status = .awaitingRecovery && snapshot.recoveryTarget = none then
    some (if snapshot.binding.isSome then .ready else .starting)
  else snapshot.recoveryTarget

/-- `validateLifecycleTime`. -/
def validateLifecycleTime (name : String) (value : Time) : Except Err Unit :=
  refuse value.isZero (.message (name ++ " is required"))

/-- `deadlineFrom`. The text of the error leaves out the lifetime. -/
def deadlineFrom (anchor : Time) (lifetime : SessionLifetime) : Except Err (Option Time) :=
  if lifetime = lifetimeNever then .ok none
  else if lifetimes.contains lifetime then .ok (some (anchor.add lifetime))
  else .error (.message "unsupported session lifetime")

/-- The instant from which the lifetime of a session counts. -/
def Session.anchor (s : Session) : Time := s.lastResumedAt.getD s.createdAt

/-- Whether the deadline of a snapshot is not checked. -/
def SessionStatus.hasFreeDeadline : SessionStatus → Bool
  | .archived | .resuming | .resumeFailed => true
  | _ => false

/-- `validateLifecycleSnapshot`. -/
def validateLifecycleSnapshot (snapshot : Session) : Except Err Unit :=
  if snapshot.createdAt.isZero && snapshot.stateChangedAt.isZero then
    refuse (snapshot.lastResumedAt.isSome || snapshot.deadlineAt.isSome ||
        snapshot.lifetime ≠ lifetimeNever)
      (errorsForStatus snapshot.status "legacy timestamps cannot contain lifecycle timing fields")
  else do
    validateLifecycleTime "created at" snapshot.createdAt
    validateLifecycleTime "state changed at" snapshot.stateChangedAt
    refuse (snapshot.stateChangedAt.nanos < snapshot.createdAt.nanos)
      (errorsForStatus snapshot.status "state change precedes creation")
    let _ ← deadlineFrom snapshot.createdAt snapshot.lifetime
    refuse (snapshot.lastResumedAt.any fun at_ => at_.nanos < snapshot.createdAt.nanos)
      (errorsForStatus snapshot.status "resume precedes creation")
    refuse (snapshot.lastResumedAt.any fun at_ => snapshot.stateChangedAt.nanos < at_.nanos)
      (errorsForStatus snapshot.status "resume follows the latest state change")
    let wantDeadline ← deadlineFrom snapshot.anchor snapshot.lifetime
    refuse (snapshot.deadlineAt ≠ wantDeadline && !snapshot.status.hasFreeDeadline)
      (errorsForStatus snapshot.status "deadline does not match its creation or resume anchor")

/-- `validateBinding`. -/
def validateBinding (provider : Provider) (binding : Option ProviderBinding) : Except Err Unit :=
  match binding with
  | none => .error (.message "ready session requires a provider binding")
  | some binding => do
    refuse (binding.provider ≠ provider)
      (.message ("provider binding " ++ quoted binding.provider.text ++
        " does not match session provider " ++ quoted provider.text))
    refuse (blank binding.sessionID) (.message "provider session id is required")
    refuse (binding.generation = 0)
      (.message "provider launch generation must be greater than zero")

/-- `isRecoveryTarget`. -/
def isRecoveryTarget : SessionStatus → Bool
  | .starting | .resuming | .ready | .running | .stopping | .closingAfterWork | .closing => true
  | _ => false

/-- The checks of the recovery target of an awaiting session. -/
def validateTarget (snapshot : Session) : Except Err Unit :=
  match snapshot.recoveryTarget with
  | none => .error (errorsForStatus snapshot.status "requires a recovery target")
  | some target => do
    refuse (!isRecoveryTarget target)
      (errorsForStatus snapshot.status "has an invalid recovery target")
    refuse (target = .starting && snapshot.binding.isSome)
      (errorsForStatus snapshot.status "cannot retain a binding for initial start recovery")
    refuse (target ≠ .starting && snapshot.binding.isNone)
      (errorsForStatus snapshot.status "requires the prior provider binding")

/-- The checks of an awaiting session. -/
def validateAwaiting (snapshot : Session) : Except Err Unit := do
  if snapshot.binding.isSome then validateBinding snapshot.provider snapshot.binding else .ok ()
  validateTarget snapshot

/-- The checks of binding and recovery target for the status. -/
def validateForStatus (snapshot : Session) : Except Err Unit :=
  match snapshot.status with
  | .starting =>
    refuse snapshot.binding.isSome
      (.message ("status " ++ quoted snapshot.status.text ++ " cannot have a provider binding"))
  | .resuming | .ready | .running | .stopping | .closingAfterWork | .closing | .archived
  | .resumeFailed => validateBinding snapshot.provider snapshot.binding
  | .awaitingRecovery => validateAwaiting snapshot
  | .other text => .error (.message ("unsupported session status " ++ quoted text))

/-- The checks of `RestoreSession` that depend on the status. -/
def validateStatus (snapshot : Session) : Except Err Unit := do
  validateForStatus snapshot
  refuse (snapshot.status ≠ .awaitingRecovery && snapshot.recoveryTarget.isSome)
    (errorsForStatus snapshot.status "cannot have a recovery target")

/-- `RestoreSession`. -/
def restoreSession (snapshot : Session) : Except Err Session := do
  validateModelPreferences snapshot.model snapshot.effort
  refuse (blank snapshot.id) (.message "session id is required")
  validateSessionIntent snapshot.intentID snapshot.computerID snapshot.provider snapshot.workdir
  let nameSource ← restoreName snapshot
  let restored := { snapshot with nameSource, recoveryTarget := restoreTarget snapshot }
  validateLifecycleSnapshot restored
  validateStatus restored
  .ok restored

/-- `NewStartingSessionAt`. -/
def newStartingSessionAt (id intentID computerID : GoString) (provider : Provider)
    (workdir : GoString) (createdAt : Time) (lifetime : SessionLifetime) : Except Err Session := do
  validateSessionIntent intentID computerID provider workdir
  validateLifecycleTime "created at" createdAt
  let deadline ← deadlineFrom createdAt lifetime
  restoreSession
    { id, intentID, computerID, provider, workdir, status := .starting, createdAt
      stateChangedAt := createdAt, lifetime, deadlineAt := deadline }

/-! ## Transitions -/

namespace Session

section

variable (s : Session) (at_ : Time)

/-- `transition`. The text of the second error leaves out the instants. -/
def transition (status : SessionStatus) (at_ : Time) : Except Err Session := do
  validateLifecycleTime "state changed at" at_
  refuse (!s.stateChangedAt.isZero && at_.nanos < s.stateChangedAt.nanos)
    (.message "state change time precedes prior change")
  .ok { s with status, stateChangedAt := at_, recoveryTarget := none }

/-- The error of a transition from a status that does not have it. -/
def cannot (s : Session) (what : String) : Err :=
  .message ("cannot " ++ what ++ " session " ++ quoted s.id ++ " from " ++ quoted s.status.text)

/-- The error of a transition that is said to be of the session's work. -/
def cannotFor (what : String) : Err :=
  .message ("cannot " ++ what ++ " for session " ++ quoted s.id ++ " from " ++ quoted s.status.text)

/-- `ReadyAt`. -/
def readyAt (binding : ProviderBinding) (at_ : Time) : Except Err Session := do
  refuse (s.status ≠ .starting)
    (.message ("cannot mark session " ++ quoted s.id ++ " ready from " ++ quoted s.status.text))
  validateBinding s.provider (some binding)
  let next ← s.transition .ready at_
  .ok { next with binding := some binding }

/-- `AwaitRecoveryAt`. -/
def awaitRecoveryAt : Except Err Session := do
  refuse (!isRecoveryTarget s.status)
    (.message ("cannot mark session " ++ quoted s.id ++ " awaiting recovery from " ++
      quoted s.status.text))
  let next ← s.transition .awaitingRecovery at_
  .ok { next with recoveryTarget := some s.status }

/-- A transition that changes nothing but the status. -/
def move (allowed : List SessionStatus) (e : Err) (status : SessionStatus) (at_ : Time) :
    Except Err Session := do
  refuse (!allowed.contains s.status) e
  s.transition status at_

/-- `StartWork`. -/
def startWork : Except Err Session := s.move [.ready] (s.cannotFor "start work") .running at_

/-- `BeginStop`. -/
def beginStop : Except Err Session := s.move [.running] (s.cannotFor "stop work") .stopping at_

/-- `FinishWork`. -/
def finishWork : Except Err Session :=
  s.move [.running, .stopping] (s.cannotFor "finish work") .ready at_

/-- `CloseAfterWork`. -/
def closeAfterWork : Except Err Session :=
  s.move [.running, .stopping] (s.cannotFor "schedule close") .closingAfterWork at_

/-- `BeginClose`. -/
def beginClose : Except Err Session :=
  s.move [.ready, .closingAfterWork, .awaitingRecovery] (s.cannot "close") .closing at_

/-- `Archive`. -/
def archive (s : Session) (at_ : Time) : Except Err Session := do
  let next ← s.move [.closing] (s.cannot "archive") .archived at_
  .ok { next with deadlineAt := none }

/-- `BeginResume`. -/
def beginResume : Except Err Session := s.move [.archived] (s.cannot "resume") .resuming at_

/-- `FailResume`. -/
def failResume : Except Err Session :=
  s.move [.resuming] (s.cannotFor "fail resume") .resumeFailed at_

/-- `ReturnToArchive`. -/
def returnToArchive : Except Err Session :=
  s.move [.resumeFailed]
    (.message ("cannot return session " ++ quoted s.id ++ " to archive from " ++
      quoted s.status.text)) .archived at_

/-- `validateResumedBinding`. -/
def validateResumedBinding (provider : Provider) (prior : Option ProviderBinding)
    (next : ProviderBinding) : Except Err Unit := do
  validateBinding provider (some next)
  match prior with
  | none => .error (.message "prior provider binding is required for exact resume")
  | some prior =>
    refuse (next.sessionID ≠ prior.sessionID)
      (.message ("resumed provider session id " ++ quoted next.sessionID ++
        " does not match original " ++ quoted prior.sessionID))
    refuse (next.generation ≤ prior.generation)
      (.message ("resumed provider generation " ++ toString next.generation ++
        " must be greater than prior generation " ++ toString prior.generation))

/-- `ResumeReady`. -/
def resumeReady (binding : ProviderBinding) (at_ : Time) (lifetime : SessionLifetime) :
    Except Err Session := do
  refuse (s.status ≠ .resuming) (s.cannotFor "finish resume")
  validateResumedBinding s.provider s.binding binding
  validateLifecycleTime "resumed at" at_
  let deadline ← deadlineFrom at_ lifetime
  let next ← s.transition .ready at_
  .ok { next with
    binding := some binding, lastResumedAt := some at_, lifetime
    deadlineAt := deadline }

/-- The status of a session that has recovered. -/
def recoveredStatus : SessionStatus → SessionStatus
  | .starting | .resuming | .running | .stopping => .ready
  | target => target

/-- The check of the binding in `Recovered`. -/
def validateRecoveredBinding (target : SessionStatus) (binding : ProviderBinding) :
    Except Err Unit :=
  if s.binding.isNone then do
    refuse (target ≠ .starting)
      (errorsForStatus s.status "binding-less recovery is only valid for a new session")
    validateBinding s.provider (some binding)
  else validateResumedBinding s.provider s.binding binding

/-- `Recovered` of a session with a recovery target. -/
def recoveredFrom (target : SessionStatus) (binding : ProviderBinding) (at_ : Time) :
    Except Err Session := do
  s.validateRecoveredBinding target binding
  let next ← s.transition (recoveredStatus target) at_
  let next := { next with binding := some binding }
  if target = .resuming then do
    let deadline ← deadlineFrom next.stateChangedAt next.lifetime
    .ok { next with lastResumedAt := some next.stateChangedAt, deadlineAt := deadline }
  else .ok next

/-- `Recovered`. -/
def recovered (binding : ProviderBinding) (at_ : Time) : Except Err Session :=
  match s.status, s.recoveryTarget with
  | .awaitingRecovery, some target => s.recoveredFrom target binding at_
  | _, _ => .error (s.cannot "recover")

/-- `Rename`. -/
def rename (name : GoString) (source : SessionNameSource) : Except Err Session :=
  restoreSession { s.snapshot with name, nameSource := source }

/-- `WithModelPreferences`. -/
def withModelPreferences (model effort : GoString) : Except Err Session := do
  refuse (s.status ≠ .ready)
    (.message ("cannot change model preferences from " ++ quoted s.status.text))
  restoreSession { s.snapshot with model, effort }

end

end Session

/-- A call of one of the transitions. -/
inductive Transition where
  | readyAt (binding : ProviderBinding) (at_ : Time)
  | awaitRecoveryAt (at_ : Time)
  | startWork (at_ : Time)
  | beginStop (at_ : Time)
  | finishWork (at_ : Time)
  | closeAfterWork (at_ : Time)
  | beginClose (at_ : Time)
  | archive (at_ : Time)
  | beginResume (at_ : Time)
  | resumeReady (binding : ProviderBinding) (at_ : Time) (lifetime : SessionLifetime)
  | failResume (at_ : Time)
  | returnToArchive (at_ : Time)
  | recovered (binding : ProviderBinding) (at_ : Time)
  | rename (name : GoString) (source : SessionNameSource)
  | withModelPreferences (model effort : GoString)

/-- The session that a transition returns. -/
def Transition.apply (s : Session) : Transition → Except Err Session
  | .readyAt binding at_ => s.readyAt binding at_
  | .awaitRecoveryAt at_ => s.awaitRecoveryAt at_
  | .startWork at_ => s.startWork at_
  | .beginStop at_ => s.beginStop at_
  | .finishWork at_ => s.finishWork at_
  | .closeAfterWork at_ => s.closeAfterWork at_
  | .beginClose at_ => s.beginClose at_
  | .archive at_ => s.archive at_
  | .beginResume at_ => s.beginResume at_
  | .resumeReady binding at_ lifetime => s.resumeReady binding at_ lifetime
  | .failResume at_ => s.failResume at_
  | .returnToArchive at_ => s.returnToArchive at_
  | .recovered binding at_ => s.recovered binding at_
  | .rename name source => s.rename name source
  | .withModelPreferences model effort => s.withModelPreferences model effort

/-- A successful transition. -/
def Session.step (t : Transition) (s : Session) : Option Session := (t.apply s).toOption

end Bria.Domain
