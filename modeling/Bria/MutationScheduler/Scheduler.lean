import Bria.Base.Machine
import Bria.Base.Stored
import Bria.Errors
import Bria.Go.Map

/-!
# The mutation scheduler

`mutationscheduler/scheduler.go`. `Acquire` waits until a Telegram mutation may start and returns a
lease, and `Complete` reports how the mutation ended. The calls run concurrently; what each of them
does is a sequence of sections under the scheduler's mutex, and a run is any interleaving of such
sections (`Event`). A pass of the loop of `Acquire` is one section, from the comparison of the card
version to the lease or the wait. `Complete` first gives back the slot for heavy mutations, and then
has one section.

Every section reads the clock, and the clock of a run does not go back. What the file system does, and
the jitter of a cooldown, are arguments. A state path that is not set is one to which writes succeed
without a file. Reports and the waiters that they count are left out.
-/

namespace Bria.MutationScheduler

open Go

/-! ## Limits -/

/-- `time.Second`. -/
def second : Int := 1000000000

/-- `time.Millisecond`. -/
def millisecond : Int := 1000000

/-- `globalMutationLimit`. -/
def globalMutationLimit : Nat := 25

/-- `regularMutationLimit`. -/
def regularMutationLimit : Nat := globalMutationLimit - 2

/-- `interactiveLimit`. -/
def interactiveLimit : Nat := globalMutationLimit - 1

/-- `globalStartInterval`. -/
def globalStartInterval : Int := second / globalMutationLimit

/-- `baseMutationInterval`. -/
def baseMutationInterval : Int := 1500 * millisecond

/-! ## Data -/

/-- `Priority`. -/
inductive Priority where
  | routine
  | interactive
  /-- Another value of the type. -/
  | other (code : UInt8)
  deriving DecidableEq

/-- `Mutation`. -/
structure Mutation where
  method : GoString
  chatID : Int := 0
  cardID : Int := 0
  priority : Priority := .routine
  heavy : Bool := false

/-- `mutationDiskState`. The keys of the blocked chats are the decimal texts of their ids. -/
structure DiskState where
  version : Int := 1
  cooldownUntil : Time := .zero
  cooldownCause : GoString := []
  lastMutationAt : Time := .zero
  serverFailures : Int := 0
  probeRequired : Bool := false
  blockedAll : Bool := false
  blockedChats : Map Int Bool := ∅

/-- `cadenceState`. -/
structure Cadence where
  lastUpdateID : Int := 0
  startedAt : Time := .zero
  lastAt : Time := .zero

/-- `globalStart`. -/
structure GlobalStart where
  at_ : Time
  priority : Priority

/-- `MutationScheduler`. The epoch is a `uint64`. -/
structure Scheduler where
  state : DiskState := {}
  globalStarts : List GlobalStart := []
  cadence : Map Int Cadence := ∅
  /-- The slot for a heavy mutation is taken. -/
  heavy : Bool := false
  probeInFlight : Bool := false
  /-- How many leases hold the read lock for interactive mutations. -/
  interactive : Nat := 0
  epoch : UInt64 := 0
  cardVersions : Map (Int × Int) Nat := ∅
  nextWaiterID : Nat := 0

/-- The error of a mutation as far as it is looked at. -/
inductive Fault where
  /-- `context.Canceled`. -/
  | canceled
  | other
  deriving DecidableEq

/-- `Outcome`. -/
structure Outcome where
  httpStatus : Int := 0
  errorCode : Int := 0
  retryAfter : Int := 0
  err : Option Fault := none

/-- `Lease`. -/
structure Lease where
  mutation : Mutation
  probe : Bool
  epoch : UInt64
  persistedState : DiskState
  /-- `Complete` has given back the slot for a heavy mutation. -/
  released : Bool := false

/-- A call of `Acquire` in its loop. -/
structure Call where
  mutation : Mutation
  cardVersion : Nat := 0

/-! ## Waiting times -/

section

variable (now : Time) (priority : Priority) (starts : List GlobalStart) (m : Mutation)

/-- `mutationCardKey`: the chat and the card that an edit is of. -/
def mutationCardKey : Option (Int × Int) :=
  if m.chatID = 0 || m.cardID ≤ 0 || m.method ≠ ofText "editMessageText" then none
  else some (m.chatID, m.cardID)

/-- `cadenceInterval`. -/
def cadenceInterval (cadence : Cadence) (now : Time) : Int :=
  let elapsed := now.sub cadence.startedAt
  if cadence.startedAt.isZero || elapsed < 25 * second then baseMutationInterval
  else if elapsed < 50 * second then 2 * second
  else if elapsed < 650 * second then 2500 * millisecond
  else 3 * second + (elapsed - 650 * second) / (1200 * second) * (500 * millisecond)

/-- `pruneGlobalLocked`. -/
def pruneGlobal : List GlobalStart :=
  starts.dropWhile fun start => !start.at_.after (now.add (-second))

/-- `classDelayLocked`: how long the `limit`-th last start of a class is less than a second ago. -/
def classDelay (limit : Nat) (starts : List GlobalStart) : Int :=
  match (starts.reverse.filter fun start => start.priority = priority)[limit - 1]? with
  | some start => (start.at_.add second).sub now
  | none => 0

/-- The time until the next start because of the last one. -/
def spacing (lastMutationAt : Time) : Int :=
  if lastMutationAt.isZero then 0 else (lastMutationAt.add globalStartInterval).sub now

/-- The time until fewer than `globalMutationLimit` starts are less than a second ago. -/
def globalDelay : Int :=
  if globalMutationLimit ≤ starts.length then
    match starts[starts.length - globalMutationLimit]? with
    | some start => (start.at_.add second).sub now
    | none => 0
  else 0

/-- The limit of a class. -/
def classLimit : Nat :=
  if priority = .interactive then interactiveLimit else regularMutationLimit

/-- The time until the next routine mutation of a card in a chat. -/
def chatDelay (cadence : Map Int Cadence) : Int :=
  if m.chatID ≠ 0 && 0 < m.cardID && m.priority ≠ .interactive then
    let chat := (cadence.lookup m.chatID).getD {}
    (chat.lastAt.add (cadenceInterval chat now)).sub now
  else 0

/-- `delayLocked`, after the pruning: the longest of these times. -/
def delay (s : Scheduler) : Int :=
  let cooldown := if m.priority ≠ .interactive then s.state.cooldownUntil.sub now else 0
  max 0 (max cooldown (max (spacing now s.state.lastMutationAt)
    (max (globalDelay now s.globalStarts)
      (max (classDelay now m.priority (classLimit m.priority) s.globalStarts)
        (chatDelay now m s.cadence)))))

/-! ## Acquire -/

/-- `recordStartLocked`. -/
def recordStart (s : Scheduler) : Scheduler :=
  { s with
    globalStarts := s.globalStarts ++ [⟨now, m.priority⟩]
    state := { s.state with lastMutationAt := now }
    cadence :=
      if m.chatID = 0 || m.cardID ≤ 0 || m.priority = .interactive then s.cadence
      else
        let chat := (s.cadence.lookup m.chatID).getD {}
        s.cadence.insert m.chatID { chat with
          startedAt := if chat.startedAt.isZero then now else chat.startedAt
          lastAt := now } }

/-- How a pass of the loop ends. -/
inductive Pass where
  /-- The call returns an error. -/
  | error (e : Err)
  /-- The call waits, and then tries again. -/
  | wait
  /-- The start is recorded, and the lease is returned if the state can be written. -/
  | start (probe : Bool)

/-- A mutation that is not to be sent. -/
def stopped (state : DiskState) : Bool :=
  state.blockedAll || m.chatID ≠ 0 && (state.blockedChats.lookup m.chatID).getD false

end

section

variable (o : Outcome) (now : Time) (call : Call) (s : Scheduler)

/-- A pass of the loop up to the start, on a scheduler whose starts are pruned when it comes to the
waiting times. -/
def pass : Pass :=
  if (mutationCardKey call.mutation).any fun key =>
      (s.cardVersions.lookup key).getD 0 ≠ call.cardVersion then
    .error (err .mutationSuperseded)
  else if stopped call.mutation s.state then .error (err .mutationsStopped)
  else if call.mutation.priority ≠ .interactive && s.interactive ≠ 0 then .wait
  else
    let probe := s.state.probeRequired && call.mutation.priority ≠ .interactive
    if probe && s.probeInFlight then .wait
    else if 0 < delay now call.mutation { s with globalStarts := pruneGlobal now s.globalStarts } then
      .wait
    else if call.mutation.heavy && s.heavy then .wait
    else .start probe

/-- The scheduler after a pass that comes to the waiting times. -/
def pruned : Scheduler :=
  match pass now call s with
  | .error _ => s
  | _ =>
    if call.mutation.priority ≠ .interactive && s.interactive ≠ 0 then s
    else { s with globalStarts := pruneGlobal now s.globalStarts }

/-! ## Complete -/

/-- `isStatus`. -/
def isStatus (status : Int) : Bool := o.httpStatus = status || o.errorCode = status

/-- `isSuccessfulCode`. -/
def isSuccessfulCode (code : Int) : Bool := code = 0 || 200 ≤ code && code < 300

/-- `isDefinitiveSuccess`. -/
def isDefinitiveSuccess : Bool :=
  o.err.isNone && isSuccessfulCode o.httpStatus && isSuccessfulCode o.errorCode

/-- `serverBackoff`. -/
def serverBackoff (failures : Int) : Int :=
  if failures = 1 then 4 * second
  else if failures = 2 then 8 * second
  else if failures = 3 then 12 * second
  else 15 * second

/-- `enterCooldownLocked`. -/
def enterCooldown (wait : Int) (cause : GoString) (s : Scheduler) : Scheduler :=
  let deadline := now.add wait
  { s with
    state := { s.state with
      cooldownUntil :=
        if deadline.after s.state.cooldownUntil then deadline else s.state.cooldownUntil
      cooldownCause := cause
      probeRequired := true }
    epoch := s.epoch + 1 }

/-- The wait after a rate limit, in the arithmetic of `int64`. -/
def rateLimitWait (retryAfter jitter : Int) : Int :=
  (max (4 * second) retryAfter + jitter).bmod 0x10000000000000000

/-- One more failure of the server, up to four. -/
def failed : Scheduler :=
  { s with
    state := { s.state with
      serverFailures :=
        if s.state.serverFailures < 4 then s.state.serverFailures + 1 else s.state.serverFailures } }

/-- A definitive answer clears the cooldown. -/
def cleared : Scheduler :=
  { s with
    state := { s.state with
      serverFailures := 0
      probeRequired := false
      cooldownUntil := .zero
      cooldownCause := [] } }

/-- What `complete` makes of an outcome. -/
inductive Verdict where
  | unauthorized
  | forbidden
  | rateLimited
  | serverError
  /-- Any other answer of the server. -/
  | definitive
  | transportError
  | canceled
  deriving DecidableEq

/-- The chain of conditions of `complete`. -/
def Outcome.verdict : Verdict :=
  let hasAPIError := o.httpStatus ≠ 0 || o.errorCode ≠ 0
  if hasAPIError && isStatus o 401 then .unauthorized
  else if hasAPIError && isStatus o 403 then .forbidden
  else if hasAPIError && isStatus o 429 then .rateLimited
  else if hasAPIError && (500 ≤ o.httpStatus || 500 ≤ o.errorCode) then .serverError
  else if o.err.isNone || hasAPIError then .definitive
  else if o.err ≠ some .canceled then .transportError
  else .canceled

/-- The branch of `complete` that an outcome takes. -/
def resolve (jitter : Int) (lease : Lease) (o : Outcome) (s : Scheduler) : Scheduler :=
  match o.verdict with
  | .unauthorized => { s with state := { s.state with blockedAll := true }, epoch := s.epoch + 1 }
  | .forbidden =>
    { s with
      state := { s.state with
        blockedChats :=
          if lease.mutation.chatID ≠ 0 then s.state.blockedChats.insert lease.mutation.chatID true
          else s.state.blockedChats }
      epoch := s.epoch + 1 }
  | .rateLimited => enterCooldown now (rateLimitWait o.retryAfter jitter) (ofText "rate_limited") s
  | .serverError =>
    enterCooldown now (serverBackoff (failed s).state.serverFailures) (ofText "server_error") (failed s)
  | .definitive => if lease.epoch = s.epoch || lease.probe then cleared s else s
  | .transportError =>
    enterCooldown now (serverBackoff (failed s).state.serverFailures) (ofText "transport_error")
      (failed s)
  | .canceled => s

/-- `complete` under the mutex, up to the writing of the state. -/
def complete (jitter : Int) (lease : Lease) (o : Outcome) (s : Scheduler) : Scheduler :=
  resolve now jitter lease o { s with
    interactive :=
      if lease.mutation.priority = .interactive then s.interactive - 1 else s.interactive
    probeInFlight := if lease.probe then false else s.probeInFlight }

end

/-- `mutationDiskStatesEqual`. -/
def mutationDiskStatesEqual (left right : DiskState) : Bool :=
  left.version = right.version && left.cooldownUntil = right.cooldownUntil &&
    left.cooldownCause = right.cooldownCause && left.lastMutationAt = right.lastMutationAt &&
    left.serverFailures = right.serverFailures && left.probeRequired = right.probeRequired &&
    left.blockedAll = right.blockedAll &&
    left.blockedChats.entries.length = right.blockedChats.entries.length &&
    left.blockedChats.entries.all fun e => (right.blockedChats.lookup e.1).getD false = e.2

/-! ## Runs -/

/-- The scheduler, its state file, the calls of `Acquire` in their loops and the leases that are out. -/
structure System where
  /-- `Options.StatePath` is set. -/
  path : Bool
  file : Option DiskState := none
  scheduler : Scheduler := {}
  calls : Map Nat Call := ∅
  leases : Map Nat Lease := ∅
  /-- The latest reading of the clock. -/
  clock : Time
  /-- The starts for which a lease was returned, in their order. -/
  granted : List GlobalStart := []

/-- What a section meets outside of the scheduler. -/
structure World where
  now : Time
  jitter : Int := 0
  write : Write := .done

/-- One section under the mutex. -/
inductive Event where
  /-- `Acquire` starts: it gets its number and makes older edits of its card obsolete. -/
  | enter (m : Mutation)
  /-- A pass of the loop. -/
  | attempt (id : Nat) (w : World)
  /-- The context of a call that waits is done. -/
  | cancel (id : Nat)
  /-- `Complete` gives back the slot for a heavy mutation. -/
  | release (id : Nat)
  /-- The section of `Complete`. -/
  | finish (id : Nat) (o : Outcome) (w : World)
  /-- `RecordUserActivity`. -/
  | activity (chatID updateID : Int) (w : World)
  /-- `ConfirmAuthorization`. -/
  | confirmAuthorization (w : World)
  /-- The process ends, and the next one opens the state file. -/
  | restart

/-- `load`. -/
def load (file : Option DiskState) : Option DiskState :=
  match file with
  | none => some {}
  | some state =>
    if state.version ≠ 1 || state.serverFailures < 0 || 4 < state.serverFailures then none
    else some state

/-- `Open`: the system at the start of a process. -/
def openScheduler (path : Bool) (file : Option DiskState) (clock : Time)
    (granted : List GlobalStart) : Option System :=
  (load (if path then file else none)).map fun state =>
    { path, file, scheduler := { state }, clock, granted }

/-- `persistLocked`. -/
def System.persist (w : Write) (sys : System) : System :=
  { sys with file := if sys.path && w.lands then some sys.scheduler.state else sys.file }

/-- Whether `persistLocked` returns nil. -/
def System.persists (w : Write) (sys : System) : Bool := !sys.path || w = .done

/-- `Acquire` up to its loop. -/
def System.enter (m : Mutation) (sys : System) : System :=
  let id := sys.scheduler.nextWaiterID + 1
  match mutationCardKey m with
  | none =>
    { sys with
      scheduler := { sys.scheduler with nextWaiterID := id }
      calls := sys.calls.insert id { mutation := m } }
  | some key =>
    let version := (sys.scheduler.cardVersions.lookup key).getD 0 + 1
    { sys with
      scheduler := { sys.scheduler with
        nextWaiterID := id
        cardVersions := sys.scheduler.cardVersions.insert key version }
      calls := sys.calls.insert id { mutation := m, cardVersion := version } }

/-- The start of a mutation: it is recorded and the state is written, and if that fails, the slots
are given back and the call returns the error. -/
def System.start (id : Nat) (m : Mutation) (probe : Bool) (w : World) (sys : System) : System :=
  let recorded := recordStart w.now m { sys.scheduler with
    heavy := sys.scheduler.heavy || m.heavy
    probeInFlight := sys.scheduler.probeInFlight || probe }
  let written := System.persist w.write { sys with
    scheduler := recorded
    calls := sys.calls.erase id }
  if sys.persists w.write then
    { written with
      scheduler := { recorded with
        interactive :=
          if m.priority = .interactive then recorded.interactive + 1 else recorded.interactive }
      leases := sys.leases.insert id {
        mutation := m, probe, epoch := recorded.epoch, persistedState := recorded.state }
      granted := sys.granted ++ [⟨w.now, m.priority⟩] }
  else
    { written with
      scheduler := { recorded with
        heavy := if m.heavy then false else recorded.heavy
        probeInFlight := if probe then false else recorded.probeInFlight } }

/-- A pass of the loop of `Acquire`. -/
def System.attempt (id : Nat) (call : Call) (w : World) (sys : System) : System :=
  let pruned := { sys with scheduler := pruned w.now call sys.scheduler }
  match pass w.now call sys.scheduler with
  | .error _ => { pruned with calls := sys.calls.erase id }
  | .wait => pruned
  | .start probe => pruned.start id call.mutation probe w

/-- The section of `Complete`. -/
def System.finish (id : Nat) (lease : Lease) (o : Outcome) (w : World) (sys : System) : System :=
  let completed := { sys with
    scheduler := complete w.now w.jitter lease o sys.scheduler
    leases := sys.leases.erase id }
  if !isDefinitiveSuccess o ||
      !mutationDiskStatesEqual lease.persistedState completed.scheduler.state then
    completed.persist w.write
  else completed

/-- `RecordUserActivity`. -/
def System.activity (chatID updateID : Int) (now : Time) (sys : System) : System :=
  let chat := (sys.scheduler.cadence.lookup chatID).getD {}
  if chatID ≤ 0 || updateID ≤ 0 || updateID ≤ chat.lastUpdateID then sys
  else
    { sys with
      scheduler := { sys.scheduler with
        cadence := sys.scheduler.cadence.insert chatID { chat with
          lastUpdateID := updateID
          startedAt := now } } }

/-- `ConfirmAuthorization`. -/
def System.confirmAuthorization (w : World) (sys : System) : System :=
  if sys.scheduler.state.blockedAll then
    System.persist w.write { sys with
      scheduler := { sys.scheduler with state := { sys.scheduler.state with blockedAll := false } } }
  else sys

/-- A section at an instant of the clock, which does not go back. -/
def System.timed (now : Time) (sys : System) (next : System → System) : Option System :=
  if sys.clock.nanos ≤ now.nanos then some (next { sys with clock := now }) else none

/-- The system after an event, if the event is possible. `Acquire` refuses a mutation without a
method. -/
def System.step : Event → System → Option System
  | .enter m, sys => if m.method = [] then none else some (sys.enter m)
  | .attempt id w, sys =>
    (sys.calls.lookup id).bind fun call => sys.timed w.now (System.attempt id call w)
  | .cancel id, sys => (sys.calls.lookup id).map fun _ => { sys with calls := sys.calls.erase id }
  | .release id, sys =>
    (sys.leases.lookup id).bind fun lease =>
      if lease.mutation.heavy && !lease.released && sys.scheduler.heavy then
        some { sys with
          scheduler := { sys.scheduler with heavy := false }
          leases := sys.leases.insert id { lease with released := true } }
      else none
  | .finish id o w, sys =>
    (sys.leases.lookup id).bind fun lease =>
      if lease.mutation.heavy && !lease.released then none
      else sys.timed w.now (System.finish id lease o w)
  | .activity chatID updateID w, sys => sys.timed w.now (System.activity chatID updateID w.now)
  | .confirmAuthorization w, sys => some (sys.confirmAuthorization w)
  | .restart, sys => openScheduler sys.path sys.file sys.clock sys.granted

end Bria.MutationScheduler
