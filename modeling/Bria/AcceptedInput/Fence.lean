import Bria.AcceptedInput.Read
import Bria.Base.Machine

/-!
# The fence as a concurrent machine

`fence.go` and `Commit` of `read.go`, as the goroutines of one process run them. A call is a thread
that advances by atomic steps: one use of the journal, or one critical section of the fence's
mutex. `Lease` keeps the mutex from its first look at the blocked receipts to its return, while
`Commit` takes it only inside `Observe` and `clear`, so that other calls and operations of the
journal run between its steps. `World.step` lets any thread advance, any call start, any
acknowledgement be observed and any operation of the journal run.
-/

namespace Bria.AcceptedInput

open Go MessageJournal

/-- The arguments of `Commit`. -/
structure CommitCall where
  key : Receipt
  owner : GoString

/-- The arguments of `Lease`. -/
structure LeaseCall where
  (sessionID owner : GoString)
  now : Time
  duration : Int

/-- Where a call is. -/
inductive Thread where
  /-- `Commit`, before its `Lookup`. -/
  | commit (call : CommitCall)
  /-- `Commit`, before its `Observe`. -/
  | observing (call : CommitCall)
  /-- `Commit`, before its first or, `again`, its second `MarkInputAccepted`. -/
  | marking (call : CommitCall) (again : Bool)
  /-- `Commit`, before its `clear`. -/
  | clearing (call : CommitCall)
  /-- `Commit` has returned. -/
  | committed (call : CommitCall) (error : Option Err)
  /-- `Lease`, before it has the mutex. -/
  | lease (call : LeaseCall)
  /-- `Lease` with the mutex, and the receipts that its loop has not reached. -/
  | checking (call : LeaseCall) (keys : List Receipt)
  /-- `Lease` has returned an error at a receipt. -/
  | refused (call : LeaseCall) (key : Receipt) (error : Err)
  /-- `Lease` has returned what `LeaseNextInput` returned. -/
  | leased (call : LeaseCall) (input : Input) (error : Option Err)

/-- What a step of a thread meets: its context, the failures of the file system, and the order in
which a loop over the map goes. -/
structure Env where
  ctx : Context := {}
  faults : Faults := {}
  order : List Receipt := []

/-- What the calls of a process share: the journal's file and the receipts of the fence. -/
structure Shared where
  disk : Disk
  blocked : List Receipt := []

/-- `Observe`. -/
def Shared.observe (key : Receipt) (shared : Shared) : Shared :=
  { shared with
    blocked := if shared.blocked.any (· = key) then shared.blocked else key :: shared.blocked }

/-- `clear`. -/
def Shared.clear (key : Receipt) (shared : Shared) : Shared :=
  { shared with blocked := shared.blocked.filter (· ≠ key) }

/-! ## Commit -/

variable (limits : Limits) (env : Env)

/-- `Commit` from its `Lookup` to its `Observe`. -/
def commitLookup (call : CommitCall) (disk : Disk) : Thread :=
  match lookup limits env.ctx env.faults.read call.key disk with
  | .error e => .committed call (some e)
  | .ok (input, _) =>
    if acknowledged input.phase then .committed call none
    else if input.phase ≠ some .pending ∨ input.lease.owner ≠ call.owner ∨ call.owner = [] then
      .committed call (some (err .invalidReceipt))
    else .observing call

/-- The check of `Commit` on the input that `MarkInputAccepted` returned. -/
def CommitCall.confirms (call : CommitCall) (accepted : Input) : Bool :=
  accepted.sessionID = call.key.sessionID && accepted.messageID = call.key.messageID &&
    accepted.sequence = call.key.sequence && accepted.phase = some .accepted

/-- `Commit` from a `MarkInputAccepted` to the next step: it tries once again after an error. -/
def commitMark (call : CommitCall) (again : Bool) (disk : Disk) : Thread × Disk :=
  match (markInputAccepted limits env.ctx.withoutCancel call.key.sessionID call.key.messageID
    call.owner).run limits env.faults disk with
  | ((_, some e), disk) => (if again then .committed call (some e) else .marking call true, disk)
  | ((accepted, none), disk) =>
    (if call.confirms accepted then .clearing call
      else .committed call (some (err .invalidReceipt)), disk)

/-! ## Lease -/

/-- One turn of the loop of `Lease`. A receipt that is not in the map any more is not produced. -/
def leaseCheck (call : LeaseCall) (key : Receipt) (rest : List Receipt) (shared : Shared) :
    Thread × Shared :=
  if shared.blocked.all (· ≠ key) || key.sessionID ≠ call.sessionID then
    (.checking call rest, shared)
  else
    match lookup limits env.ctx env.faults.read key shared.disk with
    | .error e => (.refused call key e, shared)
    | .ok (input, _) =>
      if input.phase.all (!·.handedOff) then (.refused call key (err .uncommitted), shared)
      else (.checking call rest, shared.clear key)

/-- The end of `Lease`. -/
def leaseTake (call : LeaseCall) (disk : Disk) : Thread × Disk :=
  match (leaseNextInput limits env.ctx call.sessionID call.owner call.now call.duration).run limits
    env.faults disk with
  | ((input, e), disk) => (.leased call input e, disk)

/-! ## Threads and steps -/

/-- Whether the thread has the mutex between two of its steps. -/
def Thread.locked : Thread → Bool
  | .checking .. => true
  | _ => false

/-- Whether the next step of the thread takes the mutex. -/
def Thread.locks : Thread → Bool
  | .observing _ | .clearing _ | .lease _ => true
  | _ => false

/-- The next step of a thread, none when its call has returned. -/
def Thread.advance (shared : Shared) :
    Thread → Option (Thread × Shared)
  | .commit call => some (commitLookup limits env call shared.disk, shared)
  | .observing call => some (.marking call false, shared.observe call.key)
  | .marking call again =>
    let (thread, disk) := commitMark limits env call again shared.disk
    some (thread, { shared with disk })
  | .clearing call => some (.committed call none, shared.clear call.key)
  | .lease call => if env.order.isPerm shared.blocked then some (.checking call env.order, shared)
    else none
  | .checking call [] =>
    let (thread, disk) := leaseTake limits env call shared.disk
    some (thread, { shared with disk })
  | .checking call (key :: rest) => some (leaseCheck limits env call key rest shared)
  | .committed .. | .refused .. | .leased .. => none

/-- A process: what its calls share, and where they are. -/
structure World where
  shared : Shared
  threads : List Thread := []

variable (w : World)

/-- Whether the mutex is free. -/
def World.free : Bool := w.threads.all fun thread => !thread.locked

/-- What can happen next. -/
inductive Label where
  /-- An operation of the journal, by this process or another. -/
  | journal (event : Event)
  /-- `Observe` of an acknowledgement. -/
  | observe (key : Receipt)
  /-- `Commit` is called. -/
  | callCommit (call : CommitCall)
  /-- `Lease` is called. -/
  | callLease (call : LeaseCall)
  /-- A call advances. -/
  | advance (index : Nat) (env : Env)

/-- One step of the process, none when it is not enabled. -/
def World.step (limits : Limits) (label : Label) (w : World) : Option World :=
  match label with
  | .journal event =>
    some { w with
      shared := { w.shared with disk := event.op.step limits event.faults w.shared.disk } }
  | .observe key => if w.free then some { w with shared := w.shared.observe key } else none
  | .callCommit call => some { w with threads := w.threads ++ [.commit call] }
  | .callLease call => some { w with threads := w.threads ++ [.lease call] }
  | .advance index env =>
    match w.threads[index]? with
    | none => none
    | some thread =>
      if thread.locks && !w.free then none
      else
        (thread.advance limits env w.shared).map fun (thread, shared) =>
          ⟨shared, w.threads.set index thread⟩

/-- The acknowledgement that a step observes, by a call of `Observe` or inside `Commit`. -/
def World.observes : Label → Option Receipt
  | .observe key => some key
  | .advance index _ =>
    match w.threads[index]? with
    | some (.observing call) => some call.key
    | _ => none
  | _ => none

/-- Where the call that advances gets to. -/
def World.next : Label → Option Thread
  | .advance index env =>
    match w.threads[index]? with
    | some thread => (thread.advance limits env w.shared).map Prod.fst
    | none => none
  | _ => none

end Bria.AcceptedInput
