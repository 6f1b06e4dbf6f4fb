import Bria.AcceptedInput.Fence
import Bria.Base.Program

/-!
# What the flow asks of its surroundings

The methods of `durableflow.Flow` as programs. What they ask is a clock, the journal, the receipts
of the fence and the sender of outputs. The surroundings choose what the source leaves open: the
time, whether a context is cancelled by now, which steps of the file system fail, the order of a
map and everything the sender returns. They keep the journal's file, the fence's receipts, and a log
of what was done, in which a statement finds the calls of one method.
-/

namespace Bria.DurableFlow

open Go MessageJournal AcceptedInput Program

/-! ## Contexts -/

/-- A context that is passed on. What a call sees of it is known when the call is made. -/
inductive Ctx where
  /-- It may be cancelled at any time. -/
  | cancellable
  /-- It comes from `context.WithoutCancel`. -/
  | detached

/-- `context.WithoutCancel`. -/
def Ctx.withoutCancel (_ : Ctx) : Ctx := .detached

section

variable (limits : Limits) (ctx : Context)

/-- What a call sees of a context, which may have been cancelled by then. -/
def Ctx.seen (ctx : Ctx) (now : Context) : Context :=
  match ctx with
  | .cancellable => now
  | .detached => now.withoutCancel

/-! ## Calls of the journal -/

/-- The input methods of the journal that the flow calls, without their context. -/
inductive InputCall where
  | leaseNextInput (sessionID owner : GoString) (now : Time) (duration : Int)
  | replaceLeasedInputPayload (sessionID messageID owner : GoString) (sequence : Nat)
      (payload : GoString)
  | markInputAccepted (sessionID messageID owner : GoString)
  | releaseInputLease (sessionID messageID owner : GoString)
  | markInputDeliveryFailed (sessionID messageID owner : GoString)
  | markInputDeliveryUnknown (sessionID messageID owner : GoString)
  | resolveAcceptedInput (sessionID messageID : GoString) (sequence : Nat) (outcome : InputPhase)

/-- The method of a call. -/
def InputCall.method : InputCall → Call Input
  | .leaseNextInput sessionID owner now duration =>
    MessageJournal.leaseNextInput limits ctx sessionID owner now duration
  | .replaceLeasedInputPayload sessionID messageID owner sequence payload =>
    MessageJournal.replaceLeasedInputPayload limits ctx sessionID messageID owner sequence payload
  | .markInputAccepted sessionID messageID owner =>
    MessageJournal.markInputAccepted limits ctx sessionID messageID owner
  | .releaseInputLease sessionID messageID owner =>
    MessageJournal.releaseInputLease limits ctx sessionID messageID owner
  | .markInputDeliveryFailed sessionID messageID owner =>
    MessageJournal.markInputDeliveryFailed limits ctx sessionID messageID owner
  | .markInputDeliveryUnknown sessionID messageID owner =>
    MessageJournal.markInputDeliveryUnknown limits ctx sessionID messageID owner
  | .resolveAcceptedInput sessionID messageID sequence outcome =>
    MessageJournal.resolveAcceptedInput limits ctx sessionID messageID sequence outcome

/-- The operation of a call. -/
def InputCall.op : InputCall → Op
  | .leaseNextInput sessionID owner now duration => .leaseNextInput ctx sessionID owner now duration
  | .replaceLeasedInputPayload sessionID messageID owner sequence payload =>
    .replaceLeasedInputPayload ctx sessionID messageID owner sequence payload
  | .markInputAccepted sessionID messageID owner => .markInputAccepted ctx sessionID messageID owner
  | .releaseInputLease sessionID messageID owner => .releaseInputLease ctx sessionID messageID owner
  | .markInputDeliveryFailed sessionID messageID owner =>
    .markInputDeliveryFailed ctx sessionID messageID owner
  | .markInputDeliveryUnknown sessionID messageID owner =>
    .markInputDeliveryUnknown ctx sessionID messageID owner
  | .resolveAcceptedInput sessionID messageID sequence outcome =>
    .resolveAcceptedInput ctx sessionID messageID sequence outcome

/-- The output methods of the journal that the flow calls, without their context. -/
inductive OutputCall where
  | leaseNextOutput (sessionID owner : GoString) (now : Time) (duration : Int)
  | leaseNextOutputForSessions (sessionIDs : List GoString) (owner : GoString) (now : Time)
      (duration : Int)
  | confirmOutput (sessionID operationID owner receipt : GoString)
  | markOutputFailed (sessionID operationID owner : GoString)
  | markOutputUnknown (sessionID operationID owner : GoString)

/-- The method of a call. -/
def OutputCall.method : OutputCall → Call Output
  | .leaseNextOutput sessionID owner now duration =>
    MessageJournal.leaseNextOutput limits ctx sessionID owner now duration
  | .leaseNextOutputForSessions sessionIDs owner now duration =>
    MessageJournal.leaseNextOutputForSessions limits ctx sessionIDs owner now duration
  | .confirmOutput sessionID operationID owner receipt =>
    MessageJournal.confirmOutput limits ctx sessionID operationID owner receipt
  | .markOutputFailed sessionID operationID owner =>
    MessageJournal.markOutputFailed limits ctx sessionID operationID owner
  | .markOutputUnknown sessionID operationID owner =>
    MessageJournal.markOutputUnknown limits ctx sessionID operationID owner

/-- The operation of a call. -/
def OutputCall.op : OutputCall → Op
  | .leaseNextOutput sessionID owner now duration =>
    .leaseNextOutput ctx [sessionID] owner now duration
  | .leaseNextOutputForSessions sessionIDs owner now duration =>
    .leaseNextOutput ctx sessionIDs owner now duration
  | .confirmOutput sessionID operationID owner receipt =>
    .confirmOutput ctx sessionID operationID owner receipt
  | .markOutputFailed sessionID operationID owner =>
    .markOutputFailed ctx sessionID operationID owner
  | .markOutputUnknown sessionID operationID owner =>
    .markOutputUnknown ctx sessionID operationID owner

end

/-- The file after a call is the file after its operation. -/
theorem step_of_forget {α : Type} {op : Op} {call : Call α} {limits : Limits} {faults : Faults}
    {disk : Disk} (h : op.call limits = call.forget) :
    (call.run limits faults disk).2 = op.step limits faults disk := by
  rw [Op.step, h, Call.forget_run]

theorem InputCall.forget (call : InputCall) (limits : Limits) (ctx : Context) :
    (call.op ctx).call limits = (call.method limits ctx).forget := by
  cases call <;> rfl

theorem OutputCall.forget (call : OutputCall) (limits : Limits) (ctx : Context) :
    (call.op ctx).call limits = (call.method limits ctx).forget := by
  cases call <;> rfl

/-! ## Requests -/

/-- `HandoffState`, a string of which the constants are named. -/
inductive HandoffState where
  | accepted
  | deferred
  | rejected
  | unknown
  | other (text : GoString)
  deriving DecidableEq

/-- `HandoffResult`. -/
structure HandoffResult where
  (sessionID messageID : GoString)
  sequence : Nat
  state : HandoffState

/-- `DeliveryState`, a string of which the constants are named. -/
inductive DeliveryState where
  | confirmed
  | failed
  | unknown
  | other (text : GoString)
  deriving DecidableEq

/-- `ProviderOutput`. -/
structure ProviderOutput where
  (sessionID operationID : GoString)
  sequence : Nat
  (kind payload : GoString)

/-- `DeliveryResult`. -/
structure DeliveryResult where
  sessionID : GoString := []
  operationID : GoString := []
  sequence : Nat := 0
  state : DeliveryState := .other []
  receipt : GoString := []

/-- What a method of the flow asks. -/
inductive Request where
  /-- `flow.now()`. -/
  | now
  /-- `acceptedinput.Lookup`, which reads the journal once. -/
  | lookup (ctx : Ctx) (key : Receipt)
  /-- An input method of the journal. -/
  | input (ctx : Ctx) (call : InputCall)
  /-- An output method of the journal. -/
  | output (ctx : Ctx) (call : OutputCall)
  /-- The receipts of the fence, in the order of a loop over the map. -/
  | blocked
  /-- `Observe` of the fence. -/
  | observe (key : Receipt)
  /-- `clear` of the fence. -/
  | clear (key : Receipt)
  /-- The processor of an input calls `OnAccepted`. The call itself is the flow's; this is its
  entry in the log. -/
  | report (receipt : HandoffResult)
  /-- `flow.sender.Deliver`. -/
  | deliver (ctx : Ctx) (request : ProviderOutput)

/-- What a request returns. -/
def Request.Answer : Request → Type
  | .now => Time
  | .lookup .. => Except Err (Input × List Input)
  | .input .. => Input × Option Err
  | .output .. => Output × Option Err
  | .blocked => List Receipt
  | .observe _ => Unit
  | .clear _ => Unit
  | .report _ => Unit
  | .deliver .. => DeliveryResult × Option Err

/-- What a request leaves open. -/
def Request.Choice : Request → Type
  | .lookup .. => Context × Bool
  | .input .. | .output .. => Context × Faults
  | request => request.Answer

/-! ## The process -/

/-- An entry of the log. -/
inductive Done where
  /-- An input method of the journal was called, under `ctx` and with the failures `faults`. -/
  | input (call : InputCall) (ctx : Context) (faults : Faults) (result : Input) (error : Option Err)
  /-- An output method of the journal was called. -/
  | output (call : OutputCall) (ctx : Context) (faults : Faults) (result : Output)
      (error : Option Err)
  /-- The processor of an input called `OnAccepted`. -/
  | reported (receipt : HandoffResult)
  /-- An output was handed to the sender. -/
  | delivered (request : ProviderOutput) (result : DeliveryResult) (error : Option Err)

/-- The process that the flow runs in: the journal's file and the fence, and the log. -/
structure Process where
  shared : Shared
  log : List Done := []

/-- An order of the receipts of the fence. -/
def Process.ordered (process : Process) (order : List Receipt) : List Receipt :=
  if order.isPerm process.shared.blocked then order else process.shared.blocked

/-- What a request does under a choice. -/
def Process.perform (limits : Limits) :
    (request : Request) → Process → request.Choice → request.Answer × Process
  | .now, process, time => (time, process)
  | .lookup ctx key, process, (context, fault) =>
    (AcceptedInput.lookup limits (ctx.seen context) fault key process.shared.disk, process)
  | .input ctx call, process, (context, faults) =>
    let ((result, e), disk) :=
      (call.method limits (ctx.seen context)).run limits faults process.shared.disk
    ((result, e), ⟨{ process.shared with disk },
      process.log ++ [.input call (ctx.seen context) faults result e]⟩)
  | .output ctx call, process, (context, faults) =>
    let ((result, e), disk) :=
      (call.method limits (ctx.seen context)).run limits faults process.shared.disk
    ((result, e), ⟨{ process.shared with disk },
      process.log ++ [.output call (ctx.seen context) faults result e]⟩)
  | .blocked, process, order => (process.ordered order, process)
  | .observe key, process, _ => ((), ⟨process.shared.observe key, process.log⟩)
  | .clear key, process, _ => ((), ⟨process.shared.clear key, process.log⟩)
  | .report receipt, process, _ => ((), ⟨process.shared, process.log ++ [.reported receipt]⟩)
  | .deliver _ request, process, (result, e) =>
    ((result, e), ⟨process.shared, process.log ++ [.delivered request result e]⟩)

section

variable (ctx : Ctx) (key : Receipt)

/-- The surroundings of the flow, with a journal that has the limits. -/
def surroundings (limits : Limits) : Surroundings Request Request.Answer Process where
  Choice := Request.Choice
  perform := Process.perform limits

/-- The rule by which nothing fails: the clock stands at `now`, no context is cancelled, and the
sender returns `delivery`. -/
def Request.calm (now : Time) (delivery : DeliveryResult) : (request : Request) → request.Choice
  | .now => now
  | .lookup .. => ({}, false)
  | .input .. => ({}, {})
  | .output .. => ({}, {})
  | .blocked => ([] : List Receipt)
  | .observe _ => ()
  | .clear _ => ()
  | .report _ => ()
  | .deliver .. => (delivery, none)

/-- A method of the flow. -/
abbrev Method := Program Request Request.Answer

/-- A run of a method. -/
abbrev Runs {α : Type} (limits : Limits) (method : Method α) (process : Process) (a : α)
    (process' : Process) : Prop :=
  Program.Runs (surroundings limits) method process a process'

/-! ## The requests as methods -/

/-- `flow.now()`. -/
def callNow : Method Time := request Request.now

/-- `acceptedinput.Lookup`. -/
def callLookup : Method (Except Err (Input × List Input)) := request (Request.lookup ctx key)

/-- An input method of the journal. -/
def callInput (call : InputCall) : Method (Input × Option Err) := request (Request.input ctx call)

/-- An output method of the journal. -/
def callOutput (call : OutputCall) : Method (Output × Option Err) :=
  request (Request.output ctx call)

/-- The keys of the fence's map. -/
def callBlocked : Method (List Receipt) := request Request.blocked

/-- `Observe` of the fence. -/
def callObserve : Method Unit := request (Request.observe key)

/-- `clear` of the fence. -/
def callClear : Method Unit := request (Request.clear key)

/-- `flow.sender.Deliver`. -/
def callDeliver (request : ProviderOutput) : Method (DeliveryResult × Option Err) :=
  Program.request (Request.deliver ctx request)

end

/-! ## The log and the file -/

/-- The step of the journal that an entry stands for. -/
def Done.event : Done → Option Event
  | .input call ctx faults _ _ => some ⟨call.op ctx, faults⟩
  | .output call ctx faults _ _ => some ⟨call.op ctx, faults⟩
  | .reported _ => none
  | .delivered .. => none

/-- The steps of the journal in a log. -/
def events (log : List Done) : List Event := log.filterMap Done.event

@[simp]
theorem events_append (log later : List Done) :
    events (log ++ later) = events log ++ events later :=
  List.filterMap_append

/-- A run adds to the log, and changes the file by the steps that it adds. -/
structure Process.Extends (limits : Limits) (process process' : Process) (done : List Done) :
    Prop where
  /-- What the run adds. -/
  log : process'.log = process.log ++ done
  /-- The file after it. -/
  disk : process'.shared.disk = run limits process.shared.disk (events done)

variable {limits : Limits} {process process1 process' : Process} {done later : List Done}

theorem Process.Extends.refl (h : process'.log = process.log)
    (hdisk : process'.shared.disk = process.shared.disk) :
    Process.Extends limits process process' [] :=
  ⟨by rw [h, append_nil], hdisk⟩

theorem Process.Extends.trans (h : Process.Extends limits process process1 done)
    (h1 : Process.Extends limits process1 process' later) :
    Process.Extends limits process process' (done ++ later) := by
  constructor
  · rw [h1.log, h.log, append_assoc]
  · rw [h1.disk, h.disk, events_append, run_append]

/-- A run adds entries of one kind. -/
def Process.Adds (limits : Limits) (P : Done → Prop) (process process' : Process) : Prop :=
  ∃ done, Process.Extends limits process process' done ∧ ∀ entry ∈ done, P entry

variable {P : Done → Prop}

theorem Process.Adds.none (h : process'.log = process.log)
    (hdisk : process'.shared.disk = process.shared.disk) : Process.Adds limits P process process' :=
  ⟨[], .refl h hdisk, by simp⟩

theorem Process.Adds.one {entry : Done} (h : Process.Extends limits process process' [entry])
    (hP : P entry) : Process.Adds limits P process process' :=
  ⟨[entry], h, by simpa using hP⟩

theorem Process.Adds.trans (h : Process.Adds limits P process process1)
    (h1 : Process.Adds limits P process1 process') : Process.Adds limits P process process' := by
  obtain ⟨done, hext, hdone⟩ := h
  obtain ⟨later, hext1, hlater⟩ := h1
  refine ⟨done ++ later, hext.trans hext1, fun entry hentry => ?_⟩
  exact (mem_append.mp hentry).elim (hdone entry) (hlater entry)

/-- The requests that only add entries of one kind. -/
def Request.Adds (P : Done → Prop) : Request → Prop
  | .input _ call => ∀ context faults result error, P (.input call context faults result error)
  | .output _ call => ∀ context faults result error, P (.output call context faults result error)
  | .report receipt => P (.reported receipt)
  | .deliver _ request => ∀ result error, P (.delivered request result error)
  | .now | .lookup .. | .blocked | .observe _ | .clear _ => True

/-- A method that asks only such requests adds only such entries. -/
theorem Process.Adds.of_asks {α : Type} {method : Method α} {a : α}
    (h : Runs limits method process a process') (hasks : method.Asks (Request.Adds P)) :
    Process.Adds limits P process process' := by
  refine h.related (fun _ => .none rfl rfl) .trans (fun request process choice hrequest => ?_) hasks
  cases request with
  | now | lookup | blocked | observe | clear => exact .none rfl rfl
  | input ctx call | output ctx call =>
    obtain ⟨context, faults⟩ := choice
    exact .one ⟨rfl, step_of_forget (call.forget limits _)⟩ (hrequest _ _ _ _)
  | report receipt => exact .one ⟨rfl, rfl⟩ hrequest
  | deliver ctx request =>
    obtain ⟨result, error⟩ := choice
    exact .one ⟨rfl, rfl⟩ (hrequest _ _)

/-! ## What a request adds -/

/-- The clock adds nothing. -/
theorem runs_callNow {time : Time} (h : Runs limits callNow process time process') :
    process' = process := by
  obtain ⟨c, hc⟩ := runs_request.mp h
  cases hc
  rfl

variable {ctx : Ctx} {key : Receipt}

variable {error : Option Err}

/-- A call of the journal for an output runs its method and is logged. -/
theorem runs_callOutput {call : OutputCall} {result : Output}
    (h : Runs limits (callOutput ctx call) process (result, error) process') :
    ∃ context faults, Process.Extends limits process process'
        [.output call (ctx.seen context) faults result error] ∧
      (call.method limits (ctx.seen context)).run limits faults process.shared.disk =
        ((result, error), process'.shared.disk) := by
  obtain ⟨⟨context, faults⟩, hc⟩ := runs_request.mp h
  cases hc
  exact ⟨context, faults, ⟨rfl, step_of_forget (call.forget limits _)⟩, rfl⟩

variable {u : Unit}

theorem runs_callDeliver {request : ProviderOutput} {result : DeliveryResult}
    (h : Runs limits (callDeliver ctx request) process (result, error) process') :
    Process.Extends limits process process' [.delivered request result error] := by
  obtain ⟨⟨result', error'⟩, hc⟩ := runs_request.mp h
  cases hc
  exact ⟨rfl, rfl⟩

end Bria.DurableFlow
