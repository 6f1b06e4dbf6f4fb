import Bria.Base.Machine
import Bria.Base.Stored
import Bria.Errors
import Bria.Go.Map

/-!
# The ledger of remote operations

`FileOperationLedger` of `nodelink/file_store.go`. Before an operation is applied, it is written to
the file as pending; afterwards it is written as applied, or removed if it failed. A ledger that is
opened on a file with a pending operation does not know how the operation ended, and refuses it
until an operator resolves it.

Every call holds the mutex to its end, so calls do not overlap. A process that ends in the middle of
a call is a call whose next write failed or came late, or whose effect was interrupted, and then an
opening of the file.
-/

namespace Bria.NodeLink

open Go Machine

/-- `ledgerPhase`. -/
inductive LedgerPhase where
  | pending
  | applied
  deriving DecidableEq

/-- `Operation`. -/
structure Operation where
  (id digest : GoString)

/-- `ledgerEntry`, without its id, which is its key. -/
structure LedgerEntry where
  digest : GoString
  phase : LedgerPhase

/-- The entries of a ledger. -/
abbrev Entries := Map GoString LedgerEntry

/-- `OperationResolution`. -/
inductive OperationResolution where
  | applied
  | notApplied
  deriving DecidableEq

/-! ## The file -/

/-- One entry as `OpenFileOperationLedger` reads it: text that is not UTF-8 was replaced when it was
written. -/
def readEntry (entries : Entries) (id : GoString) (entry : LedgerEntry) : Except Err Entries := do
  refuse (blank (jsonText id) || blank (jsonText entry.digest)) (err .invalidPersistentState)
  refuse (entries.lookup (jsonText id)).isSome (err .invalidPersistentState)
  .ok (entries.insert (jsonText id) { entry with digest := jsonText entry.digest })

/-- `OpenFileOperationLedger` on the entries of the file. No file is a file without entries. -/
def readEntries (file : Entries) : Except Err Entries :=
  file.entries.foldlM (fun entries row => readEntry entries row.1 row.2) ∅

/-- A ledger. One that could not be opened is not up. -/
structure Ledger where
  up : Bool
  stored : Stored Entries

namespace Ledger

/-- The entries in memory. -/
def entries (ledger : Ledger) : Entries := ledger.stored.memory

/-- The ledger with other entries in memory. -/
def withEntries (ledger : Ledger) (entries : Entries) : Ledger :=
  { ledger with stored := { ledger.stored with memory := entries } }

/-- `persist`: the entries in memory are written. -/
def persist (ledger : Ledger) : Write → Option Err × Ledger
  | .refused => (some (.message "persist ledger"), ledger)
  | .late =>
    (some (.message "persist ledger"),
      { ledger with stored := { ledger.stored with file := ledger.stored.memory } })
  | .done => (none, { ledger with stored := { ledger.stored with file := ledger.stored.memory } })

/-- `OpenFileOperationLedger`. -/
def reopen (ledger : Ledger) : Ledger :=
  match readEntries ledger.stored.file with
  | .ok entries => { ledger.withEntries entries with up := true }
  | .error _ => { ledger with up := false }

end Ledger

/-! ## `ApplyOnce` -/

/-- How the apply function of a call ends. -/
inductive Effect where
  | completed
  | failed (e : Err)
  /-- It panics, or the process ends. -/
  | interrupted

/-- What a call of `ApplyOnce` finds outside: its context, how its writes end, and how the apply
function ends if it is called. -/
structure Applying where
  cancelled : Option Err := none
  first : Write := .done
  effect : Effect := .completed
  second : Write := .done

/-- What the apply function and the file saw of a call. -/
inductive Event where
  /-- The apply function was called for the operation. -/
  | ran (operation : Operation) (effect : Effect)
  /-- A resolution of the operation was written. -/
  | resolved (operation : Operation) (resolution : OperationResolution)

/-- The answer of a call, none if it did not return, what happened, and the ledger afterwards. -/
structure Answer (α : Type) where
  result : Option (Except Err α)
  events : List Event := []
  ledger : Ledger

/-- `ApplyOnce` once the operation is written as pending. -/
def applyPending (operation : Operation) (call : Applying) (ledger : Ledger) : Answer Bool :=
  match call.effect with
  | .interrupted => { result := none, events := [.ran operation .interrupted], ledger }
  | .failed e =>
    let removed := ledger.withEntries (ledger.entries.erase operation.id)
    { result := some (.error (match removed.persist call.second with
        | (some persistErr, _) => .join e persistErr
        | (none, _) => e))
      events := [.ran operation (.failed e)]
      ledger := (removed.persist call.second).2 }
  | .completed =>
    let applied := ledger.withEntries (ledger.entries.insert operation.id
      { digest := operation.digest, phase := .applied })
    match applied.persist call.second with
    | (some e, written) =>
      { result := some (.error (.join (err .operationInDoubt) e))
        events := [.ran operation .completed]
        ledger := written.withEntries (written.entries.insert operation.id
          { digest := operation.digest, phase := .pending }) }
    | (none, written) =>
      { result := some (.ok false), events := [.ran operation .completed], ledger := written }

/-- `ApplyOnce`: whether the operation is a duplicate. -/
def applyOnce (operation : Operation) (call : Applying) (ledger : Ledger) : Answer Bool :=
  if !ledger.up || blank operation.id || blank operation.digest then
    { result := some (.error (err .invalidPersistentState)), ledger }
  else match call.cancelled with
    | some e => { result := some (.error e), ledger }
    | none =>
      match ledger.entries.lookup operation.id with
      | some entry =>
        if entry.digest ≠ operation.digest then
          { result := some (.error (err .operationConflict)), ledger }
        else if entry.phase = .pending then
          { result := some (.error (err .operationInDoubt)), ledger }
        else { result := some (.ok true), ledger }
      | none =>
        let begun := ledger.withEntries (ledger.entries.insert operation.id
          { digest := operation.digest, phase := .pending })
        match begun.persist call.first with
        | (some e, written) =>
          { result := some (.error e)
            ledger := written.withEntries (written.entries.erase operation.id) }
        | (none, written) => applyPending operation call written

/-! ## `Resolve` -/

/-- What a call of `Resolve` finds outside. -/
structure Resolving where
  cancelled : Option Err := none
  write : Write := .done

/-- `Resolve`. -/
def resolve (operation : Operation) (resolution : OperationResolution) (call : Resolving)
    (ledger : Ledger) : Answer Unit :=
  if !ledger.up || blank operation.id || blank operation.digest then
    { result := some (.error (err .invalidPersistentState)), ledger }
  else match call.cancelled with
    | some e => { result := some (.error e), ledger }
    | none =>
      match ledger.entries.lookup operation.id with
      | none => { result := some (.error (err .invalidPersistentState)), ledger }
      | some entry =>
        if entry.digest ≠ operation.digest then
          { result := some (.error (err .operationConflict)), ledger }
        else if entry.phase = .applied then
          { result := some (if resolution = .applied then .ok () else
              .error (err .operationConflict)), ledger }
        else
          let next : Entries := match resolution with
            | .applied => ledger.entries.insert operation.id { entry with phase := .applied }
            | .notApplied => ledger.entries.erase operation.id
          let events := if call.write.lands then [.resolved operation resolution] else []
          match (ledger.withEntries next).persist call.write with
          | (some e, written) =>
            { result := some (.error e), events
              ledger := written.withEntries (written.entries.insert operation.id entry) }
          | (none, written) => { result := some (.ok ()), events, ledger := written }

/-! ## Runs -/

/-- A step of a run. -/
inductive LedgerStep where
  | applyOnce (operation : Operation) (call : Applying)
  | resolve (operation : Operation) (resolution : OperationResolution) (call : Resolving)
  | reopen

/-- A ledger and what happened so far, in the order of time. -/
structure Account where
  ledger : Ledger
  events : List Event := []

/-- The account after a call. -/
def Account.answered {α : Type} (account : Account) (answer : Answer α) : Account :=
  { ledger := answer.ledger, events := account.events ++ answer.events }

/-- The account after a step. -/
def Account.step : LedgerStep → Account → Option Account
  | .applyOnce operation call, account =>
    some (account.answered (applyOnce operation call account.ledger))
  | .resolve operation resolution call, account =>
    some (account.answered (resolve operation resolution call account.ledger))
  | .reopen, account => some { account with ledger := account.ledger.reopen }

end Bria.NodeLink
