import Bria.Base.Stored
import Bria.InteractionStore.Operation

/-!
# The interaction store

`FileStore` keeps its operations in memory and in a file, which every change replaces as a whole. A
change is made in memory only when the file was written. When the store is opened, operations that
are confirmed are pruned and the file is written again.

Each method returns what it answers and the store after it; how the write ends is an argument.
-/

namespace Bria.InteractionStore

open Go RuntimeProtocol

/-- The operations by id. -/
abbrev Operations := Map GoString Operation

/-- `FileStore`: the operations in memory and in the file. -/
abbrev FileStore := Stored Operations

/-- The error of a write. -/
def writeError (text : String) : Err := .wrap text (.message "write")

/-! ## Methods -/

variable (w : Write) (operations : Operations) (id : GoString)

section

variable (current next operation : Operation) (store : FileStore)

/-- `Load`. -/
def load : Except Err (Option Operation) := do
  refuse (!saneText id 256) (err .invalidOperation)
  return (store.memory.lookup id).map cloneOperation

/-- `pendingTextOperation`. -/
def pendingText (conversationID : Int) (store : FileStore) : Except Err (Option Operation) := do
  refuse (decide (conversationID ≤ 0)) (err .invalidOperation)
  match store.memory.entries.filter fun e =>
      decide (e.2.conversationID = conversationID) && pendingTextPhase e.2.phase with
  | [] => return none
  | [e] => return some (cloneOperation e.2)
  | _ => .error (err .invalidOperation)

/-- The operation that `Create` writes. -/
def created : Operation := { cloneOperation operation with revision := 1 }

/-- The checks of `Create`. -/
def checkCreate : Except Err Unit := do
  validateOperation (created operation)
  refuse (store.memory.lookup operation.id).isSome (err .operationExists)
  refuse (decide (10000 ≤ store.memory.entries.length)) (err .storeExhausted)

/-- `Create`. -/
def create : Except Err Operation × FileStore :=
  match checkCreate operation store with
  | .error e => (.error e, store)
  | .ok _ =>
    (if w = .done then .ok (created operation) else .error (writeError "persist provider interaction: "),
      store.save w (store.memory.insert operation.id (created operation)))

/-- `hasOtherPendingText`. -/
def hasOtherPendingText : Bool :=
  operations.entries.any fun e => e.1 ≠ id && pendingTextPhase e.2.phase

/-- The operation that `CompareAndSwap` writes. The revision is a `uint64`. -/
def swapped : Operation :=
  { cloneOperation next with
    revision := if current.revision = maxUint64 then 0 else current.revision + 1 }

/-- The checks of `CompareAndSwap` against the operation that it finds. -/
def checkSwap : Except Err Unit := do
  refuse (!sameIdentity current next) (err .immutableIdentity)
  refuse (!validTransition current.phase next.phase) (err .invalidPhaseTransition)
  refuse (next.phase = .waitingText && current.phase ≠ .waitingText &&
    hasOtherPendingText store.memory id) (err .invalidPhaseTransition)
  refuse (current.updatedAt.after next.updatedAt) (err .invalidOperation)
  validateOperation (swapped current next)

end

/-- `CompareAndSwap`. The answer is none if nothing was changed. -/
def compareAndSwap (revision : Nat) (next : Operation) (store : FileStore) :
    Except Err (Option Operation) × FileStore :=
  if !saneText id 256 || revision = 0 || next.id ≠ id then (.error (err .invalidOperation), store)
  else
    match (store.memory.lookup id).filter fun current => current.revision = revision with
    | none => (.ok none, store)
    | some current =>
      match checkSwap id current next store with
      | .error e => (.error e, store)
      | .ok _ =>
        (if w = .done then .ok (some (swapped current next))
          else .error (writeError "persist provider interaction transition: "),
          store.save w (store.memory.insert id (swapped current next)))

/-- `DeleteConfirmed`. -/
def deleteConfirmed (revision : Nat) (store : FileStore) : Except Err Bool × FileStore :=
  if !saneText id 256 || revision = 0 then (.error (err .invalidOperation), store)
  else
    match (store.memory.lookup id).filter fun current => current.revision = revision with
    | none => (.ok false, store)
    | some current =>
      if current.phase ≠ .providerResponseConfirmed then
        (.error (err .invalidPhaseTransition), store)
      else
        (if w = .done then .ok true else .error (writeError "prune confirmed provider interaction: "),
          store.save w (store.memory.erase id))

/-! ## Opening -/

/-- `validateState`, whether it returns nil. -/
def validState : Bool :=
  operations.entries.length ≤ 10000 &&
    (operations.entries.all fun e => e.1 = e.2.id && validOperation e.2) &&
    (operations.entries.filter fun e => pendingTextPhase e.2.phase).length ≤ 1

/-- `pruneConfirmed`. -/
def pruneConfirmed : Operations :=
  operations.update fun _ operation =>
    if operation.phase = .providerResponseConfirmed then none else some operation

/-- `OpenFileStore`: the operations, none if it returns an error, and the file. -/
def openFileStore (file : Operations) : Option Operations × Operations :=
  let operations := file.update fun _ operation => some operation.json
  if !validState operations then (none, file)
  else if operations.entries.any fun e => e.2.phase = .providerResponseConfirmed then
    (if w = .done then some (pruneConfirmed operations) else none,
      if w.lands then pruneConfirmed operations else file)
  else (some operations, file)

/-- The store is opened, perhaps after it could not be opened a few times. -/
inductive Opens : Operations → FileStore → Prop where
  | opened {file file' operations : Operations} (w : Write)
      (h : openFileStore w file = (some operations, file')) : Opens file ⟨operations, file'⟩
  | failed {file file' : Operations} {store : FileStore} (w : Write)
      (h : openFileStore w file = (none, file')) (later : Opens file' store) : Opens file store

end Bria.InteractionStore
