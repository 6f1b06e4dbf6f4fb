import Mathlib.Logic.Function.Basic
import Bria.CoordinatorTransfer.Parties

/-!
# A source and its targets

The system of one source and any number of targets, which exchange messages over a network that may
delay, lose and repeat them: a message that was sent once can be delivered at any later step, any
number of times, or never. Every step is one method of one party, with its own clock and its own
failures. A process that ends and starts again is a step that reads the files; a process that ends
in the middle of a method is one whose write failed or came late, and then starts again.
-/

namespace Bria.CoordinatorTransfer

open Go Computer NodeLink

variable {S : Type}

/-- The parties, and every message that was ever sent. A commit is the offer in it. -/
structure System (S : Type) where
  source : Party S
  target : TargetKey → Target S
  offers : List (Offer S) := []
  receipts : List StageReceipt := []
  aborts : List AbortReceipt := []
  commits : List (Offer S) := []
  activations : List Activation := []

/-- A step of the system. -/
inductive Step (S : Type) where
  | prepare (call : Call) (authorized : Bool) (request : Request S) (live : LiveReceipt)
  | commit (call : Call) (receipt : StageReceipt)
  | abort (call : Call) (receipt : AbortReceipt) (fenceValid : Bool)
  | reclaimExpired (call : Call) (fenceValid : Bool)
  | finalize (call : Call) (activation : Activation)
  | reopenSource
  | stage (key : TargetKey) (call : Call) (offer : Offer S) (staged : Except Err SnapshotReceipt)
  | activate (key : TargetKey) (call : Call) (offer : Offer S) (outside : Activating S)
  | abortTarget (key : TargetKey) (call : Call) (offer : Offer S) (identity : ChannelIdentity)
  | reopenTarget (key : TargetKey)

/-- The message of a call that succeeded is sent. -/
def sends {α : Type} (result : Except Err α) (sent : List α) : List α :=
  match result with
  | .ok message => message :: sent
  | .error _ => sent

variable [Bundle S] [DecidableEq S]

/-- The state after a step, none if its message was never sent. -/
def System.step (cfg : SourceConfig) : Step S → System S → Option (System S)
  | .prepare call authorized request live, s =>
    let done := prepare cfg call authorized request live s.source
    some { s with source := done.2, offers := sends done.1 s.offers }
  | .commit call receipt, s =>
    let done := commit call receipt s.source
    if receipt ∈ s.receipts then some { s with source := done.2, commits := sends done.1 s.commits }
    else none
  | .abort call receipt fenceValid, s =>
    if receipt ∈ s.aborts then some { s with source := (abort call receipt fenceValid s.source).2 }
    else none
  | .reclaimExpired call fenceValid, s =>
    some { s with source := (reclaimExpired call fenceValid s.source).2 }
  | .finalize call activation, s =>
    if activation ∈ s.activations then
      some { s with source := (finalize call activation s.source).2 }
    else none
  | .reopenSource, s => some { s with source := CoordinatorTransfer.reopenSource cfg s.source }
  | .stage key call offer staged, s =>
    let done := stage call key offer staged (s.target key)
    if offer ∈ s.offers then
      some { s with
        target := Function.update s.target key done.2
        receipts := sends done.1 s.receipts }
    else none
  | .activate key call offer outside, s =>
    let done := activate call offer outside (s.target key)
    if offer ∈ s.commits then
      some { s with
        target := Function.update s.target key done.2
        activations := sends done.1 s.activations }
    else none
  | .abortTarget key call offer identity, s =>
    let done := abortTarget call key offer identity (s.target key)
    if offer ∈ s.offers then
      some { s with
        target := Function.update s.target key done.2
        aborts := sends done.1 s.aborts }
    else none
  | .reopenTarget key, s =>
    some { s with target :=
      Function.update s.target key (CoordinatorTransfer.reopenTarget key (s.target key)) }

/-- The system before the first transfer: no party has a record, and each target has a fence. -/
def System.initial (fence : TargetKey → FenceFile) : System S where
  source := { up := true, memory := none, file := none }
  target := fun key => { party := { up := true, memory := none, file := none }, fence := fence key }

end Bria.CoordinatorTransfer
