import Bria.NodeLink.Processor

/-!
# The two parties of a coordinator transfer

`Source` and `Target` of `coordinatortransfer/transfer.go`. A party has its record in memory and in
a file; a record that was never written is none. What a call does not compute is an argument of it:
the clock, the context, the pairing registry, how its write ends, what the state store answers. The
transferred snapshot is any type with a digest and a copy through JSON (`Bundle`).
-/

namespace Bria.CoordinatorTransfer

open Go Computer NodeLink

/-! ## Values -/

/-- `TelegramScope`. -/
structure TelegramScope where
  (botID ownerUserID privateChatID : Int)
  deriving DecidableEq

/-- What the transfer reads of a `coordinatorbundle.Bundle`. -/
class Bundle (S : Type) where
  /-- `Digest`. -/
  digest : S → Except Err GoString
  /-- `cloneSnapshot`: the snapshot encoded and decoded. -/
  clone : S → S
  /-- The field `TelegramScope`. -/
  telegramScope : S → TelegramScope
  /-- The field `CallbackVerificationKeyID`. -/
  callbackVerificationKeyID : S → GoString

/-- `Phase`, without the empty one, which only a record that was never written has. -/
inductive Phase where
  | prepared
  | staged
  | committed
  | activated
  | finalized
  | aborted
  deriving DecidableEq

/-- `Request`. -/
structure Request (S : Type) where
  (id targetID targetFingerprint : GoString)
  snapshot : S

/-- `LiveReceipt`. -/
structure LiveReceipt where
  term : CoordinatorTerm
  identity : ChannelIdentity
  readinessID : GoString
  protocolVersion : Nat
  stateDigest : GoString
  (telegramReady stateStorageReady : Bool)
  telegramScope : TelegramScope
  callbackVerificationKeyID : GoString

/-- `Offer`. The fields `From` and `To` are `source` and `target`. -/
structure Offer (S : Type) where
  id : GoString
  (source target : CoordinatorTerm)
  (targetFingerprint stateDigest : GoString)
  quiesceUntil : Time
  snapshot : S
  deriving DecidableEq

/-- `StageReceipt`. -/
structure StageReceipt where
  (id targetID stateDigest : GoString)
  deriving DecidableEq

/-- `AbortReceipt`. -/
structure AbortReceipt where
  (id targetID stateDigest : GoString)
  term : CoordinatorTerm
  identity : ChannelIdentity
  deriving DecidableEq

/-- `Activation`. -/
structure Activation where
  id : GoString
  term : CoordinatorTerm
  deriving DecidableEq

/-- `SnapshotReceipt`. -/
structure SnapshotReceipt where
  (transferID digest : GoString)
  deriving DecidableEq

/-- `transferRecord`. Its version is always one, and its role is that of the party whose file it is
in. -/
structure Record (S : Type) where
  phase : Phase
  offer : Offer S

/-! ## Checks -/

/-- `time.Second`. -/
def second : Int := 1000000000

/-- `time.Minute`. -/
def minute : Int := 60000000000

/-- The characters of an id. -/
def idCharacter (b : UInt8) : Bool :=
  0x61 ≤ b && b ≤ 0x7A || 0x41 ≤ b && b ≤ 0x5A || 0x30 ≤ b && b ≤ 0x39 || b = 0x2D || b = 0x5F ||
    b = 0x2E

/-- `validID`. A byte of a longer UTF-8 sequence is not one of the characters, nor is the sequence. -/
def validID (id : GoString) : Bool := 1 ≤ id.length && id.length ≤ 128 && id.all idCharacter

/-- `generation + 1` on a `uint64`. -/
def nextGeneration (generation : Nat) : Nat := (generation + 1) % 0x10000000000000000

variable {S : Type} [Bundle S]

/-- `validOffer`. -/
def validOffer (offer : Offer S) : Bool :=
  validID offer.id && offer.source.generation ≠ 0 && offer.target.generation ≠ 0 &&
    offer.source.coordinatorID ≠ offer.target.coordinatorID && !offer.quiesceUntil.isZero &&
    offer.quiesceUntil.nanos % second = 0 &&
    (match Bundle.digest offer.snapshot with
      | .ok digest => offer.stateDigest = digest
      | .error _ => false) &&
    !blank offer.targetFingerprint

/-- `sameOffer`: the offers agree but for their snapshots. -/
def sameOffer (left right : Offer S) : Bool :=
  left.id = right.id && left.source = right.source && left.target = right.target &&
    left.targetFingerprint = right.targetFingerprint && left.stateDigest = right.stateDigest &&
    left.quiesceUntil = right.quiesceUntil

/-- `cloneOffer`. -/
def cloneOffer (offer : Offer S) : Offer S := { offer with snapshot := Bundle.clone offer.snapshot }

/-- An offer as it is read back from a file. -/
def Offer.reread (offer : Offer S) : Offer S where
  id := jsonText offer.id
  source := offer.source.reread
  target := offer.target.reread
  targetFingerprint := jsonText offer.targetFingerprint
  stateDigest := jsonText offer.stateDigest
  quiesceUntil := offer.quiesceUntil
  snapshot := Bundle.clone offer.snapshot

/-! ## Records -/

/-- The record of a party. A party that could not be opened is not up: its methods fail. -/
structure Party (S : Type) where
  up : Bool
  (memory file : Option (Record S))

/-- `writeRecord`, after which memory follows if it succeeded. -/
def Party.write (party : Party S) (write : Write) (record : Record S) :
    Except Err Unit × Party S :=
  if !validOffer record.offer then (.error (err .invalidTransfer), party)
  else match write with
    | .refused => (.error (.message "write transfer record"), party)
    | .late => (.error (.message "write transfer record"), { party with file := some record })
    | .done => (.ok (), { party with memory := some record, file := some record })

/-- `readRecord`. -/
def readRecord (file : Option (Record S)) : Except Err (Option (Record S)) :=
  match file with
  | none => .ok none
  | some record =>
    if validOffer record.offer.reread then .ok (some { record with offer := record.offer.reread })
    else .error (err .invalidTransfer)

/-- A party is opened with the record of its file if the record passes a check. -/
def Party.reopen (party : Party S) (check : Record S → Bool) : Party S :=
  match readRecord party.file with
  | .ok none => { party with up := true, memory := none }
  | .ok (some record) =>
    if check record then { party with up := true, memory := some record }
    else { party with up := false }
  | .error _ => { party with up := false }

/-- What a call finds outside: whether its context is cancelled, the clock, and how its write of the
record ends. -/
structure Call where
  cancelled : Bool := false
  now : Time
  write : Write := .done

/-! ## The source -/

/-- How a source is opened, with the checks of `OpenSourceWithTiming`. -/
structure SourceConfig where
  term : CoordinatorTerm
  quiesce : Int
  atLeast : second ≤ quiesce
  atMost : quiesce ≤ minute
  whole : quiesce % second = 0
  generation : term.generation ≠ 0
  /-- The generation is a `uint64`. -/
  bounded : term.generation < 0x10000000000000000
  named : blank term.coordinatorID = false

variable (cfg : SourceConfig) (party : Party S) (call : Call)

/-- Whether a readiness receipt is for the request. -/
def LiveReceipt.matches (live : LiveReceipt) (term : CoordinatorTerm) (request : Request S)
    (digest : GoString) : Bool :=
  live.term = term && validID live.readinessID && live.protocolVersion = NodeLink.protocolVersion &&
    live.stateDigest = digest && live.telegramReady && live.stateStorageReady &&
    live.telegramScope = Bundle.telegramScope request.snapshot &&
    live.callbackVerificationKeyID = Bundle.callbackVerificationKeyID request.snapshot &&
    live.identity.mutuallyAuthenticated &&
    live.identity.localComputerID = term.coordinatorID &&
    live.identity.peerComputerID = request.targetID &&
    live.identity.executorComputerID = request.targetID &&
    live.identity.peerCertificateSHA256 = request.targetFingerprint

/-- The offer that `Prepare` makes. -/
def SourceConfig.offer (request : Request S) (digest : GoString) (now : Time) : Offer S where
  id := request.id
  source := cfg.term
  target :=
    { coordinatorID := request.targetID, generation := nextGeneration cfg.term.generation }
  targetFingerprint := request.targetFingerprint
  stateDigest := digest
  quiesceUntil := ⟨now.nanos - now.nanos % second + cfg.quiesce⟩
  snapshot := Bundle.clone request.snapshot

/-- Whether a prepared offer is the one that a request asks for, and still stands. -/
def Offer.answers (offer : Offer S) (request : Request S) (digest : GoString) (now : Time) : Bool :=
  offer.id = request.id && offer.target.coordinatorID = request.targetID &&
    offer.targetFingerprint = request.targetFingerprint && offer.stateDigest = digest &&
    now.nanos < offer.quiesceUntil.nanos

/-- A result and the party afterwards. -/
abbrev Outcome (S α : Type) : Type := Except Err α × Party S

/-- The result of a write. -/
def Party.writeThen {α : Type} (party : Party S) (write : Write) (record : Record S) (result : α) :
    Outcome S α :=
  ((party.write write record).1.map fun _ => result, (party.write write record).2)

/-- `Source.Prepare` after its checks. -/
def prepareOffer (request : Request S) (digest : GoString) (party : Party S) :
    Outcome S (Offer S) :=
  let fresh := cfg.offer request digest call.now
  match party.memory with
  | some ⟨.prepared, offer⟩ =>
    if offer.answers request digest call.now then (.ok (cloneOffer offer), party)
    else (.error (err .transferPhase), party)
  | none | some ⟨.aborted, _⟩ => party.writeThen call.write ⟨.prepared, fresh⟩ (cloneOffer fresh)
  | _ => (.error (err .transferPhase), party)

/-- `Source.Prepare`. -/
def prepare (authorized : Bool) (request : Request S) (live : LiveReceipt) (party : Party S) :
    Outcome S (Offer S) :=
  if !party.up || call.cancelled || !validID request.id ||
      request.targetID = cfg.term.coordinatorID || !authorized then
    (.error (err .invalidTransfer), party)
  else match Bundle.digest request.snapshot with
    | .error e => (.error e, party)
    | .ok digest =>
      if live.matches cfg.term request digest then prepareOffer cfg call request digest party
      else (.error (err .invalidTransfer), party)

/-- Whether a stage receipt is for an offer. -/
def StageReceipt.matches (receipt : StageReceipt) (offer : Offer S) : Bool :=
  receipt.id = offer.id && receipt.targetID = offer.target.coordinatorID &&
    receipt.stateDigest = offer.stateDigest

/-- `Source.Commit`: the offer of the commit. -/
def commit (receipt : StageReceipt) (party : Party S) : Outcome S (Offer S) :=
  if !party.up || call.cancelled then (.error (err .invalidTransfer), party)
  else match party.memory with
    | none => (.error (err .transferPhase), party)
    | some ⟨phase, offer⟩ =>
      if !receipt.matches offer then (.error (err .transferPhase), party)
      else match phase with
        | .committed | .finalized => (.ok (cloneOffer offer), party)
        | .prepared =>
          if call.now.nanos < offer.quiesceUntil.nanos then
            party.writeThen call.write ⟨.committed, offer⟩ (cloneOffer offer)
          else (.error (err .quiesceExpired), party)
        | _ => (.error (err .transferPhase), party)

/-- Whether an abort receipt releases an offer. -/
def AbortReceipt.matches (receipt : AbortReceipt) (offer : Offer S) : Bool :=
  receipt.id = offer.id && receipt.targetID = offer.target.coordinatorID &&
    receipt.stateDigest = offer.stateDigest && receipt.term = offer.source &&
    receipt.identity.mutuallyAuthenticated &&
    receipt.identity.localComputerID = offer.source.coordinatorID &&
    receipt.identity.peerComputerID = offer.target.coordinatorID &&
    receipt.identity.executorComputerID = offer.target.coordinatorID &&
    receipt.identity.peerCertificateSHA256 = offer.targetFingerprint

/-- `Source.Abort`. `fenceValid` is whether the fence of the source holds the offer's term. -/
def abort (receipt : AbortReceipt) (fenceValid : Bool) (party : Party S) : Outcome S Unit :=
  if !party.up || call.cancelled then (.error (err .invalidTransfer), party)
  else match party.memory with
    | some ⟨.prepared, offer⟩ =>
      if receipt.matches offer && fenceValid then party.writeThen call.write ⟨.aborted, offer⟩ ()
      else (.error (err .transferPhase), party)
    | _ => (.error (err .transferPhase), party)

/-- `Source.ReclaimExpired`. -/
def reclaimExpired (fenceValid : Bool) (party : Party S) : Outcome S Unit :=
  if !party.up || call.cancelled then (.error (err .invalidTransfer), party)
  else match party.memory with
    | some ⟨.prepared, offer⟩ =>
      if call.now.nanos < offer.quiesceUntil.nanos || !fenceValid then
        (.error (err .transferPhase), party)
      else party.writeThen call.write ⟨.aborted, offer⟩ ()
    | _ => (.error (err .transferPhase), party)

/-- `Source.Finalize`. -/
def finalize (activation : Activation) (party : Party S) : Outcome S Unit :=
  if !party.up || call.cancelled then (.error (err .invalidTransfer), party)
  else match party.memory with
    | none => (.error (err .transferPhase), party)
    | some ⟨phase, offer⟩ =>
      if activation.id ≠ offer.id || activation.term ≠ offer.target then
        (.error (err .transferPhase), party)
      else match phase with
        | .finalized => (.ok (), party)
        | .committed => party.writeThen call.write ⟨.finalized, offer⟩ ()
        | _ => (.error (err .transferPhase), party)

/-- `OpenSource` on the file that is there. -/
def reopenSource : Party S := party.reopen fun record => record.offer.source = cfg.term

/-- `Source.CanCoordinate`. -/
def sourceCanCoordinate : Bool :=
  party.up && match party.memory with
    | none | some ⟨.aborted, _⟩ => true
    | _ => false

/-! ## The target -/

/-- The computer of a target and its certificate, with the checks of `OpenTargetWithClock`. -/
structure TargetKey where
  (id fingerprint : GoString)
  named : blank id = false
  certified : blank fingerprint = false
  deriving DecidableEq

variable (key : TargetKey)

/-- A target has a fence besides its record. -/
structure Target (S : Type) where
  party : Party S
  fence : FenceFile

/-- A result and the target afterwards. -/
abbrev TargetOutcome (S α : Type) : Type := Except Err α × Target S

/-- The stage receipt of an offer. -/
def Offer.stageReceipt (offer : Offer S) (key : TargetKey) : StageReceipt :=
  { id := offer.id, targetID := key.id, stateDigest := offer.stateDigest }

/-- A write of the target's record. -/
def Target.writeThen {α : Type} (target : Target S) (write : Write) (record : Record S)
    (result : α) : TargetOutcome S α :=
  ((target.party.writeThen write record result).1,
    { target with party := (target.party.writeThen write record result).2 })

/-- `Target.Stage` of an offer that is not staged already. -/
def stageFresh (offer : Offer S) (staged : Except Err SnapshotReceipt) (target : Target S) :
    TargetOutcome S StageReceipt :=
  match target.fence.validate offer.source, staged with
  | .ok _, .ok receipt =>
    if receipt.transferID ≠ offer.id || receipt.digest ≠ offer.stateDigest then
      (.error (err .invalidTransfer), target)
    else target.writeThen call.write ⟨.staged, cloneOffer offer⟩ (offer.stageReceipt key)
  | _, _ => (.error (err .invalidTransfer), target)

/-- `Target.Stage`. `staged` is what the state store answers to `Stage`. -/
def stage (offer : Offer S) (staged : Except Err SnapshotReceipt) (target : Target S) :
    TargetOutcome S StageReceipt :=
  if !target.party.up || call.cancelled || !validOffer offer ||
      offer.target.coordinatorID ≠ key.id || offer.targetFingerprint ≠ key.fingerprint ||
      offer.target.generation ≠ nextGeneration offer.source.generation ||
      offer.quiesceUntil.nanos - call.now.nanos ≤ 0 ||
      minute < offer.quiesceUntil.nanos - call.now.nanos then
    (.error (err .invalidTransfer), target)
  else match target.party.memory with
    | some ⟨.staged, current⟩ =>
      if sameOffer current offer then (.ok (offer.stageReceipt key), target)
      else (.error (err .transferPhase), target)
    | none | some ⟨.aborted, _⟩ => stageFresh call key offer staged target
    | _ => (.error (err .transferPhase), target)

/-- Whether the active state is that of the offer: what the store's `Read` answers. -/
def activeIs (offer : Offer S) (read : Except Err (S × SnapshotReceipt)) : Bool :=
  match read with
  | .error _ => false
  | .ok (snapshot, receipt) =>
    match Bundle.digest snapshot with
    | .error _ => false
    | .ok digest => receipt.transferID = offer.id && receipt.digest = offer.stateDigest &&
        digest = offer.stateDigest

/-- What the state store and the write of the fence do in `Target.Activate`. -/
structure Activating (S : Type) where
  apply : Option Err := none
  read : Except Err (S × SnapshotReceipt)
  fenceWrite : Write := .done

/-- `Target.Activate` of a staged offer. -/
def activateStaged (outside : Activating S) (current offer : Offer S) (target : Target S) :
    TargetOutcome S Activation :=
  if (target.fence.validate offer.source).toBool || (target.fence.validate offer.target).toBool then
    match outside.apply with
    | some e => (.error e, target)
    | none =>
      if activeIs offer outside.read then
        match target.fence.accept outside.fenceWrite offer.target with
        | (.error e, fence) => (.error e, { target with fence })
        | (.ok _, fence) =>
          ({ target with fence } : Target S).writeThen call.write ⟨.activated, current⟩
            { id := current.id, term := current.target }
      else (.error (err .invalidTransfer), target)
  else (.error (err .invalidTransfer), target)

/-- `Target.Activate` with the offer of a commit. -/
def activate (offer : Offer S) (outside : Activating S) (target : Target S) :
    TargetOutcome S Activation :=
  if !target.party.up || call.cancelled then (.error (err .invalidTransfer), target)
  else match target.party.memory with
    | none => (.error (err .transferPhase), target)
    | some ⟨phase, current⟩ =>
      if !sameOffer current offer then (.error (err .transferPhase), target)
      else match phase with
        | .activated =>
          if (target.fence.validate current.target).toBool && activeIs offer outside.read then
            (.ok { id := current.id, term := current.target }, target)
          else (.error (err .invalidTransfer), target)
        | .staged => activateStaged call outside current offer target
        | _ => (.error (err .transferPhase), target)

/-- The abort receipt of an offer. -/
def Offer.abortReceipt (offer : Offer S) (key : TargetKey) (identity : ChannelIdentity) :
    AbortReceipt :=
  { id := offer.id, targetID := key.id, stateDigest := offer.stateDigest, term := offer.source
    identity }

/-- `Target.Abort`. -/
def abortTarget (offer : Offer S) (identity : ChannelIdentity) (target : Target S) :
    TargetOutcome S AbortReceipt :=
  if !target.party.up || call.cancelled || !validOffer offer ||
      offer.target.coordinatorID ≠ key.id || offer.targetFingerprint ≠ key.fingerprint ||
      !identity.mutuallyAuthenticated ||
      identity.localComputerID ≠ offer.source.coordinatorID || identity.peerComputerID ≠ key.id ||
      identity.executorComputerID ≠ key.id || identity.peerCertificateSHA256 ≠ key.fingerprint then
    (.error (err .invalidTransfer), target)
  else if !(target.fence.validate offer.source).toBool then (.error (err .transferPhase), target)
  else match target.party.memory with
    | some ⟨.aborted, current⟩ =>
      if sameOffer current offer then (.ok (offer.abortReceipt key identity), target)
      else (.error (err .transferPhase), target)
    | some ⟨.staged, current⟩ =>
      if sameOffer current offer then
        target.writeThen call.write ⟨.aborted, cloneOffer offer⟩ (offer.abortReceipt key identity)
      else (.error (err .transferPhase), target)
    | none =>
      target.writeThen call.write ⟨.aborted, cloneOffer offer⟩ (offer.abortReceipt key identity)
    | _ => (.error (err .transferPhase), target)

/-- `OpenTarget` on the files that are there. -/
def reopenTarget (target : Target S) : Target S :=
  match target.fence.reopen with
  | .error _ => { target with party := { target.party with up := false } }
  | .ok fence =>
    { party := target.party.reopen fun record =>
        record.offer.target.coordinatorID = key.id &&
          record.offer.targetFingerprint = key.fingerprint
      fence }

/-- `Target.CanCoordinate`. -/
def targetCanCoordinate (target : Target S) : Bool :=
  target.party.up && match target.party.memory with
    | some ⟨.activated, _⟩ => true
    | _ => false

end Bria.CoordinatorTransfer
