import Bria.Errors

/-!
# Checkpoints, updates and decisions

The values of `coordinator/loop.go` and their validators. A checkpoint has the offset of the next
update, the update that blocks, the last outbound operation, and the recovery control of a prompt.
An `int64` is an `Int`; only the increment of an update id can overflow, and it is written as the
source computes it (`nextID`). A validator whose error has only a text returns the text; the caller
makes an error of it. A keyboard is a slice of slices, and a copy does not tell an empty row from a
nil one, but the comparison of a saved checkpoint does.
-/

namespace Bria.Coordinator

open Go

/-- `math.MaxInt64`. -/
def maxInt64 : Int := 0x7FFFFFFFFFFFFFFF

/-- `id + 1` on an `int64`. -/
def nextID (id : Int) : Int := if id = maxInt64 then -0x8000000000000000 else id + 1

/-! ## Values -/

/-- `UpdateKind`, a string of which the constants are named. -/
inductive UpdateKind where
  /-- The empty string. -/
  | unsupported
  | message
  | callback
  | other (text : GoString)
  deriving DecidableEq

/-- `Update`. The defaults are the zero value. -/
structure Update where
  id : Int := 0
  kind : UpdateKind := .unsupported
  actorID : Int := 0
  conversationID : Int := 0
  conversationKind : GoString := []
  text : GoString := []
  caption : GoString := []
  callbackQueryID : GoString := []
  sourceMessageID : Int := 0
  replyToMessageID : Int := 0
  mediaKind : GoString := []
  mediaFileID : GoString := []
  mediaFileUniqueID : GoString := []
  mediaFileSize : Int := 0
  mediaMIMEType : GoString := []
  mediaDurationSeconds : Int := 0
  mediaWidth : Int := 0
  mediaHeight : Int := 0
  mediaDownloadAllowed : Bool := false
  deriving DecidableEq

/-- `Status`. The defaults are the zero value. -/
structure Status where
  screenSessionID : GoString := []
  conversationID : Int := 0
  text : GoString := []
  richMarkdown : Bool := false
  callbackQueryID : GoString := []
  sourceMessageID : Int := 0
  deriving DecidableEq

/-- `KeyboardButton`. -/
structure KeyboardButton where
  (text callbackData : GoString)
  deriving DecidableEq

/-- `KeyboardMarkup`. -/
abbrev KeyboardMarkup := Slice (Slice KeyboardButton)

/-- `DecisionKind`, a string of which the constants are named. -/
inductive DecisionKind where
  | skip
  | status
  | block
  | other (text : GoString)
  deriving DecidableEq

/-- `Decision`. -/
structure Decision where
  kind : DecisionKind
  status : Status := {}
  blockReason : GoString := []
  keyboard : Option KeyboardMarkup := none

/-- `Receipt`. -/
structure Receipt where
  messageID : Int := 0
  deriving DecidableEq

/-- `DurableOutboundReceipt`. -/
structure DurableOutboundReceipt where
  operationID : GoString
  sequence : Nat
  deriving DecidableEq

/-- `OutboundPhase`, a string of which the constants are named. -/
inductive OutboundPhase where
  | prepared
  | unknown
  | enqueued
  | confirmed
  | other (text : GoString)
  deriving DecidableEq

/-- `Outbound`. -/
structure Outbound where
  operationID : GoString
  updateID : Int
  status : Status
  keyboard : Option KeyboardMarkup
  phase : OutboundPhase
  receipt : Option Receipt := none
  durable : Option DurableOutboundReceipt := none
  deriving DecidableEq

/-- `BlockedUpdate`. -/
structure BlockedUpdate where
  updateID : Int
  reason : GoString
  deriving DecidableEq

/-- `recoverycontrol.Control`. -/
structure RecoveryControl where
  (originalOperationID promptOperationID : GoString)
  updateID : Int
  deriving DecidableEq

/-- `Checkpoint`. The defaults are the zero value. -/
structure Checkpoint where
  initialized : Bool := false
  nextUpdateID : Int := 0
  blocked : Option BlockedUpdate := none
  outbound : Option Outbound := none
  recovery : Option RecoveryControl := none
  deriving DecidableEq

/-- `StoredCheckpoint`. The defaults are the zero value. -/
structure StoredCheckpoint where
  revision : Nat := 0
  checkpoint : Checkpoint := {}
  deriving DecidableEq

/-! ## Checkpoints -/

section

variable (nextUpdateID : Int) (checkpoint : Checkpoint)

/-- `recoverycontrol.Validate`. -/
def RecoveryControl.validate (control : RecoveryControl) (updateID : Int) : Except String Unit :=
  refuse (control.updateID ≠ updateID || control.updateID ≤ 0 ||
      blank control.originalOperationID || blank control.promptOperationID ||
      control.originalOperationID = control.promptOperationID)
    "recovery control must bind distinct exact operations to its update"

/-- An error of `validateCheckpoint`. -/
def invalid (text : String) : Err := .wrap text (err .invalidCheckpoint)

/-- Whether the outbound operation may have been sent without a receipt. -/
def OutboundPhase.unresolved : OutboundPhase → Bool
  | .prepared | .unknown => true
  | _ => false

/-- The check of `validateCheckpoint` on a recovery control. -/
def validateRecovery (recovery : RecoveryControl) : Except Err Unit := do
  (recovery.validate recovery.updateID).mapError invalid
  refuse (checkpoint.nextUpdateID < recovery.updateID)
    (invalid "recovery update exceeds checkpoint offset")
  refuse (recovery.updateID = checkpoint.nextUpdateID && checkpoint.outbound.all fun outbound =>
      outbound.operationID ≠ recovery.promptOperationID ||
        outbound.updateID ≠ recovery.updateID || !outbound.phase.unresolved)
    (invalid "recovery control has not been durably accepted")

/-- The check of `validateCheckpoint` on an outbound operation. -/
def validateOutbound (outbound : Outbound) : Except Err Unit := do
  refuse (blank outbound.operationID || outbound.updateID ≤ 0 ||
      outbound.status.conversationID ≤ 0 || blank outbound.status.text)
    (invalid "invalid outbound operation")
  match outbound.phase with
  | .prepared | .unknown =>
    refuse (outbound.receipt.isSome || outbound.durable.isSome || outbound.updateID < nextUpdateID)
      (invalid "unresolved outbound has invalid receipt or offset")
  | .enqueued =>
    refuse (outbound.receipt.isSome || outbound.durable.all (fun durable =>
        durable.operationID ≠ outbound.operationID || durable.sequence = 0) ||
        outbound.updateID = maxInt64 || nextUpdateID ≤ outbound.updateID)
      (invalid "enqueued outbound has invalid durable receipt or offset")
  | .confirmed =>
    refuse (outbound.receipt.all (·.messageID ≤ 0) || outbound.durable.isSome ||
        outbound.updateID = maxInt64 || nextUpdateID ≤ outbound.updateID)
      (invalid "confirmed outbound has invalid receipt or offset")
  | .other text => .error (invalid ("unsupported outbound phase " ++ quoted text))

/-- `validateCheckpoint`. -/
def validateCheckpoint : Except Err Unit := do
  refuse (!checkpoint.initialized || checkpoint.nextUpdateID < 0)
    (invalid "initialized checkpoint and non-negative next update id are required")
  refuse (checkpoint.blocked.any fun blocked => blocked.updateID ≤ 0 ||
      blocked.updateID < checkpoint.nextUpdateID || blank blocked.reason)
    (invalid "invalid blocked update")
  checkpoint.recovery.elim (.ok ()) (validateRecovery checkpoint)
  checkpoint.outbound.elim (.ok ()) (validateOutbound checkpoint.nextUpdateID)

/-- `validateStored`. -/
def validateStored (stored : StoredCheckpoint) : Except Err Unit := do
  refuse (stored.revision = 0) (invalid "stored revision must be positive")
  validateCheckpoint stored.checkpoint

/-! ## Updates -/

/-- `validateMessageMedia`. -/
def validateMessageMedia (update : Update) : Except String Unit := do
  refuse (update.mediaFileSize < 0 || update.mediaDurationSeconds < 0 || update.mediaWidth < 0 ||
      update.mediaHeight < 0)
    "message media dimensions and sizes must not be negative"
  if update.mediaKind = [] then
    refuse (update.caption ≠ [] || update.mediaFileID ≠ [] || update.mediaFileUniqueID ≠ [] ||
        update.mediaFileSize ≠ 0 || update.mediaMIMEType ≠ [] ||
        update.mediaDurationSeconds ≠ 0 || update.mediaWidth ≠ 0 || update.mediaHeight ≠ 0 ||
        update.mediaDownloadAllowed)
      "message media metadata requires a media kind"
  else
    refuse (trimSpace update.mediaKind ≠ update.mediaKind || blank update.mediaFileID)
      "message media requires a normalized kind and file id"
    refuse (update.mediaDownloadAllowed && update.mediaKind ≠ ofText "voice" &&
        update.mediaKind ≠ ofText "photo" && update.mediaKind ≠ ofText "document")
      "only voice, photo, and document media may be downloaded"
    refuse (update.mediaKind = ofText "video" && update.mediaDownloadAllowed)
      "video download must remain disabled"

/-- `validateUpdatePayload`. -/
def validateUpdatePayload (update : Update) : Except String Unit :=
  match update.kind with
  | .unsupported =>
    refuse ({ update with id := 0, kind := .unsupported } ≠ {})
      "unsupported update must have an empty payload"
  | .message => do
    refuse (update.actorID ≤ 0 || update.conversationID = 0 || blank update.conversationKind)
      "message update requires actor and conversation identity"
    refuse (update.callbackQueryID ≠ []) "message update cannot contain callback query identity"
    refuse (update.sourceMessageID < 0 || update.replyToMessageID < 0 ||
        0 < update.replyToMessageID && update.sourceMessageID = 0)
      "message update has invalid source or reply message identity"
    validateMessageMedia update
  | .callback => do
    refuse (update.actorID ≤ 0 || update.conversationID = 0 || blank update.conversationKind)
      "callback update requires actor and conversation identity"
    refuse (blank update.text || blank update.callbackQueryID || update.sourceMessageID ≤ 0)
      "callback update requires data, query id, and positive source message id"
    refuse (update.caption ≠ [] || update.replyToMessageID ≠ 0 || update.mediaKind ≠ [] ||
        update.mediaFileID ≠ [] || update.mediaFileUniqueID ≠ [] || update.mediaFileSize ≠ 0 ||
        update.mediaMIMEType ≠ [] || update.mediaDurationSeconds ≠ 0 || update.mediaWidth ≠ 0 ||
        update.mediaHeight ≠ 0 || update.mediaDownloadAllowed)
      "callback update cannot contain message media metadata"
  | .other text => .error ("unsupported update kind " ++ quoted text)

/-- An error of `validateUpdates`. -/
def invalidUpdate (index : Nat) (text : String) : Err :=
  .wrap ("at batch index " ++ toString index ++ text) (err .invalidUpdateSequence)

/-- The loop of `validateUpdates`. -/
def validateUpdatesFrom (nextUpdateID : Int) : Nat → Int → List Update → Except Err Unit
  | _, _, [] => .ok ()
  | index, previous, update :: rest => do
    refuse (update.id < nextUpdateID || update.id ≤ 0 || update.id = maxInt64 ||
        0 < index && update.id ≤ previous)
      (invalidUpdate index "")
    (validateUpdatePayload update).mapError fun text => invalidUpdate index (": " ++ text)
    validateUpdatesFrom nextUpdateID (index + 1) update.id rest

/-- `validateUpdates`. -/
def validateUpdates (updates : List Update) : Except Err Unit :=
  validateUpdatesFrom nextUpdateID 0 0 updates

/-! ## Decisions -/

/-- `validateDecision`. -/
def validateDecision (decision : Decision) : Except String Unit :=
  match decision.kind with
  | .skip =>
    refuse (decision.status ≠ {} || decision.blockReason ≠ [])
      "skip decision must not contain status or block data"
  | .status =>
    refuse (decision.status.conversationID ≤ 0 || blank decision.status.text ||
        decision.blockReason ≠ [])
      "status decision requires a destination and non-empty safe text"
  | .block =>
    refuse (blank decision.blockReason || decision.status ≠ {})
      "block decision requires a reason and no status"
  | .other text => .error ("unsupported decision kind " ++ quoted text)

/-! ## Copies -/

/-- A row as `append([]KeyboardButton(nil), row...)` copies it: an empty row comes out nil. -/
def cloneRow (row : Slice KeyboardButton) : Slice KeyboardButton :=
  if row.getD [] = [] then none else row

/-- `cloneKeyboard`. -/
def cloneKeyboard : Option KeyboardMarkup → Option KeyboardMarkup
  | none => none
  | some keyboard => some (some ((keyboard.getD []).map cloneRow))

/-- `cloneCheckpoint`. -/
def cloneCheckpoint : Checkpoint :=
  { checkpoint with outbound := checkpoint.outbound.map fun outbound =>
      { outbound with keyboard := cloneKeyboard outbound.keyboard } }

/-! ## What the validators promise -/

/-- In a valid checkpoint the last outbound operation is at or after the offset exactly when it is
unresolved. -/
theorem unresolved_iff_of_valid {checkpoint : Checkpoint} {outbound : Outbound}
    (hvalid : validateCheckpoint checkpoint = .ok ()) (hout : checkpoint.outbound = some outbound) :
    outbound.phase.unresolved ↔ checkpoint.nextUpdateID ≤ outbound.updateID := by
  simp only [validateCheckpoint, check_eq_ok, hout, Option.elim_some, validateOutbound] at hvalid
  obtain ⟨-, -, -, -, hphase⟩ := hvalid
  cases hcase : outbound.phase <;> simp [hcase, OutboundPhase.unresolved] at hphase ⊢ <;> omega

/-- A copy of a checkpoint is as valid as the checkpoint: no check reads the keyboard. -/
theorem validateCheckpoint_clone :
    validateCheckpoint (cloneCheckpoint checkpoint) = validateCheckpoint checkpoint := by
  obtain ⟨_, _, _, outbound, _⟩ := checkpoint
  cases outbound <;> rfl

end

/-- The updates of a batch that passed the loop of `validateUpdates`. -/
theorem validateUpdatesFrom_eq_ok {offset previous : Int} {index : Nat} {updates : List Update}
    (h : validateUpdatesFrom offset index previous updates = .ok ()) :
    updates.Pairwise (·.id < ·.id) ∧
      ∀ update ∈ updates, offset ≤ update.id ∧ update.id ≠ maxInt64 ∧
        (0 < index → previous < update.id) := by
  induction updates generalizing index previous with
  | nil => simp
  | cons update rest ih =>
    simp only [validateUpdatesFrom, check_eq_ok, refuse_eq_ok, or_eq_false_iff,
      and_eq_false_iff, decide_eq_false_iff_not] at h
    obtain ⟨⟨⟨⟨hoffset, -⟩, hmax⟩, hprevious⟩, -, hrest⟩ := h
    obtain ⟨hsorted, hall⟩ := ih hrest
    have hafter : ∀ other ∈ rest, update.id < other.id :=
      fun other hother => (hall other hother).2.2 (Nat.succ_pos index)
    refine ⟨pairwise_cons.mpr ⟨hafter, hsorted⟩, ?_⟩
    intro other hother
    rcases mem_cons.mp hother with rfl | hother
    · exact ⟨by omega, hmax, fun hpos => by omega⟩
    have hless := hafter other hother
    exact ⟨(hall other hother).1, (hall other hother).2.1, fun hpos => by omega⟩

/-- An accepted batch is ordered by id, and none of its updates is before the offset. -/
theorem validateUpdates_eq_ok {offset : Int} {updates : List Update}
    (h : validateUpdates offset updates = .ok ()) :
    updates.Pairwise (·.id < ·.id) ∧
      ∀ update ∈ updates, offset ≤ update.id ∧ update.id ≠ maxInt64 := by
  obtain ⟨hsorted, hall⟩ := validateUpdatesFrom_eq_ok h
  exact ⟨hsorted, fun update hupdate => ⟨(hall update hupdate).1, (hall update hupdate).2.1⟩⟩

end Bria.Coordinator
