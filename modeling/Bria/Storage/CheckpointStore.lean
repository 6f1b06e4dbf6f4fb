import Bria.Base.Stored
import Bria.Coordinator.Types

/-!
# The checkpoint in the session file

`storage/coordinator_checkpoint_store.go`: the store in which the loop saves its checkpoint. A
checkpoint becomes a record of the session file, the file is written as JSON and read back, and the
record becomes a checkpoint again. `Save` compares what it read back with what it wanted to write, by
`reflect.DeepEqual`, which tells a nil slice from an empty one.

The bytes of the file are modelled by what the decoder makes of them. A string becomes its JSON text.
A field with `omitempty` is left out if it is empty, which only a keyboard without rows does not
survive: it comes back nil.

The store has its own `validateCheckpoint`. It admits the checkpoints that the loop's admits
(`validators_agree`). Which of them survive the trip is in `round_trip_iff_portable`.
-/

namespace Bria.Storage.CheckpointStore

open Go Coordinator

/-! ## Checks -/

/-- The check of `validateCheckpoint` on a recovery control. -/
def validateRecovery (checkpoint : Checkpoint) (recovery : RecoveryControl) : Except Err Unit := do
  refuse (recovery.updateID ≤ 0 || blank recovery.originalOperationID ||
      blank recovery.promptOperationID || recovery.originalOperationID = recovery.promptOperationID ||
      checkpoint.nextUpdateID < recovery.updateID)
    (.message "recovery control is invalid")
  refuse (recovery.updateID = checkpoint.nextUpdateID && checkpoint.outbound.all fun outbound =>
      outbound.operationID ≠ recovery.promptOperationID ||
        outbound.updateID ≠ recovery.updateID ||
        outbound.phase ≠ .prepared && outbound.phase ≠ .unknown)
    (.message "recovery control has not been durably accepted")

section

variable (nextUpdateID : Int) (outbound : Outbound) (stored : StoredCheckpoint)

/-- The check of `validateCheckpoint` on an outbound operation. -/
def validateOutbound : Except Err Unit := do
  refuse (blank outbound.operationID) (.message "outbound operation id is required")
  refuse (outbound.updateID ≤ 0) (.message "outbound update id must be positive")
  refuse (outbound.status.conversationID ≤ 0) (.message "outbound conversation id must be positive")
  refuse (blank outbound.status.text) (.message "outbound status text is required")
  match outbound.phase with
  | .prepared =>
    refuse (outbound.receipt.isSome || outbound.durable.isSome || outbound.updateID < nextUpdateID)
      (.message "outbound phase \"prepared\" has invalid receipt or offset")
  | .unknown =>
    refuse (outbound.receipt.isSome || outbound.durable.isSome || outbound.updateID < nextUpdateID)
      (.message "outbound phase \"unknown\" has invalid receipt or offset")
  | .enqueued =>
    refuse (outbound.receipt.isSome || outbound.durable.all (fun durable =>
        durable.operationID ≠ outbound.operationID || durable.sequence = 0) ||
        outbound.updateID = maxInt64 || nextUpdateID ≤ outbound.updateID)
      (.message "enqueued outbound requires an exact durable receipt and advanced offset")
  | .confirmed =>
    refuse (outbound.receipt.all (·.messageID ≤ 0) || outbound.durable.isSome ||
        outbound.updateID = maxInt64 || nextUpdateID ≤ outbound.updateID)
      (.message "confirmed outbound requires a positive receipt and advanced offset")
  | .other text => .error (.message ("unsupported outbound phase " ++ quoted text))

/-- `validateCheckpoint` of the store. -/
def validateCheckpoint (checkpoint : Checkpoint) : Except Err Unit := do
  refuse (!checkpoint.initialized) (.message "checkpoint must be initialized")
  refuse (checkpoint.nextUpdateID < 0) (.message "next update id must not be negative")
  refuse (checkpoint.blocked.any fun blocked => blocked.updateID ≤ 0 ||
      blocked.updateID < checkpoint.nextUpdateID)
    (.message "blocked update id must not precede next update id")
  refuse (checkpoint.blocked.any fun blocked => blank blocked.reason)
    (.message "blocked update reason is required")
  checkpoint.recovery.elim (.ok ()) (validateRecovery checkpoint)
  checkpoint.outbound.elim (.ok ()) (validateOutbound checkpoint.nextUpdateID)

/-- The phases of an operation that may have been sent without a receipt. -/
theorem not_unresolved (phase : OutboundPhase) :
    (phase ≠ .prepared && phase ≠ .unknown) = !phase.unresolved := by
  cases phase <;> rfl

/-- The checks on a recovery control are those of the loop. -/
theorem validateRecovery_iff (checkpoint : Checkpoint) (recovery : RecoveryControl) :
    validateRecovery checkpoint recovery = .ok () ↔
      Coordinator.validateRecovery checkpoint recovery = .ok () := by
  simp only [validateRecovery, Coordinator.validateRecovery, RecoveryControl.validate,
    check_eq_ok, mapError_eq_ok, refuse_eq_ok, not_unresolved, ne_eq, not_true_eq_false,
    decide_false, Bool.false_or, or_eq_false_iff]
  constructor
  · rintro ⟨⟨hcontrol, hoffset⟩, haccepted⟩
    exact ⟨hcontrol, hoffset, haccepted⟩
  rintro ⟨hcontrol, hoffset, haccepted⟩
  exact ⟨⟨hcontrol, hoffset⟩, haccepted⟩

/-- The checks on an outbound operation are those of the loop. -/
theorem validateOutbound_iff :
    validateOutbound nextUpdateID outbound = .ok () ↔
      Coordinator.validateOutbound nextUpdateID outbound = .ok () := by
  simp only [validateOutbound, Coordinator.validateOutbound, check_eq_ok, refuse_eq_ok,
    or_eq_false_iff, and_assoc]
  cases outbound.phase <;> simp

/-- For every checkpoint, the validator of the store admits it exactly when the validator of the loop
does. -/
theorem validators_agree (stored : StoredCheckpoint) :
    validateCheckpoint stored.checkpoint = .ok () ↔
      Coordinator.validateCheckpoint stored.checkpoint = .ok () := by
  obtain ⟨-, initialized, nextUpdateID, blocked, outbound, recovery⟩ := stored
  have hblocked : (blocked.any (fun b => b.updateID ≤ 0 || b.updateID < nextUpdateID) = false ∧
      blocked.any (blank ·.reason) = false) ↔
      blocked.any (fun b => b.updateID ≤ 0 || b.updateID < nextUpdateID || blank b.reason) =
        false := by
    cases blocked <;> simp
  have hrecovery : ∀ checkpoint, recovery.elim (.ok ()) (validateRecovery checkpoint) = .ok () ↔
      recovery.elim (.ok ()) (Coordinator.validateRecovery checkpoint) = .ok () := by
    intro checkpoint
    cases recovery with
    | none => exact Iff.rfl
    | some recovery => exact validateRecovery_iff checkpoint recovery
  have houtbound : outbound.elim (.ok ()) (validateOutbound nextUpdateID) = .ok () ↔
      outbound.elim (.ok ()) (Coordinator.validateOutbound nextUpdateID) = .ok () := by
    cases outbound with
    | none => exact Iff.rfl
    | some outbound => exact validateOutbound_iff nextUpdateID outbound
  simp only [validateCheckpoint, Coordinator.validateCheckpoint, check_eq_ok, refuse_eq_ok,
    hrecovery, houtbound, ← hblocked, or_eq_false_iff, and_assoc]

/-! ## Records -/

/-- `outboundOperationRecord`. The keyboard is a slice, and the pointer to it is gone. -/
structure OutboundOperationRecord where
  operationID : GoString
  updateID : Int
  status : Status
  keyboard : KeyboardMarkup
  phase : OutboundPhase
  receipt : Option Receipt
  durable : Option DurableOutboundReceipt

variable (record : OutboundOperationRecord)

/-- `coordinatorRecord`. The records that it is made of have the fields of the checkpoint's own. -/
structure CoordinatorRecord where
  version : Int
  revision : Nat
  initialized : Bool
  nextUpdateID : Int
  blocked : Option BlockedUpdate
  outbound : Option OutboundOperationRecord
  recovery : Option RecoveryControl

/-- `coordinatorCheckpointFormatVersion`. -/
def coordinatorCheckpointFormatVersion : Int := 1

/-- A row that is made with `make` and filled: it is not nil. -/
def madeRow (row : Slice KeyboardButton) : Slice KeyboardButton := some (row.getD [])

/-- The keyboard of a record. -/
def keyboardRecord : Option KeyboardMarkup → KeyboardMarkup
  | none => none
  | some keyboard => some ((keyboard.getD []).map madeRow)

/-- The keyboard of a checkpoint. -/
def keyboardOfRecord : KeyboardMarkup → Option KeyboardMarkup
  | none => none
  | some rows => some (some (rows.map madeRow))

/-- The record of an outbound operation. -/
def outboundRecord : OutboundOperationRecord where
  operationID := outbound.operationID
  updateID := outbound.updateID
  status := outbound.status
  keyboard := keyboardRecord outbound.keyboard
  phase := outbound.phase
  receipt := outbound.receipt
  durable := outbound.durable

/-- `recordFromStoredCheckpoint`. -/
def recordFromStoredCheckpoint : CoordinatorRecord where
  version := coordinatorCheckpointFormatVersion
  revision := stored.revision
  initialized := stored.checkpoint.initialized
  nextUpdateID := stored.checkpoint.nextUpdateID
  blocked := stored.checkpoint.blocked
  outbound := stored.checkpoint.outbound.map outboundRecord
  recovery := stored.checkpoint.recovery

/-- The outbound operation of a record. -/
def outboundOfRecord : Outbound where
  operationID := record.operationID
  updateID := record.updateID
  status := record.status
  keyboard := keyboardOfRecord record.keyboard
  phase := record.phase
  receipt := record.receipt
  durable := record.durable

/-- The checkpoint of a record. -/
def checkpointOfRecord (record : CoordinatorRecord) : Checkpoint where
  initialized := record.initialized
  nextUpdateID := record.nextUpdateID
  blocked := record.blocked
  outbound := record.outbound.map outboundOfRecord
  recovery := record.recovery

/-- `storedCheckpointFromRecord`. -/
def storedCheckpointFromRecord (record : CoordinatorRecord) : Except Err StoredCheckpoint := do
  validateCheckpoint (checkpointOfRecord record)
  refuse (record.revision = 0) (.message "persisted checkpoint revision must be positive")
  return ⟨record.revision, checkpointOfRecord record⟩

/-! ## The trip through JSON -/

/-- A button as read from the file. -/
def reencodeButton (button : KeyboardButton) : KeyboardButton where
  text := jsonText button.text
  callbackData := jsonText button.callbackData

/-- A keyboard as read from the file: `omitempty` drops one without rows, and `null` is a nil
row. -/
def reencodeKeyboard (keyboard : KeyboardMarkup) : KeyboardMarkup :=
  if keyboard.getD [] = [] then none
  else keyboard.map fun rows => rows.map fun row => row.map fun buttons => buttons.map reencodeButton

/-- A status as read from the file. -/
def reencodeStatus (status : Status) : Status :=
  { status with
    screenSessionID := jsonText status.screenSessionID
    text := jsonText status.text
    callbackQueryID := jsonText status.callbackQueryID }

/-- A phase as read from the file. -/
def reencodePhase : OutboundPhase → OutboundPhase
  | .other text => .other (jsonText text)
  | phase => phase

/-- An outbound operation as read from the file. -/
def OutboundOperationRecord.reencode :
    OutboundOperationRecord where
  operationID := jsonText record.operationID
  updateID := record.updateID
  status := reencodeStatus record.status
  keyboard := reencodeKeyboard record.keyboard
  phase := reencodePhase record.phase
  receipt := record.receipt
  durable := record.durable.map fun durable =>
    { durable with operationID := jsonText durable.operationID }

/-- A recovery control as read from the file. -/
def reencodeControl (control : RecoveryControl) : RecoveryControl :=
  { control with
    originalOperationID := jsonText control.originalOperationID
    promptOperationID := jsonText control.promptOperationID }

/-- A record as read from the file. -/
def CoordinatorRecord.reencode (record : CoordinatorRecord) : CoordinatorRecord :=
  { record with
    blocked := record.blocked.map fun blocked => { blocked with reason := jsonText blocked.reason }
    outbound := record.outbound.map OutboundOperationRecord.reencode
    recovery := record.recovery.map reencodeControl }

/-- A checkpoint that is made a record, encoded, decoded and made a checkpoint again. -/
def reread : Except Err StoredCheckpoint :=
  storedCheckpointFromRecord (recordFromStoredCheckpoint stored).reencode

end

/-! ## Saving -/

/-- What the file system does during a `Save`, and whether its context is cancelled. -/
structure Faults where
  cancelled : Bool := false
  /-- `reload` fails. -/
  reload : Bool := false
  /-- How the write ends. -/
  write : Write := .done
  /-- `reload` fails after a write that failed. -/
  reloadAfter : Bool := false
  /-- Reading the written file fails. -/
  reread : Bool := false

/-- An error of the file system. -/
def fileError : Err := .message "session store"

/-- The error of a `Save` that read back something else than it wrote. -/
def mismatch : Err := .message "reread coordinator checkpoint: persisted value mismatch"

section

variable (faults : Faults) (expectedRevision : Nat)

/-- The part of `Save` that reads the written file and compares. -/
def verify (want : StoredCheckpoint) : Except Err StoredCheckpoint := do
  refuse faults.reread (.wrap "reread coordinator checkpoint" fileError)
  -- Reading the file validates its checkpoint.
  let persisted ← (reread want).mapError fun e =>
    .wrap "reread coordinator checkpoint" (.wrap "validate coordinator checkpoint" e)
  refuse (persisted ≠ want) mismatch
  return persisted

/-- The error of a write that failed. -/
def persistError : Err :=
  let e : Err := .wrap "persist coordinator checkpoint" fileError
  if faults.reloadAfter then .join e fileError else e

/-- The part of `Save` that writes the checkpoint. -/
def write (faults : Faults) (want : StoredCheckpoint) (file : Option CoordinatorRecord) :
    Except Err StoredCheckpoint × Option CoordinatorRecord :=
  (if faults.write = .done then verify faults want else .error (persistError faults),
    if faults.write.lands then some (recordFromStoredCheckpoint want).reencode else file)

/-- The checks of `Save` before it looks at the stored checkpoint. -/
def checkSave (next : Checkpoint) : Except Err Unit := do
  refuse faults.cancelled (err .canceled)
  (validateCheckpoint next).mapError (.wrap "validate coordinator checkpoint")
  refuse (expectedRevision = maxUint64) (.message "coordinator checkpoint revision overflow")
  refuse faults.reload fileError

/-- What `Save` returns if another revision is stored: the checkpoint itself if the last write wrote
it. -/
def replayed (next : Checkpoint) :
    Option CoordinatorRecord → Except Err StoredCheckpoint
  | none => .error (err .compareAndSwapConflict)
  | some record => do
    let current ← (storedCheckpointFromRecord record).mapError
      (.wrap "restore current coordinator checkpoint")
    refuse (current.revision ≠ expectedRevision + 1 || current.checkpoint ≠ next)
      (err .compareAndSwapConflict)
    return current

/-- `Save` of a store whose memory is what its file decodes to, as `reload` leaves it unless an
earlier `Save` could not read back what it wrote. -/
def save (next : Checkpoint) (file : Option CoordinatorRecord) :
    Except Err StoredCheckpoint × Option CoordinatorRecord :=
  match checkSave faults expectedRevision next with
  | .error e => (.error e, file)
  | .ok _ =>
    if (file.map CoordinatorRecord.revision).getD 0 = expectedRevision then
      write faults ⟨expectedRevision + 1, cloneCheckpoint next⟩ file
    else (replayed expectedRevision next file, file)

end

/-! ## What survives -/

section

variable (outbound : Outbound) (row : Slice KeyboardButton) (button : KeyboardButton)
  (keyboard : KeyboardMarkup)

/-- A button of valid UTF-8. -/
def PortableButton : Prop := validString button.text ∧ validString button.callbackData

/-- A keyboard with rows, none of which is empty, of buttons of valid UTF-8. -/
def PortableKeyboard : Prop :=
  keyboard.getD [] ≠ [] ∧
    ∀ row ∈ keyboard.getD [], row.getD [] ≠ [] ∧ ∀ button ∈ row.getD [], PortableButton button

/-- What survives of an outbound operation. -/
structure PortableOutbound (outbound : Outbound) : Prop where
  operationID : validString outbound.operationID
  screenSessionID : validString outbound.status.screenSessionID
  text : validString outbound.status.text
  callbackQueryID : validString outbound.status.callbackQueryID
  durable : ∀ durable, outbound.durable = some durable → validString durable.operationID
  keyboard : ∀ keyboard, outbound.keyboard = some keyboard → PortableKeyboard keyboard

/-- What survives of a checkpoint. -/
structure Portable (checkpoint : Checkpoint) : Prop where
  reason : ∀ blocked, checkpoint.blocked = some blocked → validString blocked.reason
  original : ∀ control, checkpoint.recovery = some control → validString control.originalOperationID
  prompt : ∀ control, checkpoint.recovery = some control → validString control.promptOperationID
  outbound : ∀ outbound, checkpoint.outbound = some outbound → PortableOutbound outbound

/-- The keyboard of a checkpoint as read from the file. -/
def rereadKeyboard (keyboard : Option KeyboardMarkup) : Option KeyboardMarkup :=
  keyboardOfRecord (reencodeKeyboard (keyboardRecord keyboard))

/-- A checkpoint as read from the file. -/
def rereadCheckpoint (checkpoint : Checkpoint) : Checkpoint :=
  checkpointOfRecord (recordFromStoredCheckpoint ⟨1, checkpoint⟩).reencode

/-- The trip is one of the checkpoint, whatever the revision is. -/
theorem reread_eq (stored : StoredCheckpoint) :
    reread stored = (do
      validateCheckpoint (rereadCheckpoint stored.checkpoint)
      refuse (stored.revision = 0) (.message "persisted checkpoint revision must be positive")
      return ⟨stored.revision, rereadCheckpoint stored.checkpoint⟩) :=
  rfl

/-- A button comes back as it was if it is valid UTF-8. -/
theorem reencodeButton_eq_self_iff : reencodeButton button = button ↔ PortableButton button := by
  obtain ⟨text, callbackData⟩ := button
  simp only [reencodeButton, PortableButton, KeyboardButton.mk.injEq, jsonText_eq_self_iff]

/-- The trip of a row. -/
def rereadRow : Slice KeyboardButton := some ((row.getD []).map reencodeButton)

/-- The trip of a keyboard, row by row. -/
theorem rereadKeyboard_some (rows : List (Slice KeyboardButton)) :
    rereadKeyboard (some (some rows)) =
      if rows = [] then none else some (some (rows.map rereadRow)) := by
  by_cases hrows : rows = []
  · subst hrows
    rfl
  have hmade : rows.map madeRow ≠ [] := by simpa using hrows
  simp only [rereadKeyboard, keyboardRecord, reencodeKeyboard, getD_some, hmade, hrows,
    if_false, map_some, keyboardOfRecord, map_map]
  rfl

/-- A copied row comes back as it was if it is not empty. An empty one is copied as nil, and comes back
empty. -/
theorem rereadRow_clone_iff :
    rereadRow (cloneRow row) = cloneRow row ↔
      row.getD [] ≠ [] ∧ ∀ button ∈ row.getD [], PortableButton button := by
  by_cases hempty : row.getD [] = []
  · have hclone : cloneRow row = none := if_pos hempty
    simp [hclone, rereadRow, hempty]
  have hclone : cloneRow row = row := if_neg hempty
  obtain ⟨buttons, rfl⟩ : ∃ buttons, row = some buttons := by
    cases row with
    | none => exact absurd rfl hempty
    | some buttons => exact ⟨buttons, rfl⟩
  simp only [hclone, rereadRow, getD_some, some.injEq, map_eq_self_iff, reencodeButton_eq_self_iff]
  exact ⟨fun h => ⟨hempty, h⟩, fun h => h.2⟩

/-- A copied keyboard comes back as it was if it is portable. -/
theorem rereadKeyboard_clone_iff :
    rereadKeyboard (cloneKeyboard (some keyboard)) = cloneKeyboard (some keyboard) ↔
      PortableKeyboard keyboard := by
  simp only [cloneKeyboard, rereadKeyboard_some, PortableKeyboard, map_eq_nil_iff]
  by_cases hrows : keyboard.getD [] = []
  · simp [hrows]
  simp only [hrows, if_false, some.injEq, map_eq_self_iff, mem_map,
    forall_exists_index, and_imp, forall_apply_eq_imp_iff₂, rereadRow_clone_iff, ne_eq,
    not_false_eq_true, true_and]

theorem cloneKeyboard_of_portable {keyboard : KeyboardMarkup} (h : PortableKeyboard keyboard) :
    cloneKeyboard (some keyboard) = some keyboard := by
  obtain ⟨hrows, hall⟩ := h
  obtain ⟨rows, rfl⟩ : ∃ rows, keyboard = some rows := by
    cases keyboard with
    | none => exact absurd rfl hrows
    | some rows => exact ⟨rows, rfl⟩
  have hclone : rows.map cloneRow = rows :=
    map_eq_self_iff.mpr fun row hrow => if_neg (hall row hrow).1
  simp only [cloneKeyboard, getD_some, hclone]

/-- The trip of an outbound operation. -/
def rereadOutbound : Outbound := outboundOfRecord (outboundRecord outbound).reencode

/-- A copy of an outbound operation. -/
def cloneOutbound : Outbound := { outbound with keyboard := cloneKeyboard outbound.keyboard }

end

/-- A copied outbound operation comes back as it was if it is portable. -/
theorem rereadOutbound_clone_iff {outbound : Outbound}
    (hphase : reencodePhase outbound.phase = outbound.phase) :
    rereadOutbound (cloneOutbound outbound) = cloneOutbound outbound ↔
      PortableOutbound outbound := by
  obtain ⟨operationID, updateID, ⟨screenSessionID, conversationID, text, richMarkdown,
    callbackQueryID, sourceMessageID⟩, keyboard, phase, receipt, durable⟩ := outbound
  have hdurable : (durable.map fun d => { d with operationID := jsonText d.operationID }) = durable ↔
      ∀ d, durable = some d → validString d.operationID := by
    cases durable with
    | none => simp
    | some d =>
      obtain ⟨id, sequence⟩ := d
      simp [jsonText_eq_self_iff]
  have hkeyboard : rereadKeyboard (cloneKeyboard keyboard) = cloneKeyboard keyboard ↔
      ∀ k, keyboard = some k → PortableKeyboard k := by
    cases keyboard with
    | none => simp [rereadKeyboard, cloneKeyboard, keyboardRecord, reencodeKeyboard, keyboardOfRecord]
    | some k =>
      rw [rereadKeyboard_clone_iff]
      simp
  have hparts : rereadOutbound (cloneOutbound ⟨operationID, updateID, ⟨screenSessionID,
      conversationID, text, richMarkdown, callbackQueryID, sourceMessageID⟩, keyboard, phase, receipt,
      durable⟩) = ⟨jsonText operationID, updateID, ⟨jsonText screenSessionID, conversationID,
      jsonText text, richMarkdown, jsonText callbackQueryID, sourceMessageID⟩,
      rereadKeyboard (cloneKeyboard keyboard), reencodePhase phase, receipt,
      durable.map fun d => { d with operationID := jsonText d.operationID }⟩ := rfl
  rw [hparts]
  simp only [cloneOutbound, Outbound.mk.injEq, Status.mk.injEq, jsonText_eq_self_iff, hdurable,
    hkeyboard, hphase, true_and, and_true]
  constructor
  · rintro ⟨hid, ⟨hscreen, htext, hquery⟩, hkeyboard, hdurable⟩
    exact ⟨hid, hscreen, htext, hquery, hdurable, hkeyboard⟩
  rintro ⟨hid, hscreen, htext, hquery, hdurable, hkeyboard⟩
  exact ⟨hid, ⟨hscreen, htext, hquery⟩, hkeyboard, hdurable⟩

/-- The phase of an outbound operation that is admitted survives. -/
theorem reencodePhase_of_valid {nextUpdateID : Int} {outbound : Outbound}
    (h : validateOutbound nextUpdateID outbound = .ok ()) :
    reencodePhase outbound.phase = outbound.phase := by
  simp only [validateOutbound, check_eq_ok] at h
  obtain ⟨-, -, -, -, h⟩ := h
  cases hphase : outbound.phase with
  | other text => simp [hphase] at h
  | _ => rfl

variable {checkpoint : Checkpoint}

/-- A copied checkpoint that is admitted comes back as it was if it is portable. -/
theorem rereadCheckpoint_clone_iff (hvalid : validateCheckpoint checkpoint = .ok ()) :
    rereadCheckpoint (cloneCheckpoint checkpoint) = cloneCheckpoint checkpoint ↔
      Portable checkpoint := by
  obtain ⟨initialized, nextUpdateID, blocked, outbound, recovery⟩ := checkpoint
  simp only [validateCheckpoint, check_eq_ok] at hvalid
  obtain ⟨-, -, -, -, -, houtbound⟩ := hvalid
  have hblocked : (blocked.map fun b => { b with reason := jsonText b.reason }) = blocked ↔
      ∀ b, blocked = some b → validString b.reason := by
    cases blocked with
    | none => simp
    | some b =>
      obtain ⟨id, reason⟩ := b
      simp [jsonText_eq_self_iff]
  have hrecovery : recovery.map reencodeControl = recovery ↔
      (∀ control, recovery = some control → validString control.originalOperationID) ∧
        ∀ control, recovery = some control → validString control.promptOperationID := by
    cases recovery with
    | none => simp
    | some control =>
      obtain ⟨original, prompt, id⟩ := control
      simp [reencodeControl, jsonText_eq_self_iff]
  have hsent : outbound.map (rereadOutbound ∘ cloneOutbound) = outbound.map cloneOutbound ↔
      ∀ o, outbound = some o → PortableOutbound o := by
    cases outbound with
    | none => simp
    | some o =>
      simp only [map_some, some.injEq, Function.comp_apply, forall_eq']
      exact rereadOutbound_clone_iff (reencodePhase_of_valid houtbound)
  have hparts : rereadCheckpoint (cloneCheckpoint ⟨initialized, nextUpdateID, blocked, outbound,
      recovery⟩) = ⟨initialized, nextUpdateID,
        blocked.map fun b => { b with reason := jsonText b.reason },
        outbound.map (rereadOutbound ∘ cloneOutbound), recovery.map reencodeControl⟩ := by
    cases outbound <;> rfl
  rw [hparts]
  change Checkpoint.mk _ _ _ _ _ = Checkpoint.mk _ _ _ (outbound.map cloneOutbound) _ ↔ _
  simp only [Checkpoint.mk.injEq, hblocked, hrecovery, hsent, true_and]
  constructor
  · rintro ⟨hreason, hout, horiginal, hprompt⟩
    exact ⟨hreason, horiginal, hprompt, hout⟩
  rintro ⟨hreason, horiginal, hprompt, hout⟩
  exact ⟨hreason, hout, horiginal, hprompt⟩

theorem cloneCheckpoint_of_portable (h : Portable checkpoint) :
    cloneCheckpoint checkpoint = checkpoint := by
  obtain ⟨initialized, nextUpdateID, blocked, outbound, recovery⟩ := checkpoint
  rcases outbound with _ | outbound
  · rfl
  have hkeyboard : cloneKeyboard outbound.keyboard = outbound.keyboard := by
    cases hcase : outbound.keyboard with
    | none => rfl
    | some keyboard =>
      exact cloneKeyboard_of_portable ((h.outbound outbound rfl).keyboard keyboard hcase)
  simp only [cloneCheckpoint, map_some, hkeyboard]

/-- No check reads a keyboard, so a copy is admitted after the trip if the checkpoint is. -/
theorem validateCheckpoint_reread_clone (checkpoint : Checkpoint) :
    validateCheckpoint (rereadCheckpoint (cloneCheckpoint checkpoint)) =
      validateCheckpoint (rereadCheckpoint checkpoint) := by
  obtain ⟨_, _, _, outbound, _⟩ := checkpoint
  cases outbound <;> rfl

/-- The trip of a checkpoint that is admitted after it. -/
theorem reread_of_valid {stored : StoredCheckpoint} (hrevision : 0 < stored.revision)
    (hvalid : validateCheckpoint (rereadCheckpoint stored.checkpoint) = .ok ()) :
    reread stored = .ok ⟨stored.revision, rereadCheckpoint stored.checkpoint⟩ := by
  have hpositive : (decide (stored.revision = 0)) = false := by simp; omega
  rw [reread_eq, hvalid, hpositive]
  rfl

/-- A comparison after which the checkpoint is what it was reports no mismatch. -/
theorem verify_ne_mismatch {want : StoredCheckpoint} (faults : Faults)
    (hwant : reread want = .ok want) : verify faults want ≠ .error mismatch := by
  intro h
  rcases refuse_bind_eq_error.mp h with ⟨-, h⟩ | ⟨-, h⟩
  · cases h
  rw [hwant] at h
  rcases refuse_bind_eq_error.mp h with ⟨hdiffers, -⟩ | ⟨-, h⟩
  · simp at hdiffers
  · cases h

variable (faults : Faults) (expectedRevision : Nat) (next : Checkpoint)
  (file : Option CoordinatorRecord)

/-- The checks before a write report no mismatch. -/
theorem checkSave_ne_mismatch : checkSave faults expectedRevision next ≠ .error mismatch := by
  intro h
  rcases refuse_bind_eq_error.mp h with ⟨-, h⟩ | ⟨-, h⟩
  · cases h
  rcases hcheck : validateCheckpoint next with e | _
  · rw [hcheck] at h
    cases h
  rw [hcheck] at h
  rcases refuse_bind_eq_error.mp h with ⟨-, h⟩ | ⟨-, h⟩
  · exact absurd h (by decide)
  cases hreload : faults.reload with
  | true | false => exact absurd (hreload ▸ h) (by decide)

/-- A `Save` that finds another revision reports no mismatch. -/
theorem replayed_ne_mismatch : replayed expectedRevision next file ≠ .error mismatch := by
  rcases file with _ | record
  · exact nofun
  intro h
  simp only [replayed] at h
  rcases hcurrent : storedCheckpointFromRecord record with e | current
  · rw [hcurrent] at h
    cases h
  rw [hcurrent] at h
  rcases refuse_bind_eq_error.mp h with ⟨-, h⟩ | ⟨-, h⟩
  · cases h
  · cases h

/-- A `Save` whose checkpoint comes back as it was reports no mismatch. -/
theorem save_ne_mismatch
    (hwant : reread ⟨expectedRevision + 1, cloneCheckpoint checkpoint⟩ =
      .ok ⟨expectedRevision + 1, cloneCheckpoint checkpoint⟩) :
    (save faults expectedRevision checkpoint file).1 ≠ .error mismatch := by
  unfold save
  split
  · rename_i e hcheck
    intro h
    obtain rfl : e = mismatch := error.inj h
    exact checkSave_ne_mismatch faults expectedRevision checkpoint hcheck
  split
  · by_cases hdone : faults.write = .done
    · simp only [write, hdone, if_true]
      exact verify_ne_mismatch faults hwant
    simp only [write, hdone, if_false, persistError]
    cases faults.reloadAfter <;> exact nofun
  · exact replayed_ne_mismatch expectedRevision checkpoint file

/-- For every checkpoint that is admitted: it comes back from the file as it was and `Save` never
reports a mismatch, exactly if it is portable. -/
theorem round_trip_iff_portable {checkpoint : Checkpoint}
    (hvalid : validateCheckpoint checkpoint = .ok ()) :
    ((∀ revision, 0 < revision →
        reread ⟨revision, checkpoint⟩ = .ok ⟨revision, checkpoint⟩) ∧
      ∀ faults expectedRevision file,
        (save faults expectedRevision checkpoint file).1 ≠ .error mismatch) ↔
      Portable checkpoint := by
  constructor
  · rintro ⟨htrip, hsave⟩
    -- The first `Save` of the checkpoint reads back the trip of a copy, which is admitted.
    have hfirst := htrip 1 Nat.one_pos
    have hreread : validateCheckpoint (rereadCheckpoint (cloneCheckpoint checkpoint)) = .ok () :=
      (validateCheckpoint_reread_clone checkpoint).trans (check_eq_ok.mp hfirst).1
    have hcopy : reread ⟨1, cloneCheckpoint checkpoint⟩ =
        .ok ⟨1, rereadCheckpoint (cloneCheckpoint checkpoint)⟩ :=
      reread_of_valid Nat.one_pos hreread
    refine (rereadCheckpoint_clone_iff hvalid).mp (Decidable.byContradiction fun hne => ?_)
    have hdiffers : (⟨1, rereadCheckpoint (cloneCheckpoint checkpoint)⟩ : StoredCheckpoint) ≠
        ⟨1, cloneCheckpoint checkpoint⟩ := fun h => hne (StoredCheckpoint.mk.inj h).2
    have hcheck : checkSave {} 0 checkpoint = .ok () := by
      simp [checkSave, hvalid, Except.mapError, maxUint64]
    have hverify : verify {} ⟨1, cloneCheckpoint checkpoint⟩ = .error mismatch := by
      refine refuse_bind_eq_error.mpr (.inr ⟨rfl, ?_⟩)
      rw [hcopy]
      exact refuse_bind_eq_error.mpr (.inl ⟨decide_eq_true hdiffers, rfl⟩)
    refine hsave {} 0 none ?_
    simp only [save, hcheck]
    exact hverify
  · intro hportable
    have hclone := cloneCheckpoint_of_portable hportable
    have hsame : rereadCheckpoint checkpoint = checkpoint := by
      have h := (rereadCheckpoint_clone_iff hvalid).mpr hportable
      rwa [hclone] at h
    have htrip : ∀ revision, 0 < revision →
        reread ⟨revision, checkpoint⟩ = .ok ⟨revision, checkpoint⟩ := by
      intro revision hrevision
      have h : reread ⟨revision, checkpoint⟩ = .ok ⟨revision, rereadCheckpoint checkpoint⟩ :=
        reread_of_valid hrevision (hsame.symm ▸ hvalid)
      rwa [hsame] at h
    refine ⟨htrip, fun faults expectedRevision file => save_ne_mismatch faults _ file ?_⟩
    rw [hclone]
    exact htrip _ (Nat.succ_pos _)

/-- A checkpoint with a prepared operation. -/
def sampleCheckpoint (keyboard : KeyboardMarkup) : Checkpoint where
  initialized := true
  nextUpdateID := 5
  outbound := some {
    operationID := ofText "status:5", updateID := 5
    status := { conversationID := 7, text := ofText "Done" }
    keyboard := some keyboard, phase := .prepared }

/-- A keyboard with a button survives. -/
theorem button_survives :
    validateCheckpoint (sampleCheckpoint (some [some [⟨ofText "OK", ofText "ok"⟩]])) = .ok () ∧
      (∀ revision, 0 < revision →
        reread ⟨revision, sampleCheckpoint (some [some [⟨ofText "OK", ofText "ok"⟩]])⟩ =
          .ok ⟨revision, sampleCheckpoint (some [some [⟨ofText "OK", ofText "ok"⟩]])⟩) := by
  have hvalid : validateCheckpoint (sampleCheckpoint (some [some [⟨ofText "OK", ofText "ok"⟩]])) =
      .ok () := by decide +kernel
  refine ⟨hvalid, ((round_trip_iff_portable hvalid).mpr ⟨nofun, nofun, nofun, ?_⟩).1⟩
  rintro _ ⟨⟩
  refine ⟨by decide +kernel, by decide, by decide +kernel, by decide, nofun, ?_⟩
  rintro _ ⟨⟩
  refine ⟨nofun, fun row hrow => ?_⟩
  obtain rfl : row = some [⟨ofText "OK", ofText "ok"⟩] := by simpa using hrow
  refine ⟨nofun, fun button hbutton => ?_⟩
  obtain rfl : button = ⟨ofText "OK", ofText "ok"⟩ := by simpa using hbutton
  exact ⟨by decide +kernel, by decide +kernel⟩

/-- A keyboard without rows comes back as no keyboard. `Save` replaces the file and then reports a
mismatch. -/
theorem rowless_keyboard_lost :
    validateCheckpoint (sampleCheckpoint (some [])) = .ok () ∧
      reread ⟨1, sampleCheckpoint (some [])⟩ ≠ .ok ⟨1, sampleCheckpoint (some [])⟩ ∧
      (save {} 0 (sampleCheckpoint (some [])) none).1 = .error mismatch ∧
      (save {} 0 (sampleCheckpoint (some [])) none).2.isSome := by
  decide +kernel

end Bria.Storage.CheckpointStore
