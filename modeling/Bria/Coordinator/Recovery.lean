import Bria.Coordinator.Loop

/-!
# Recovery prompts

When the handler fails on a callback and prepares a recovery prompt, `enqueueRecoveryPrompt` records
the prompt before it is sent. The control of the prompt has the id of the update, and so has the
operation. `validateCheckpoint` wants the control to be at or before the offset, and a prepared
operation at or after it, so the checkpoint passes exactly if the update is the one at the offset
(`validate_recoveryPrompt_iff`). Ids of updates may have gaps, and behind a gap the loop fails with
the same error every time that it gets the update. Before that the method refuses a sender that has
no queue of its own, and a prompt while an earlier one is at the offset or after it.
-/

namespace Bria.Coordinator

open Go

variable {control : RecoveryControl} {updateID : Int}

theorem validate_eq_ok (h : control.validate updateID = .ok ()) :
    control.updateID = updateID ∧ 0 < updateID ∧
      control.validate control.updateID = .ok () ∧ blank control.promptOperationID = false := by
  have hcontrol := h
  simp only [RecoveryControl.validate, refuse_eq_ok, or_eq_false_iff,
    decide_eq_false_iff_not] at hcontrol
  obtain ⟨⟨⟨⟨hid, hpositive⟩, -⟩, hprompt⟩, -⟩ := hcontrol
  have hid : control.updateID = updateID := by simpa using hid
  exact ⟨hid, by omega, hid ▸ h, hprompt⟩

theorem validateOutbound_prompt {checkpoint : Checkpoint} {prompt : Decision}
    (hpositive : 0 < updateID) (hprompt : blank control.promptOperationID = false)
    (hdecision : validateDecision prompt = .ok ()) (hkind : prompt.kind = .status)
    (hoffset : checkpoint.nextUpdateID ≤ updateID) :
    validateOutbound checkpoint.nextUpdateID
      { operationID := control.promptOperationID, updateID, status := prompt.status
        keyboard := cloneKeyboard prompt.keyboard, phase := .prepared } = .ok () := by
  simp only [validateDecision, hkind, refuse_eq_ok, or_eq_false_iff,
    decide_eq_false_iff_not] at hdecision
  obtain ⟨⟨hconversation, htext⟩, -⟩ := hdecision
  simp only [validateOutbound, check_eq_ok, refuse_eq_ok, or_eq_false_iff, decide_eq_false_iff_not]
  refine ⟨⟨⟨⟨hprompt, ?_⟩, hconversation⟩, htext⟩, ⟨rfl, rfl⟩, ?_⟩
  · omega
  · omega

/-- When `enqueueRecoveryPrompt` gets to save its prompt: the update is the one at the offset, the
sender is a `DurableStatusSender`, and an earlier recovery is behind the offset. -/
def Loop.Prompts (loop : Loop) (checkpoint : Checkpoint) (updateID : Int) : Prop :=
  updateID = checkpoint.nextUpdateID ∧ loop.durableSender ∧
    ∀ recovery ∈ checkpoint.recovery, recovery.updateID < checkpoint.nextUpdateID

section

variable {loop : Loop} {stored : StoredCheckpoint} {updates : List Update} {update : Update}
  {prompt : Decision} (hvalid : validateCheckpoint stored.checkpoint = .ok ())
  (hupdates : validateUpdates stored.checkpoint.nextUpdateID updates = .ok ())
  (hupdate : update ∈ updates) (hcontrol : control.validate update.id = .ok ())
  (hdecision : validateDecision prompt = .ok ()) (hkind : prompt.kind = .status)

include hvalid hupdates hupdate hcontrol hdecision hkind

/-- For every stored checkpoint that is valid and every update of an admitted batch, with a valid
recovery control and prompt: the checkpoint that is prepared for the prompt is valid exactly if the
update is the one at the offset. -/
theorem validate_recoveryPrompt_iff :
    validateCheckpoint (recoveryPrompt stored.checkpoint update.id control prompt) = .ok () ↔
      update.id = stored.checkpoint.nextUpdateID := by
  obtain ⟨hid, hpositive, hself, hprompt⟩ := validate_eq_ok hcontrol
  have hoffset : stored.checkpoint.nextUpdateID ≤ update.id :=
    ((validateUpdates_eq_ok hupdates).2 update hupdate).1
  have hout := validateOutbound_prompt hpositive hprompt hdecision hkind hoffset
  simp only [validateCheckpoint, check_eq_ok] at hvalid
  obtain ⟨hinitialized, hblocked, -, -⟩ := hvalid
  -- What is left of the checks are those that compare the control with the offset.
  have hparts : validateCheckpoint (recoveryPrompt stored.checkpoint update.id control prompt) =
      .ok () ↔ validateRecovery (recoveryPrompt stored.checkpoint update.id control prompt) control =
        .ok () := by
    simp only [validateCheckpoint, check_eq_ok]
    exact ⟨fun h => h.2.2.1, fun h => ⟨hinitialized, hblocked, h, hout⟩⟩
  rw [hparts]
  simp only [validateRecovery, check_eq_ok, mapError_eq_ok, hself, true_and, refuse_eq_ok]
  have hfields : (recoveryPrompt stored.checkpoint update.id control prompt).nextUpdateID =
      stored.checkpoint.nextUpdateID := rfl
  rw [hfields, hid]
  constructor
  · rintro ⟨hbefore, -⟩
    have hbefore := of_decide_eq_false hbefore
    omega
  intro heq
  refine ⟨decide_eq_false (by omega), ?_⟩
  simp [recoveryPrompt, prepared, OutboundPhase.unresolved]

/-- `enqueueRecoveryPrompt` asks the store to save the prompt exactly under `Loop.Prompts`. Otherwise
it returns an error and asks for nothing. -/
theorem prompt_saved_iff :
    ((∃ rest, (loop.enqueueRecoveryPrompt stored update.id control prompt).run =
        .ask (.save stored.revision
          (cloneCheckpoint (recoveryPrompt stored.checkpoint update.id control prompt))) rest) ↔
      loop.Prompts stored.checkpoint update.id) ∧
    (loop.Prompts stored.checkpoint update.id ∨
      ∃ e, loop.enqueueRecoveryPrompt stored update.id control prompt = throw e) := by
  have hearlier : (∀ recovery ∈ stored.checkpoint.recovery,
      recovery.updateID < stored.checkpoint.nextUpdateID) ↔
      (stored.checkpoint.recovery.elim (.ok ()) fun recovery =>
        refuse (stored.checkpoint.nextUpdateID ≤ recovery.updateID)
          (unknownFor "for recovery operation " recovery.originalOperationID)) = .ok () := by
    cases stored.checkpoint.recovery <;> simp [refuse_eq_ok]
  unfold Loop.Prompts
  rw [hearlier,
    ← validate_recoveryPrompt_iff hvalid hupdates hupdate hcontrol hdecision hkind]
  unfold Loop.enqueueRecoveryPrompt saveVerified
  -- The three checks before the save, in their order. A method that throws asks for nothing.
  generalize (stored.checkpoint.recovery.elim (.ok ()) _ : Except Err Unit) = earlier
  rcases earlier with e | u
  · exact ⟨⟨by rintro ⟨_, ⟨⟩⟩, by rintro ⟨-, -, ⟨⟩⟩⟩, .inr ⟨e, rfl⟩⟩
  cases loop.durableSender with
  | false => exact ⟨⟨by rintro ⟨_, ⟨⟩⟩, by rintro ⟨-, ⟨⟩, -⟩⟩, .inr ⟨_, rfl⟩⟩
  | true =>
    rcases validateCheckpoint (recoveryPrompt stored.checkpoint update.id control prompt) with e | u
    · exact ⟨⟨by rintro ⟨_, ⟨⟩⟩, by rintro ⟨⟨⟩, -⟩⟩, .inr ⟨e, rfl⟩⟩
    · exact ⟨⟨fun _ => ⟨rfl, rfl, rfl⟩, fun _ => ⟨_, rfl⟩⟩, .inl ⟨rfl, rfl, rfl⟩⟩

end

/-- A checkpoint whose offset is five. -/
def offsetFive : Checkpoint := { initialized := true, nextUpdateID := 5 }

/-- A callback. -/
def sampleCallback (id : Int) : Update where
  id
  kind := .callback
  actorID := 1
  conversationID := 7
  conversationKind := ofText "private"
  text := ofText "data"
  callbackQueryID := ofText "query"
  sourceMessageID := 3

/-- The control of a prompt about the callback. -/
def sampleControl (id : Int) : RecoveryControl where
  originalOperationID := ofText "original"
  promptOperationID := ofText "prompt"
  updateID := id

/-- The prompt. -/
def samplePrompt : Decision where
  kind := .status
  status := { conversationID := 7, text := ofText "Unknown" }

/-- A loop whose sender has a queue of its own. -/
def queueingLoop : Loop := { recoveryHandler := true, durableSender := true }

/-- The prompt about the callback at the offset is saved. -/
theorem prompt_at_offset_saved :
    validateUpdates 5 [sampleCallback 5] = .ok () ∧
      ∃ rest, (queueingLoop.enqueueRecoveryPrompt ⟨1, offsetFive⟩ 5 (sampleControl 5)
        samplePrompt).run = .ask (.save 1 (cloneCheckpoint
          (recoveryPrompt offsetFive 5 (sampleControl 5) samplePrompt))) rest := by
  have hupdates : validateUpdates offsetFive.nextUpdateID [sampleCallback 5] = .ok () := by
    decide +kernel
  refine ⟨hupdates, ?_⟩
  exact (@prompt_saved_iff (sampleControl 5) queueingLoop ⟨1, offsetFive⟩ _ _ samplePrompt
    (by decide +kernel) hupdates (mem_singleton.mpr rfl) (by decide +kernel) (by decide +kernel)
    rfl).1.mpr ⟨rfl, rfl, by simp [offsetFive]⟩

/-- A callback behind a gap is not: nothing is saved. -/
theorem prompt_behind_gap_refused :
    validateCheckpoint offsetFive = .ok () ∧
      validateUpdates offsetFive.nextUpdateID [sampleCallback 7] = .ok () ∧
      (sampleControl 7).validate 7 = .ok () ∧ validateDecision samplePrompt = .ok () ∧
      validateCheckpoint (recoveryPrompt offsetFive 7 (sampleControl 7) samplePrompt) =
        .error (invalid "recovery update exceeds checkpoint offset") ∧
      ∀ loop : Loop, loop.durableSender →
        loop.enqueueRecoveryPrompt ⟨1, offsetFive⟩ 7 (sampleControl 7) samplePrompt =
          throw (invalid "recovery update exceeds checkpoint offset") := by
  refine ⟨by decide +kernel, by decide +kernel, by decide +kernel, by decide +kernel,
    by decide +kernel, fun loop hsender => ?_⟩
  obtain ⟨_, _, durableSender, _, _, _⟩ := loop
  obtain rfl : durableSender := hsender
  rfl

end Bria.Coordinator
