import Bria.CoordinatorBundle.Bundle

/-!
# Snapshots that the target accepts

`validateSnapshot` of `coordinatorstate/store.go`: what a coordinator asks of a bundle before it stages
it. It looks at the checkpoint once more, and refuses every bundle in whose texts it finds a secret.
What `json.Marshal` makes of a bundle, and which texts the patterns match, are left open (`Screen`).

The phases of an outbound operation are listed again here, and `enqueued` is missing: a checkpoint
whose last operation is enqueued is refused (`transferable_iff`).
-/

namespace Bria.CoordinatorState

open Go MessageJournal Coordinator CoordinatorBundle
open CoordinatorTransfer (TelegramScope)

/-- How secrets are looked for. -/
structure Screen (P : Type) where
  /-- `json.Marshal`, none if it fails. -/
  marshal : Bundle P → Option GoString
  /-- `sensitive`. -/
  sensitive : GoString → Bool

/-- The check of `validateSnapshot` on the blocked update. -/
def blockedValid (checkpoint : Checkpoint) (blocked : BlockedUpdate) : Bool :=
  0 < blocked.updateID && checkpoint.nextUpdateID ≤ blocked.updateID && !blank blocked.reason

/-- The check of `validateSnapshot` on the outbound operation. -/
def outboundValid (checkpoint : Checkpoint) (outbound : Outbound) : Bool :=
  !blank outbound.operationID && 0 < outbound.updateID && 0 < outbound.status.conversationID &&
    !blank outbound.status.text &&
    match outbound.phase with
    | .prepared | .unknown => outbound.receipt.isNone && checkpoint.nextUpdateID ≤ outbound.updateID
    | .confirmed =>
      (outbound.receipt.any fun receipt => 0 < receipt.messageID) && outbound.updateID ≠ maxInt64 &&
        outbound.updateID < checkpoint.nextUpdateID
    | _ => false

variable {P : Type} [Parts P] {checkpoint : Checkpoint}

/-- `validateSnapshot`. -/
def validateSnapshot (screen : Screen P) (snapshot : Bundle P) : Except Err Unit := do
  snapshot.validate
  let stored := snapshot.checkpoint
  refuse (stored.revision = 0) (err .invalidState)
  refuse (!stored.checkpoint.blocked.all (blockedValid stored.checkpoint)) (err .invalidState)
  refuse (!stored.checkpoint.outbound.all (outboundValid stored.checkpoint)) (err .invalidState)
  refuse (snapshot.inputs.any fun input => screen.sensitive input.payload) (err .sensitiveState)
  refuse (snapshot.outputs.any fun output =>
    screen.sensitive output.payload || screen.sensitive output.receipt) (err .sensitiveState)
  match screen.marshal snapshot with
  | none => .error (err .invalidState)
  | some encoded => refuse (screen.sensitive encoded) (err .sensitiveState)

/-- The checks of `validateSnapshot` that do not look at the checkpoint pass. -/
structure OtherwiseValid (screen : Screen P) (snapshot : Bundle P) : Prop where
  version : snapshot.version = bundleVersion
  configuration : Parts.validateConfiguration snapshot.parts = .ok ()
  scope : validateScope snapshot.telegramScope = .ok ()
  surfaces : Parts.validateSurfaces snapshot.parts = .ok ()
  linked : ∃ seen, snapshot.sessions.foldlM (scanSession (Parts.computers snapshot.parts)) (∅, []) =
      .ok seen ∧ Parts.validateLinks snapshot.parts snapshot.telegramScope seen.1 = .ok () ∧
    validateJournals snapshot.journals snapshot.inputs snapshot.outputs seen.1 = .ok () ∧
    Parts.validateCallbacks snapshot.parts snapshot.telegramScope seen.1 = .ok ()
  revision : snapshot.checkpoint.revision ≠ 0
  inputs : ∀ input ∈ snapshot.inputs, screen.sensitive input.payload = false
  outputs : ∀ output ∈ snapshot.outputs,
    screen.sensitive output.payload = false ∧ screen.sensitive output.receipt = false

/-- The last operation is not enqueued, and goes to the private chat. -/
def Transferable (scope : TelegramScope) (checkpoint : Checkpoint) : Prop :=
  ∀ outbound, checkpoint.outbound = some outbound →
    outbound.phase ≠ .enqueued ∧ outbound.status.conversationID = scope.privateChatID

variable {screen : Screen P} {snapshot : Bundle P}

/-- A blocked update that the loop admits is accepted. -/
theorem blockedValid_of_valid (hvalid : Coordinator.validateCheckpoint checkpoint = .ok ()) :
    checkpoint.blocked.all (blockedValid checkpoint) := by
  simp only [Coordinator.validateCheckpoint, check_eq_ok, refuse_eq_ok] at hvalid
  obtain ⟨-, hblocked, -, -⟩ := hvalid
  rcases hcase : checkpoint.blocked with _ | blocked
  · rfl
  simp only [hcase, any_some, or_eq_false_iff, decide_eq_false_iff_not] at hblocked
  obtain ⟨⟨hpositive, hoffset⟩, hreason⟩ := hblocked
  simp only [all_some, blockedValid, hreason, Bool.not_false, Bool.and_true,
    and_eq_true, decide_eq_true_eq]
  omega

/-- An outbound operation that the loop admits is accepted if it is not enqueued. -/
theorem outboundValid_iff_of_valid {outbound : Outbound}
    (hvalid : validateOutbound checkpoint.nextUpdateID outbound = .ok ()) :
    outboundValid checkpoint outbound ↔ outbound.phase ≠ .enqueued := by
  simp only [validateOutbound, check_eq_ok, refuse_eq_ok, or_eq_false_iff,
    decide_eq_false_iff_not] at hvalid
  obtain ⟨⟨⟨⟨hid, hupdate⟩, hconversation⟩, htext⟩, hphase⟩ := hvalid
  have hnamed : (!blank outbound.operationID && decide (0 < outbound.updateID) &&
      decide (0 < outbound.status.conversationID) && !blank outbound.status.text) := by
    simp only [hid, htext, Bool.not_false, Bool.true_and, Bool.and_true, and_eq_true,
      decide_eq_true_eq]
    omega
  rw [outboundValid, hnamed, Bool.true_and]
  cases hcase : outbound.phase with
  | enqueued => simp
  | other text => simp [hcase] at hphase
  | prepared | unknown =>
    simp only [hcase, refuse_eq_ok, or_eq_false_iff, decide_eq_false_iff_not,
      isSome_eq_false_iff] at hphase
    simp [hphase.1.1]
    omega
  | confirmed =>
    simp only [hcase, refuse_eq_ok, or_eq_false_iff, decide_eq_false_iff_not] at hphase
    obtain ⟨⟨⟨hreceipt, -⟩, hmax⟩, hoffset⟩ := hphase
    rcases hmessage : outbound.receipt with _ | receipt
    · simp [hmessage] at hreceipt
    simp [hmessage] at hreceipt
    simp [hmax]
    omega

/-- A checkpoint that the loop admits passes the three checks on it exactly if it is transferable. -/
theorem checkpoint_checks_iff {stored : StoredCheckpoint} {scope : TelegramScope}
    (hvalid : Coordinator.validateCheckpoint stored.checkpoint = .ok ()) :
    validateConversation stored scope = .ok () ∧
        stored.checkpoint.outbound.all (outboundValid stored.checkpoint) ↔
      Transferable scope stored.checkpoint := by
  simp only [Coordinator.validateCheckpoint, check_eq_ok] at hvalid
  obtain ⟨-, -, -, houtbound⟩ := hvalid
  rcases hcase : stored.checkpoint.outbound with _ | outbound
  · simp [validateConversation, Transferable, hcase, refuse_eq_ok]
  rw [hcase, Option.elim_some] at houtbound
  simp only [validateConversation, Transferable, hcase, refuse_eq_ok, any_some,
    decide_eq_false_iff_not, not_not, all_some, outboundValid_iff_of_valid houtbound,
    some.injEq, forall_eq', ne_eq]
  exact and_comm

/-- For every checkpoint that the loop admits, in a snapshot whose other parts are valid: the snapshot
is valid exactly if the checkpoint is transferable and no secret is found in what is encoded. -/
theorem transferable_iff
    (hcheckpoint : Coordinator.validateCheckpoint snapshot.checkpoint.checkpoint = .ok ())
    (hparts : OtherwiseValid screen snapshot) :
    validateSnapshot screen snapshot = .ok () ↔
      Transferable snapshot.telegramScope snapshot.checkpoint.checkpoint ∧
        ∃ encoded, screen.marshal snapshot = some encoded ∧ screen.sensitive encoded = false := by
  rw [← checkpoint_checks_iff hcheckpoint]
  have hbundle : CoordinatorBundle.validateCheckpoint snapshot.checkpoint = .ok () := by
    simp only [Coordinator.validateCheckpoint, check_eq_ok, refuse_eq_ok] at hcheckpoint
    simp only [CoordinatorBundle.validateCheckpoint, refuse_eq_ok, hcheckpoint.1,
      decide_eq_false hparts.revision, Bool.or_false]
  have hinputs : (snapshot.inputs.any fun input => screen.sensitive input.payload) = false :=
    any_eq_false.mpr fun input hinput => by simp [hparts.inputs input hinput]
  have houtputs : (snapshot.outputs.any fun output =>
      screen.sensitive output.payload || screen.sensitive output.receipt) = false :=
    any_eq_false.mpr fun output houtput => by simp [hparts.outputs output houtput]
  obtain ⟨seen, hseen, hlinks, hjournals, hcallbacks⟩ := hparts.linked
  simp only [validateSnapshot, Bundle.validate, bind_eq_ok, Unique.exists_iff,
    refuse_eq_ok, ok.injEq, exists_eq_left', hparts.version, hparts.configuration,
    hparts.scope, hparts.surfaces, hbundle, hseen, hlinks, hjournals, hcallbacks,
    hinputs, houtputs, hparts.revision, blockedValid_of_valid hcheckpoint]
  cases screen.marshal snapshot with
  | none => simp
  | some encoded => simp [refuse_eq_ok, and_assoc]

/-- Parts with nothing in them: all checks pass. -/
instance emptyParts : Parts Unit where
  validateConfiguration _ := .ok ()
  validateSurfaces _ := .ok ()
  computers _ := []
  validateLinks _ _ _ := .ok ()
  validateCallbacks _ _ _ := .ok ()

/-- A screen that encodes every bundle as the empty text, in which there are no secrets. -/
def emptyScreen : Screen Unit where
  marshal _ := some []
  sensitive _ := false

/-- A checkpoint after update 4, whose answer has been enqueued or confirmed. -/
def sampleCheckpoint (phase : OutboundPhase) (receipt : Option Receipt)
    (durable : Option DurableOutboundReceipt) : Checkpoint where
  initialized := true
  nextUpdateID := 5
  outbound := some {
    operationID := ofText "o", updateID := 4, keyboard := none,
    status := { conversationID := 7, text := ofText "Done" },
    phase, receipt, durable }

/-- A snapshot with only a checkpoint. -/
def sampleSnapshot (checkpoint : Checkpoint) : Bundle Unit where
  version := bundleVersion
  parts := ()
  sessions := []
  telegramScope := { botID := 1, ownerUserID := 7, privateChatID := 7 }
  journals := []
  inputs := []
  outputs := []
  checkpoint := ⟨1, checkpoint⟩

/-- The other parts of the snapshot are valid. -/
theorem sampleSnapshot_otherwiseValid (checkpoint : Checkpoint) :
    OtherwiseValid emptyScreen (sampleSnapshot checkpoint) where
  version := rfl
  configuration := rfl
  scope := rfl
  surfaces := rfl
  linked := ⟨_, rfl, rfl, rfl, rfl⟩
  revision := Nat.one_ne_zero
  inputs := nofun
  outputs := nofun

/-- A checkpoint with a confirmed answer is accepted. -/
theorem confirmed_checkpoint_transferred :
    validateSnapshot emptyScreen (sampleSnapshot (sampleCheckpoint .confirmed (some ⟨9⟩) none)) =
      .ok () := by
  refine (transferable_iff (by decide +kernel) (sampleSnapshot_otherwiseValid _)).mpr
    ⟨?_, [], rfl, rfl⟩
  rintro outbound ⟨⟩
  exact ⟨nofun, rfl⟩

/-- A checkpoint with an enqueued answer is refused. -/
theorem enqueued_checkpoint_refused :
    Coordinator.validateCheckpoint (sampleCheckpoint .enqueued none (some ⟨ofText "o", 1⟩)) = .ok () ∧
      OtherwiseValid emptyScreen
        (sampleSnapshot (sampleCheckpoint .enqueued none (some ⟨ofText "o", 1⟩))) ∧
      validateSnapshot emptyScreen
          (sampleSnapshot (sampleCheckpoint .enqueued none (some ⟨ofText "o", 1⟩))) =
        .error (err .invalidState) :=
  ⟨by decide +kernel, sampleSnapshot_otherwiseValid _, by decide +kernel⟩

end Bria.CoordinatorState
