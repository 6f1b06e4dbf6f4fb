import Bria.MessageJournal.Steps

/-!
# Records over whole runs

What a run can do to a record that is loaded at its start. The facts are about two loads of the file
with any operations and any failures of the file system between them.
-/

namespace Bria.MessageJournal

open Go

variable {limits : Limits} {op : Op} {s : SessionRecord} {later : List Event}

/-! ## Inputs -/

variable {r : InputRecord}

/-- A commit leaves a settled input as it is. -/
theorem Op.commit_settled {token : GoString} {phase : InputRecoveryPhase}
    {f : InputRecord → InputRecord} (h : op.commit = some (token, phase, f))
    (hr : r.phase.settled) : f r = r := by
  cases op <;> simp only [Op.commit, some.injEq, Prod.mk.injEq, reduceCtorEq] at h <;>
    obtain ⟨-, -, rfl⟩ := h <;> cases hp : r.phase <;>
    simp [hp, InputPhase.settled, skipUnresolved, skipAmbiguous] at hr ⊢

variable {r' : InputRecord}

/-- A settled input stays. -/
theorem InputStep.eq_of_settled (h : InputStep limits op s r r')
    (hsound : op.Sound limits) (hr : r.phase.settled) : r' = r := by
  cases h with
  | stay => rfl
  | move _ h =>
    have hunresolved := h.unresolved hsound
    cases hp : r.phase <;> simp [hp, InputPhase.settled, InputPhase.unresolved] at hr hunresolved
  | commit _ hcommit => exact Op.commit_settled hcommit hr

/-- A step that brings an input back to pending is a retry of a failed or unknown one. -/
theorem InputStep.retry_of_pending (h : InputStep limits op s r r')
    (hsound : op.Sound limits) (hr : r.phase ≠ .pending) (hr' : r'.phase = .pending) :
    (∃ ctx, op = .retryInput ctx s.sessionID r.messageID) ∧
      (r.phase = .failed ∨ r.phase = .unknown) := by
  cases h with
  | stay => exact absurd hr' hr
  | move named h =>
    cases h with
    | lease _ _ hp _ | accept _ hp | replace hp | release hp | deliver _ hp => exact absurd hp hr
    | outcome heq =>
      obtain ⟨-, hrep, -⟩ := Op.outcome_spec hsound heq
      simp only at hr'
      simp [hr', InputPhase.reported] at hrep
    | @retry ctx sessionID _ hstuck =>
      simp only [Op.sessionIDs, mem_singleton] at named
      exact ⟨⟨ctx, by rw [named]⟩, hstuck⟩
  | commit _ hcommit =>
    rcases (Op.commit_cases hcommit r).1 with h | h <;> rw [h] at hr'
    · exact absurd hr' hr
    · simp at hr'

/-- A step that changes an input's payload is a replacement by the owner of its lease. -/
theorem InputStep.replace_of_payload (h : InputStep limits op s r r')
    (hne : r'.payload ≠ r.payload) :
    ∃ ctx owner sequence payload,
      op = .replaceLeasedInputPayload ctx s.sessionID r.messageID owner sequence payload := by
  cases h with
  | stay => exact absurd rfl hne
  | move named h =>
    cases h with
    | @replace ctx sessionID owner payload =>
      simp only [Op.sessionIDs, mem_singleton] at named
      exact ⟨ctx, owner, r.sequence, payload, by rw [named]⟩
    | lease | accept | release | deliver | outcome | retry => exact absurd rfl hne
  | commit _ hcommit =>
    rcases (Op.commit_cases hcommit r).1 with h | h <;> rw [h] at hne <;> exact absurd rfl hne

/-- What a run keeps of an input: `r` is loaded before it and `r₁` after it. -/
structure InputKept (limits : Limits) (disk : Disk) (events : List Event)
    (sessionID messageID : GoString) (r r₁ : InputRecord) : Prop where
  /-- Its message id and its sequence. -/
  identity : r₁.messageID = r.messageID ∧ r₁.sequence = r.sequence
  /-- A settled outcome, with the lease and the payload. -/
  settled : r.phase.settled → r₁.phase = r.phase ∧ r₁.lease = r.lease ∧ r₁.payload = r.payload
  /-- It is pending again only by a retry, from failed or unknown. -/
  returned : r.phase ≠ .pending → r₁.phase = .pending →
    ∃ before ctx faults after,
      events = before ++ ⟨.retryInput ctx sessionID messageID, faults⟩ :: after ∧
      ∃ d r₀, read limits (run limits disk before) = .ok d ∧
        lookupInput d sessionID messageID = some r₀ ∧
        (r₀.phase = .failed ∨ r₀.phase = .unknown)
  /-- Its payload, unless the owner of its lease replaces it. -/
  payload : r₁.payload ≠ r.payload → ∃ event ∈ events, ∃ ctx owner sequence payload,
    event.op = .replaceLeasedInputPayload ctx sessionID messageID owner sequence payload

variable {disk : Disk} {faults : Faults} {d d1 : Document} {sessionID messageID : GoString}

theorem lookupInput_ids (h : lookupInput d sessionID messageID = some r) :
    r.messageID = messageID := by
  obtain ⟨s, -, hfind⟩ := bind_eq_some_iff.mp h
  simpa using find?_some hfind

theorem InputKept.refl (r : InputRecord) (events : List Event) :
    InputKept limits disk events sessionID messageID r r :=
  ⟨⟨rfl, rfl⟩, fun _ => ⟨rfl, rfl, rfl⟩, fun h h' => absurd h' h, fun h => absurd rfl h⟩

variable {events : List Event}

theorem InputKept.trans {r1 r2 : InputRecord}
    (h : InputKept limits disk events sessionID messageID r r1)
    (h1 : InputKept limits (run limits disk events) later sessionID messageID r1 r2) :
    InputKept limits disk (events ++ later) sessionID messageID r r2 := by
  refine ⟨⟨h1.identity.1.trans h.identity.1, h1.identity.2.trans h.identity.2⟩, ?_, ?_, ?_⟩
  · intro hr
    obtain ⟨hp, hl, hpay⟩ := h.settled hr
    obtain ⟨hp1, hl1, hpay1⟩ := h1.settled (by rw [hp]; exact hr)
    exact ⟨hp1.trans hp, hl1.trans hl, hpay1.trans hpay⟩
  · intro hr hr2
    by_cases hr1 : r1.phase = .pending
    · obtain ⟨before, ctx, faults, after, rfl, hfrom⟩ := h.returned hr hr1
      exact ⟨before, ctx, faults, after ++ later, by simp, hfrom⟩
    obtain ⟨before, ctx, faults, after, rfl, d, r0, hd, hr0⟩ := h1.returned hr1 hr2
    exact ⟨events ++ before, ctx, faults, after, by simp, d, r0, by rw [run_append]; exact hd, hr0⟩
  intro hne
  by_cases hpay : r1.payload = r.payload
  · obtain ⟨event, hmem, heq⟩ := h1.payload (by rw [hpay]; exact hne)
    exact ⟨event, mem_append_right _ hmem, heq⟩
  obtain ⟨event, hmem, heq⟩ := h.payload hpay
  exact ⟨event, mem_append_left _ hmem, heq⟩

/-- What one step keeps of an input. -/
theorem Op.step_inputKept (hread : read limits disk = .ok d)
    (hread1 : read limits (op.step limits faults disk) = .ok d1)
    (hr : lookupInput d sessionID messageID = some r) :
    ∃ r1, lookupInput d1 sessionID messageID = some r1 ∧
      InputKept limits disk [⟨op, faults⟩] sessionID messageID r r1 := by
  obtain ⟨r1, hr1, rfl | ⟨s, r', hs, hencoded, hadm, hstep, rfl⟩⟩ := Op.step_input hread hread1 hr
  · exact ⟨_, hr1, .refl _ _⟩
  have hsound := Op.sound_of_admitted hadm
  have hsid := sessionID_of_sessionAt hs
  have hmid := lookupInput_ids hr
  refine ⟨_, hr1, ?_, ?_, ?_, ?_⟩
  · have hid := hstep.identity
    exact ⟨by simp only [InputRecord.reencode, hid.1, hencoded.messageID], hid.2⟩
  · intro hsettled
    obtain rfl := hstep.eq_of_settled hsound hsettled
    exact ⟨rfl, by simp only [InputRecord.reencode, LeaseRecord.reencode, hencoded.owner], rfl⟩
  · intro hp hp'
    obtain ⟨⟨ctx, rfl⟩, hfrom⟩ := hstep.retry_of_pending hsound hp hp'
    exact ⟨[], ctx, faults, [], by rw [hsid, hmid]; rfl, d, r, hread, hr, hfrom⟩
  intro hne
  obtain ⟨ctx, owner, sequence, payload, rfl⟩ := hstep.replace_of_payload hne
  exact ⟨_, mem_singleton_self _, ctx, owner, sequence, payload, by rw [hsid, hmid]⟩

/-- What a run keeps of an input. -/
theorem run_inputKept (hread : read limits disk = .ok d)
    (hread1 : read limits (run limits disk events) = .ok d1)
    (hr : lookupInput d sessionID messageID = some r) :
    ∃ r1, lookupInput d1 sessionID messageID = some r1 ∧
      InputKept limits disk events sessionID messageID r r1 :=
  run_follow (K := fun disk events => InputKept limits disk events sessionID messageID)
    (fun _ r => .refl r []) .trans Op.step_inputKept hread hread1 hr

/-! ## Outputs -/

/-- The phases that no operation leaves. -/
def OutputPhase.settled : OutputPhase → Bool
  | .confirmed | .superseded => true
  | _ => false

/-- A settled output stays. -/
theorem OutputStep.eq_of_settled {r r' : OutputRecord} (h : OutputStep op s r r')
    (hr : r.phase.settled) : r' = r := by
  have hpending : r.phase ≠ .pending := by
    intro hp
    simp [hp, OutputPhase.settled] at hr
  cases h with
  | stay => rfl
  | move _ h =>
    cases h with
    | lease hfirst => exact absurd (by simpa using find?_some hfirst) hpending
    | confirm hp | finish _ hp => exact absurd hp hpending
    | retry hstuck => rcases hstuck with h | h <;> simp [h, OutputPhase.settled] at hr
  | supersede _ hswept =>
    simp only [supersedable, and_eq_true, decide_eq_true_eq] at hswept
    exact absurd hswept.1.1.2 hpending

/-- A step that brings an output back to pending is a retry of a failed or unknown one. -/
theorem OutputStep.retry_of_pending {r r' : OutputRecord} (h : OutputStep op s r r')
    (hr : r.phase ≠ .pending) (hr' : r'.phase = .pending) :
    (∃ ctx, op = .retryOutput ctx s.sessionID r.operationID) ∧
      (r.phase = .failed ∨ r.phase = .unknown) := by
  cases h with
  | stay => exact absurd hr' hr
  | move named h =>
    cases h with
    | lease hfirst => exact absurd (by simpa using find?_some hfirst) hr
    | confirm hp | finish _ hp => exact absurd hp hr
    | @retry ctx sessionID _ hstuck =>
      simp only [Op.sessionIDs, mem_singleton] at named
      exact ⟨⟨ctx, by rw [named]⟩, hstuck⟩
  | supersede => simp at hr'

/-- What a run keeps of an output: `r` is loaded before it and `r₁` after it. -/
structure OutputKept (limits : Limits) (disk : Disk) (events : List Event)
    (sessionID operationID : GoString) (r r₁ : OutputRecord) : Prop where
  /-- Its operation id, its sequence, its kind and its payload. -/
  identity : r₁.operationID = r.operationID ∧ r₁.sequence = r.sequence ∧ r₁.kind = r.kind ∧
    r₁.payload = r.payload
  /-- A settled outcome, with the lease and the receipt. -/
  settled : r.phase.settled → r₁.phase = r.phase ∧ r₁.lease = r.lease ∧ r₁.receipt = r.receipt
  /-- It is pending again only by a retry, from failed or unknown. -/
  returned : r.phase ≠ .pending → r₁.phase = .pending →
    ∃ before ctx faults after,
      events = before ++ ⟨.retryOutput ctx sessionID operationID, faults⟩ :: after ∧
      ∃ d r₀, read limits (run limits disk before) = .ok d ∧
        lookupOutput d sessionID operationID = some r₀ ∧
        (r₀.phase = .failed ∨ r₀.phase = .unknown)

variable {operationID : GoString}

theorem OutputKept.refl (r : OutputRecord) (events : List Event) :
    OutputKept limits disk events sessionID operationID r r :=
  ⟨⟨rfl, rfl, rfl, rfl⟩, fun _ => ⟨rfl, rfl, rfl⟩, fun h h' => absurd h' h⟩

theorem OutputKept.trans {r r1 r2 : OutputRecord}
    (h : OutputKept limits disk events sessionID operationID r r1)
    (h1 : OutputKept limits (run limits disk events) later sessionID operationID r1 r2) :
    OutputKept limits disk (events ++ later) sessionID operationID r r2 := by
  obtain ⟨hid, hseq, hkind, hpay⟩ := h.identity
  obtain ⟨hid1, hseq1, hkind1, hpay1⟩ := h1.identity
  refine ⟨⟨hid1.trans hid, hseq1.trans hseq, hkind1.trans hkind, hpay1.trans hpay⟩, ?_, ?_⟩
  · intro hr
    obtain ⟨hp, hl, hrec⟩ := h.settled hr
    obtain ⟨hp1, hl1, hrec1⟩ := h1.settled (by rw [hp]; exact hr)
    exact ⟨hp1.trans hp, hl1.trans hl, hrec1.trans hrec⟩
  intro hr hr2
  by_cases hr1 : r1.phase = .pending
  · obtain ⟨before, ctx, faults, after, rfl, hfrom⟩ := h.returned hr hr1
    exact ⟨before, ctx, faults, after ++ later, by simp, hfrom⟩
  obtain ⟨before, ctx, faults, after, rfl, d, r0, hd, hr0⟩ := h1.returned hr1 hr2
  exact ⟨events ++ before, ctx, faults, after, by simp, d, r0, by rw [run_append]; exact hd, hr0⟩

theorem Op.step_outputKept {r : OutputRecord} (hread : read limits disk = .ok d)
    (hread1 : read limits (op.step limits faults disk) = .ok d1)
    (hr : lookupOutput d sessionID operationID = some r) :
    ∃ r1, lookupOutput d1 sessionID operationID = some r1 ∧
      OutputKept limits disk [⟨op, faults⟩] sessionID operationID r r1 := by
  obtain ⟨r1, hr1, rfl | ⟨s, r', hs, hencoded, hstep, rfl⟩⟩ := Op.step_output hread hread1 hr
  · exact ⟨_, hr1, .refl _ _⟩
  have hsid := sessionID_of_sessionAt hs
  have hoid : r.operationID = operationID := by
    obtain ⟨s, -, hfind⟩ := bind_eq_some_iff.mp hr
    simpa using find?_some hfind
  refine ⟨_, hr1, ?_, ?_, ?_⟩
  · obtain ⟨hid, hseq, hkind, hpay⟩ := hstep.identity
    exact ⟨by simp only [OutputRecord.reencode, hid, hencoded.operationID], hseq,
      by simp only [OutputRecord.reencode, hkind, hencoded.kind], hpay⟩
  · intro hsettled
    obtain rfl := hstep.eq_of_settled hsettled
    exact ⟨rfl, by simp only [OutputRecord.reencode, LeaseRecord.reencode, hencoded.owner],
      hencoded.receipt⟩
  intro hp hp'
  obtain ⟨⟨ctx, rfl⟩, hfrom⟩ := hstep.retry_of_pending hp hp'
  exact ⟨[], ctx, faults, [], by rw [hsid, hoid]; rfl, d, r, hread, hr, hfrom⟩

/-- What a run keeps of an output. -/
theorem run_outputKept {r : OutputRecord} (hread : read limits disk = .ok d)
    (hread1 : read limits (run limits disk events) = .ok d1)
    (hr : lookupOutput d sessionID operationID = some r) :
    ∃ r1, lookupOutput d1 sessionID operationID = some r1 ∧
      OutputKept limits disk events sessionID operationID r r1 :=
  run_follow (K := fun disk events => OutputKept limits disk events sessionID operationID)
    (fun _ r => .refl r []) .trans Op.step_outputKept hread hread1 hr

/-! ## All records -/

/-- Every record that a journal holds before a run is there after it. Settled outcomes are
absorbing, only a retry makes a failed or unknown record pending again, and what identifies a
record never changes. -/
theorem settled_records_absorbing (limits : Limits) (disk : Disk) (events : List Event)
    (d d₁ : Document) (hread : read limits disk = .ok d)
    (hread₁ : read limits (run limits disk events) = .ok d₁) :
    (∀ sessionID messageID r, lookupInput d sessionID messageID = some r →
      ∃ r₁, lookupInput d₁ sessionID messageID = some r₁ ∧
        InputKept limits disk events sessionID messageID r r₁) ∧
      ∀ sessionID operationID r, lookupOutput d sessionID operationID = some r →
        ∃ r₁, lookupOutput d₁ sessionID operationID = some r₁ ∧
          OutputKept limits disk events sessionID operationID r r₁ :=
  ⟨fun _ _ _ hr => run_inputKept hread hread₁ hr, fun _ _ _ hr => run_outputKept hread hread₁ hr⟩

/-- A session `s` with a completed input `m` and a waiting input `n`. -/
def completedDocument : Document where
  version := formatVersion
  sessions :=
    [{ sessionID := [0x73], nextSequence := 2
       inputs := [⟨[0x6D], 1, [], none, .completed, {}⟩, ⟨[0x6E], 2, [], none, .pending, {}⟩] }]

/-- A retry and a recovery that skips. -/
def retriedAndSkipped : List Event :=
  [⟨.retryInput {} [0x73] [0x6D], {}⟩, ⟨.beginInputRecovery {} [0x73] [0x74] false, {}⟩,
    ⟨.commitInputRecoverySkip {} [0x73] [0x74], {}⟩]

/-- The completed input stays completed through them. -/
theorem completed_input_absorbing :
    ∃ d₁ r₁, read defaultLimits (run defaultLimits (.stored (marshal completedDocument))
        retriedAndSkipped) = .ok d₁ ∧
      lookupInput d₁ [0x73] [0x6D] = some r₁ ∧ r₁.phase = .completed := by
  have h := settled_records_absorbing defaultLimits (.stored (marshal completedDocument))
    retriedAndSkipped completedDocument _ rfl rfl
  obtain ⟨r₁, hr1, hkept⟩ := h.1 [0x73] [0x6D] _ rfl
  exact ⟨_, r₁, rfl, hr1, (hkept.settled rfl).1⟩

end Bria.MessageJournal
