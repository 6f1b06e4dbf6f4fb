import Bria.MessageJournal.Operation

/-!
# What an operation can do to a session

The life cycles of an input, of an output and of a recovery boundary, as relations. `InputMove` and
`OutputMove` are the writes of one record: which operation makes them, from which record, under
which guards. `SessionMove` adds the changes that are no write of one record. Whatever change an
operation computes is one of these (`Op.sessionMove`), so what holds of every move holds of every
operation.
-/

namespace Bria.MessageJournal

open Go

/-! ## Families of operations -/

/-- The operations that end a delivery without acceptance: the input, the lease owner and the
phase they record. -/
def Op.delivery : Op → Option (GoString × GoString × InputPhase)
  | .markInputDeliveryFailed _ _ messageID owner => some (messageID, owner, .failed)
  | .markInputDeliveryUnknown _ _ messageID owner => some (messageID, owner, .unknown)
  | _ => none

/-- The operations that record an outcome: the input, its sequence (zero for any), the outcome and
the phase they expect. -/
def Op.outcome : Op → Option (GoString × Nat × InputPhase × InputPhase)
  | .completeInput _ _ messageID => some (messageID, 0, .completed, .accepted)
  | .failInput _ _ messageID => some (messageID, 0, .failed, .accepted)
  | .markInputUnknown _ _ messageID => some (messageID, 0, .unknown, .accepted)
  | .resolveUnknownInput _ _ messageID sequence outcome =>
    some (messageID, sequence, outcome, .unknown)
  | .resolveAcceptedInput _ _ messageID sequence outcome =>
    some (messageID, sequence, outcome, .accepted)
  | _ => none

/-- The operations that commit a recovery: the token, the phase in which they leave the boundary
and what they do to an input it covers. -/
def Op.commit : Op → Option (GoString × InputRecoveryPhase × (InputRecord → InputRecord))
  | .commitInputRecoverySkip _ _ token => some (token, .committed, skipUnresolved)
  | .commitInputRecoveryAttach _ _ token => some (token, .attached, skipAmbiguous)
  | _ => none

/-- The operations that end an output without a receipt: the output, the lease owner and the phase
they record. -/
def Op.finish : Op → Option (GoString × GoString × OutputPhase)
  | .markOutputFailed _ _ operationID owner => some (operationID, owner, .failed)
  | .markOutputUnknown _ _ operationID owner => some (operationID, owner, .unknown)
  | _ => none

/-! ## Moves -/

/-- The writes of one input of the session `s`. -/
inductive InputMove (limits : Limits) (s : SessionRecord) : Op → InputRecord → InputRecord → Prop
  /-- The first input that was not handed off, when it is pending and not leased. -/
  | lease {ctx sessionID owner now duration r}
      (first : s.inputs.find? (!·.phase.handedOff) = some r)
      (closed : s.recoveryOpen = false) (pending : r.phase = .pending)
      (free : r.lease.live now = false) :
      InputMove limits s (.leaseNextInput ctx sessionID owner now duration) r
        { r with lease := newLease owner now duration }
  /-- The owner of the lease reports acceptance, above an open boundary. -/
  | accept {ctx sessionID owner r}
      (above : ∀ recovery, s.recovery = some recovery → recovery.phase = .opened →
        recovery.throughSequence < r.sequence)
      (pending : r.phase = .pending) (owned : r.lease.owner = owner) (named : owner ≠ []) :
      InputMove limits s (.markInputAccepted ctx sessionID r.messageID owner) r
        { r with phase := .accepted, lease := {} }
  /-- The owner of the lease writes another payload. -/
  | replace {ctx sessionID owner payload r}
      (pending : r.phase = .pending) (owned : r.lease.owner = owner) (named : owner ≠ [])
      (other : r.payload ≠ payload) :
      InputMove limits s
        (.replaceLeasedInputPayload ctx sessionID r.messageID owner r.sequence payload) r
        { r with payload }
  /-- The owner of the lease gives it up. -/
  | release {ctx sessionID owner r}
      (pending : r.phase = .pending) (owned : r.lease.owner = owner) (named : owner ≠ []) :
      InputMove limits s (.releaseInputLease ctx sessionID r.messageID owner) r
        { r with lease := {} }
  /-- The owner of the lease reports that the delivery failed or may have happened. -/
  | deliver {op owner phase r} (delivery : op.delivery = some (r.messageID, owner, phase))
      (pending : r.phase = .pending) (owned : r.lease.owner = owner) (named : owner ≠ []) :
      InputMove limits s op r { r with phase, lease := {} }
  /-- An outcome of an input that was handed off. -/
  | outcome {op sequence outcome source r}
      (outcome_eq : op.outcome = some (r.messageID, sequence, outcome, source))
      (exact : sequence ≠ 0 → r.sequence = sequence) (unskipped : r.phase ≠ .skipped)
      (other : r.phase ≠ outcome) (definite : r.phase = .accepted → outcome ≠ .unknown)
      (source_eq : r.phase = source ∨ sequence ≠ 0 ∧ source = .accepted ∧
        (r.phase = .unknown ∨ r.phase = .failed ∧ outcome = .terminalFailed)) :
      InputMove limits s op r { r with phase := outcome }
  /-- An operator's retry. -/
  | retry {ctx sessionID r} (stuck : r.phase = .failed ∨ r.phase = .unknown)
      (room : s.inputs.countP (·.phase = .pending) ≠ limits.maxPendingInputsPerSession) :
      InputMove limits s (.retryInput ctx sessionID r.messageID) r
        { r with phase := .pending, lease := {} }

/-- The writes of one output of the session `s`. -/
inductive OutputMove (s : SessionRecord) : Op → OutputRecord → OutputRecord → Prop
  /-- The first pending output, when it is not leased. -/
  | lease {ctx sessionIDs owner now duration r}
      (first : s.outputs.find? (·.phase = .pending) = some r) (free : r.lease.live now = false) :
      OutputMove s (.leaseNextOutput ctx sessionIDs owner now duration) r
        { r with lease := newLease owner now duration }
  /-- The owner of the lease reports the receipt. -/
  | confirm {ctx sessionID owner receipt r}
      (pending : r.phase = .pending) (owned : r.lease.owner = owner) (named : owner ≠ []) :
      OutputMove s (.confirmOutput ctx sessionID r.operationID owner receipt) r
        { r with phase := .confirmed, receipt, lease := {} }
  /-- The owner of the lease reports that the sending failed or may have happened. -/
  | finish {op owner phase r} (finish_eq : op.finish = some (r.operationID, owner, phase))
      (pending : r.phase = .pending) (owned : r.lease.owner = owner) (named : owner ≠ []) :
      OutputMove s op r { r with phase, lease := {} }
  /-- An operator's retry. -/
  | retry {ctx sessionID r} (stuck : r.phase = .failed ∨ r.phase = .unknown) :
      OutputMove s (.retryOutput ctx sessionID r.operationID) r
        { r with phase := .pending, lease := {} }

/-- The changes of the session `s`. -/
inductive SessionMove (limits : Limits) (op : Op) (s : SessionRecord) : SessionRecord → Prop
  /-- A new input at the end, with the next sequence. -/
  | enqueueInput {ctx sessionID messageID payload attachments}
      (op_eq : op = .enqueueInput ctx sessionID messageID payload attachments)
      (fresh : ∀ r ∈ s.inputs, r.messageID ≠ messageID)
      (room : s.inputs.length ≠ limits.maxInputsPerSession)
      (queue : s.inputs.countP (·.phase = .pending) ≠ limits.maxPendingInputsPerSession) :
      SessionMove limits op s
        { s with
          nextSequence := s.nextSequence + 1
          inputs := s.inputs ++ [⟨messageID, s.nextSequence + 1, payload,
            attachmentRecords attachments, .pending, {}⟩] }
  /-- A write of one input. -/
  | writeInput {p r r'} (found : s.inputs.find? p = some r) (move : InputMove limits s op r r') :
      SessionMove limits op s { s with inputs := Table.replaceFirst p r' s.inputs }
  /-- A later owner takes over the open boundary where it is. -/
  | takeOver {ctx sessionID token legacyBlockedOnly through} {before : GoString}
      (op_eq : op = .beginInputRecovery ctx sessionID token legacyBlockedOnly)
      (opened : s.recovery = some ⟨before, through, .opened⟩) (other : before ≠ token) :
      SessionMove limits op s { s with recovery := some ⟨token, through, .opened⟩ }
  /-- A boundary at the last sequence. -/
  | openBoundary {ctx sessionID token legacyBlockedOnly}
      (op_eq : op = .beginInputRecovery ctx sessionID token legacyBlockedOnly)
      (closed : s.recoveryOpen = false)
      (other : ∀ recovery, s.recovery = some recovery → recovery.token ≠ token)
      (unresolved : hasUnresolvedInputs s.inputs) :
      SessionMove limits op s { s with recovery := some ⟨token, s.nextSequence, .opened⟩ }
  /-- The owner of the open boundary closes it. -/
  | commit {token through phase f} (commit_eq : op.commit = some (token, phase, f))
      (opened : s.recovery = some ⟨token, through, .opened⟩) :
      SessionMove limits op s
        { s with
          inputs := applyThrough through f s.inputs
          recovery := some ⟨token, through, phase⟩ }
  /-- A new output at the end, with the next sequence. -/
  | enqueueOutput {ctx sessionID operationID kind payload}
      (op_eq : op = .enqueueOutput ctx sessionID operationID kind payload)
      (fresh : ∀ r ∈ s.outputs, r.operationID ≠ operationID)
      (room : s.outputs.length ≠ limits.maxOutputsPerSession) :
      SessionMove limits op s
        { s with
          nextSequence := s.nextSequence + 1
          outputs := s.outputs ++ [⟨operationID, s.nextSequence + 1, kind, payload, .pending,
            [], {}⟩] }
  /-- A write of one output. -/
  | writeOutput {p r r'} (found : s.outputs.find? p = some r) (move : OutputMove s op r r') :
      SessionMove limits op s { s with outputs := Table.replaceFirst p r' s.outputs }
  /-- The unleased outputs of some kinds before one that supersedes them. -/
  | supersede {ctx sessionID keepOperationID kinds keepSequence}
      (op_eq : op = .supersedePendingOutputs ctx sessionID keepOperationID kinds)
      (some_swept : s.outputs.any (supersedable keepOperationID keepSequence kinds)) :
      SessionMove limits op s
        { s with outputs := s.outputs.map (supersedeRecord keepOperationID keepSequence kinds) }

/-! ## Every change is a move -/

variable {s s' : SessionRecord} {messageID operationID payload token : GoString}
  {r r' : InputRecord} {now : Time} {duration : Int}

/-- A transition of one input succeeds exactly when the input is there and its guards pass. -/
theorem transitionInputRecord_eq_ok {transition : InputTransition} :
    (transitionInputRecord messageID transition s).2 = .ok s' ↔
      ∃ r r', s.inputs.find? (·.messageID = messageID) = some r ∧ r.messageID = messageID ∧
        transition s r = .ok r' ∧
        s' = { s with inputs := Table.replaceFirst (·.messageID = messageID) r' s.inputs } := by
  unfold transitionInputRecord
  rcases hr : s.inputs.find? (·.messageID = messageID) with _ | r
  · simp [hr]
  have hid : r.messageID = messageID := by simpa using find?_some hr
  rcases ht : transition s r with e | r'
  · simp [hr, ht]
  · simp [hr, ht, hid, eq_comm (b := s')]

/-- A transition of one output succeeds exactly when the output is there and its guards pass. -/
theorem transitionOutputRecord_eq_ok {transition : OutputTransition} :
    (transitionOutputRecord operationID transition s).2 = .ok s' ↔
      ∃ r r', s.outputs.find? (·.operationID = operationID) = some r ∧
        r.operationID = operationID ∧ transition r = .ok r' ∧
        s' = { s with
          outputs := Table.replaceFirst (·.operationID = operationID) r' s.outputs } := by
  unfold transitionOutputRecord
  rcases hr : s.outputs.find? (·.operationID = operationID) with _ | r
  · simp [hr]
  have hid : r.operationID = operationID := by simpa using find?_some hr
  rcases ht : transition r with e | r'
  · simp [hr, ht]
  · simp [hr, ht, hid, eq_comm (b := s')]

variable {owner : GoString}

theorem owner_check {holder : GoString} :
    (decide (holder ≠ owner) || decide (owner = [])) = false ↔ holder = owner ∧ owner ≠ [] := by
  simp

theorem deliveryTransition_eq_ok {phase : InputPhase}
    (h : deliveryTransition phase owner s r = .ok r') :
    r.phase = .pending ∧ r.lease.owner = owner ∧ owner ≠ [] ∧
      r' = { r with phase, lease := {} } := by
  simp only [deliveryTransition, check_eq_ok, refuse_eq_ok, owner_check,
    decide_eq_false_iff_not, not_not, ok.injEq] at h
  obtain ⟨-, hp, ⟨ho, hne⟩, rfl⟩ := h
  exact ⟨hp, ho, hne, rfl⟩

theorem outcomeTransition_eq_ok {sequence : Nat} {outcome source : InputPhase}
    (h : outcomeTransition sequence outcome source s r = .ok r') :
    (sequence ≠ 0 → r.sequence = sequence) ∧ r.phase ≠ .skipped ∧ r.phase ≠ outcome ∧
      (r.phase = .accepted → outcome ≠ .unknown) ∧
      (r.phase = source ∨ sequence ≠ 0 ∧ source = .accepted ∧
        (r.phase = .unknown ∨ r.phase = .failed ∧ outcome = .terminalFailed)) ∧
      r' = { r with phase := outcome } := by
  simp only [outcomeTransition, check_eq_ok, refuse_eq_ok, ok.injEq] at h
  obtain ⟨hseq, hskip, hsame, hfrom, rfl⟩ := h
  simp only [and_eq_false_iff, or_eq_false_iff, decide_eq_false_iff_not, not_not,
    not_eq_false', and_eq_true, or_eq_true, decide_eq_true_eq, ne_eq] at *
  exact ⟨fun h => hseq.resolve_left h, hskip, hsame.1,
    fun ha hu => hsame.2.elim (absurd ha) (absurd hu), by tauto, trivial⟩

variable {limits : Limits}

theorem enqueueInputRecord_eq_ok {attachments : List AttachmentRef}
    (h : (enqueueInputRecord limits messageID payload attachments s).2 = .ok s') :
    (∀ r ∈ s.inputs, r.messageID ≠ messageID) ∧
      s.inputs.length ≠ limits.maxInputsPerSession ∧
      s.inputs.countP (·.phase = .pending) ≠ limits.maxPendingInputsPerSession ∧
      s' = { s with
        nextSequence := s.nextSequence + 1
        inputs := s.inputs ++ [⟨messageID, s.nextSequence + 1, payload,
          attachmentRecords attachments, .pending, {}⟩] } := by
  unfold enqueueInputRecord at h
  rcases hr : s.inputs.find? (·.messageID = messageID) with _ | r
  · simp only [hr] at h
    split_ifs at h with hroom hqueue hcounter
    simp only [ok.injEq] at h
    exact ⟨by simpa using List.find?_eq_none.mp hr, hroom, hqueue, h.symm⟩
  simp only [hr] at h
  split_ifs at h

theorem enqueueOutputRecord_eq_ok {kind : GoString}
    (h : (enqueueOutputRecord limits operationID kind payload s).2 = .ok s') :
    (∀ r ∈ s.outputs, r.operationID ≠ operationID) ∧
      s.outputs.length ≠ limits.maxOutputsPerSession ∧
      s' = { s with
        nextSequence := s.nextSequence + 1
        outputs := s.outputs ++ [⟨operationID, s.nextSequence + 1, kind, payload, .pending, [],
          {}⟩] } := by
  unfold enqueueOutputRecord at h
  rcases hr : s.outputs.find? (·.operationID = operationID) with _ | r
  · simp only [hr] at h
    split_ifs at h with hroom
    simp only [ok.injEq] at h
    exact ⟨by simpa using List.find?_eq_none.mp hr, fun h => hroom (.inl h), h.symm⟩
  simp only [hr] at h
  split_ifs at h

theorem leaseNextInputRecord_eq_ok (h : (leaseNextInputRecord owner now duration s).2 = .ok s') :
    ∃ r, s.inputs.find? (!·.phase.handedOff) = some r ∧
      s.recoveryOpen = false ∧ r.phase = .pending ∧ r.lease.live now = false ∧
      (leaseNextInputRecord owner now duration s).1 =
        inputFromRecord s.sessionID { r with lease := newLease owner now duration } ∧
      s' = { s with
        inputs := Table.replaceFirst (!·.phase.handedOff)
          { r with lease := newLease owner now duration } s.inputs } := by
  unfold leaseNextInputRecord at h ⊢
  cases hopen : s.recoveryOpen with
  | true => simp [hopen] at h
  | false =>
    rcases hr : s.inputs.find? (!·.phase.handedOff) with _ | r
    · simp [hopen, hr] at h
    simp only [hopen, hr, false_eq_true, if_false] at h ⊢
    split_ifs at h ⊢ with hguard
    simp only [not_or, not_not, Bool.not_eq_true] at hguard
    simp only [ok.injEq] at h
    exact ⟨r, rfl, trivial, hguard.1, hguard.2, rfl, h.symm⟩

theorem leaseNextOutputRecord_eq_some {output : Output}
    (h : leaseNextOutputRecord owner now duration s = some (output, s')) :
    ∃ r, s.outputs.find? (·.phase = .pending) = some r ∧ r.lease.live now = false ∧
      output = outputFromRecord s.sessionID { r with lease := newLease owner now duration } ∧
      s' = { s with
        outputs := Table.replaceFirst (·.phase = .pending)
          { r with lease := newLease owner now duration } s.outputs } := by
  unfold leaseNextOutputRecord at h
  rcases hr : s.outputs.find? (·.phase = .pending) with _ | r
  · simp [hr] at h
  simp only [hr] at h
  split_ifs at h with hlive
  simp only [some.injEq, Prod.mk.injEq] at h
  exact ⟨r, hr, by simpa using hlive, h.1.symm, h.2.symm⟩

theorem beginRecovery_eq_ok {legacyBlockedOnly : Bool}
    (h : (beginRecovery token legacyBlockedOnly s).2 = .ok s') :
    (∃ before through, s.recovery = some ⟨before, through, .opened⟩ ∧ before ≠ token ∧
        s' = { s with recovery := some ⟨token, through, .opened⟩ }) ∨
      (s.recoveryOpen = false ∧
        (∀ recovery, s.recovery = some recovery → recovery.token ≠ token) ∧
        hasUnresolvedInputs s.inputs ∧
        s' = { s with recovery := some ⟨token, s.nextSequence, .opened⟩ }) := by
  have hopen : ∀ {s' : SessionRecord}, (openRecovery token legacyBlockedOnly s).2 = .ok s' →
      hasUnresolvedInputs s.inputs ∧
        s' = { s with recovery := some ⟨token, s.nextSequence, .opened⟩ } := by
    intro s' h
    unfold openRecovery at h
    split_ifs at h with hguard
    simp only [ok.injEq] at h
    refine ⟨?_, h.symm⟩
    cases hu : hasUnresolvedInputs s.inputs
    · simp [hu] at hguard
    · rfl
  unfold beginRecovery at h
  rcases hr : s.recovery with _ | ⟨before, through, phase⟩
  · simp only [hr] at h
    obtain ⟨hun, rfl⟩ := hopen h
    exact .inr ⟨by simp [SessionRecord.recoveryOpen, hr], by simp, hun, rfl⟩
  simp only [hr] at h
  split_ifs at h with htoken hphase
  · subst hphase
    simp only [ok.injEq] at h
    exact .inl ⟨before, through, rfl, htoken, h.symm⟩
  obtain ⟨hun, rfl⟩ := hopen h
  exact .inr ⟨by simp [SessionRecord.recoveryOpen, hr, hphase], by simpa using htoken, hun, rfl⟩

theorem commitRecovery_eq_ok {phase : InputRecoveryPhase} {f : InputRecord → InputRecord}
    (h : (commitRecovery token phase f s).2 = .ok s') :
    ∃ through, s.recovery = some ⟨token, through, .opened⟩ ∧
      s' = { s with
        inputs := applyThrough through f s.inputs
        recovery := some ⟨token, through, phase⟩ } := by
  unfold commitRecovery at h
  rcases hr : s.recovery with _ | ⟨holder, through, was⟩
  · simp [hr] at h
  simp only [hr] at h
  split_ifs at h with htoken hsame hopen
  simp only [not_not] at htoken hopen
  subst htoken hopen
  simp only [ok.injEq] at h
  exact ⟨through, rfl, h.symm⟩

/-- Every change of a session is a move. -/
theorem Op.sessionMove {op : Op}
    (h : op.onSession limits s = .ok s') : SessionMove limits op s s' := by
  cases op with
  | enqueueInput =>
    obtain ⟨hfresh, hroom, hqueue, rfl⟩ := enqueueInputRecord_eq_ok h
    exact .enqueueInput rfl hfresh hroom hqueue
  | leaseNextInput =>
    obtain ⟨r, hfirst, hclosed, hpending, hfree, -, rfl⟩ := leaseNextInputRecord_eq_ok h
    exact .writeInput hfirst (.lease hfirst hclosed hpending hfree)
  | markInputAccepted ctx sessionID messageID owner =>
    obtain ⟨r, r', hfound, rfl, ht, rfl⟩ := transitionInputRecord_eq_ok.mp h
    simp only [acceptTransition, check_eq_ok, refuse_eq_ok, owner_check,
      decide_eq_false_iff_not, not_not, ok.injEq] at ht
    obtain ⟨habove, -, -, hpending, ⟨howned, hnamed⟩, rfl⟩ := ht
    refine .writeInput hfound (.accept (fun recovery hrec hopened => ?_) hpending howned hnamed)
    simpa [hrec, hopened] using habove
  | replaceLeasedInputPayload ctx sessionID messageID owner sequence payload =>
    obtain ⟨r, r', hfound, rfl, ht, rfl⟩ := transitionInputRecord_eq_ok.mp h
    simp only [replaceTransition, check_eq_ok, refuse_eq_ok, or_eq_false_iff,
      decide_eq_false_iff_not, not_not, ok.injEq] at ht
    obtain ⟨⟨hpending, rfl⟩, ⟨howned, hnamed⟩, hother, rfl⟩ := ht
    exact .writeInput hfound (.replace hpending howned hnamed hother)
  | releaseInputLease ctx sessionID messageID owner =>
    obtain ⟨r, r', hfound, rfl, ht, rfl⟩ := transitionInputRecord_eq_ok.mp h
    simp only [releaseTransition, check_eq_ok, refuse_eq_ok, owner_check,
      decide_eq_false_iff_not, not_not, ok.injEq] at ht
    obtain ⟨hpending, -, ⟨howned, hnamed⟩, rfl⟩ := ht
    exact .writeInput hfound (.release hpending howned hnamed)
  | markInputDeliveryFailed | markInputDeliveryUnknown =>
    obtain ⟨r, r', hfound, rfl, ht, rfl⟩ := transitionInputRecord_eq_ok.mp h
    obtain ⟨hpending, howned, hnamed, rfl⟩ := deliveryTransition_eq_ok ht
    exact .writeInput hfound (.deliver rfl hpending howned hnamed)
  | completeInput | failInput | markInputUnknown | resolveUnknownInput | resolveAcceptedInput =>
    obtain ⟨r, r', hfound, rfl, ht, rfl⟩ := transitionInputRecord_eq_ok.mp h
    obtain ⟨hexact, hskip, hother, hdefinite, hsource, rfl⟩ := outcomeTransition_eq_ok ht
    exact .writeInput hfound (.outcome rfl hexact hskip hother hdefinite hsource)
  | retryInput ctx sessionID messageID =>
    obtain ⟨r, r', hfound, rfl, ht, rfl⟩ := transitionInputRecord_eq_ok.mp h
    simp only [retryTransition, check_eq_ok, refuse_eq_ok, and_eq_false_iff,
      decide_eq_false_iff_not, not_not, ok.injEq] at ht
    obtain ⟨-, hstuck, hroom, rfl⟩ := ht
    exact .writeInput hfound (.retry hstuck hroom)
  | beginInputRecovery =>
    rcases beginRecovery_eq_ok h with ⟨before, through, hopened, hother, rfl⟩ |
      ⟨hclosed, hother, hunresolved, rfl⟩
    · exact .takeOver rfl hopened hother
    · exact .openBoundary rfl hclosed hother hunresolved
  | commitInputRecoverySkip | commitInputRecoveryAttach =>
    obtain ⟨through, hopened, rfl⟩ := commitRecovery_eq_ok h
    exact .commit rfl hopened
  | enqueueOutput =>
    obtain ⟨hfresh, hroom, rfl⟩ := enqueueOutputRecord_eq_ok h
    exact .enqueueOutput rfl hfresh hroom
  | leaseNextOutput ctx sessionIDs owner now duration =>
    simp only [Op.onSession] at h
    rcases hl : leaseNextOutputRecord owner now duration s with _ | ⟨output, t⟩
    · simp [hl] at h
    simp only [hl, ok.injEq] at h
    subst h
    obtain ⟨r, hfirst, hfree, -, rfl⟩ := leaseNextOutputRecord_eq_some hl
    exact .writeOutput hfirst (.lease hfirst hfree)
  | supersedePendingOutputs ctx sessionID keepOperationID kinds =>
    simp only [Op.onSession, supersedeRecords] at h
    split at h
    · cases h
    split_ifs at h with hzero hnone
    simp only [ok.injEq] at h
    subst h
    refine .supersede rfl ?_
    rw [map_eq_nil_iff, List.filter_eq_nil_iff, not_forall] at hnone
    obtain ⟨r, hr⟩ := hnone
    rw [Classical.not_imp, not_not] at hr
    exact any_eq_true.mpr ⟨r, hr⟩
  | confirmOutput ctx sessionID operationID owner receipt =>
    obtain ⟨r, r', hfound, rfl, ht, rfl⟩ := transitionOutputRecord_eq_ok.mp h
    simp only [confirmTransition, check_eq_ok, refuse_eq_ok, owner_check,
      decide_eq_false_iff_not, not_not, ok.injEq] at ht
    obtain ⟨-, -, hpending, ⟨howned, hnamed⟩, rfl⟩ := ht
    exact .writeOutput hfound (.confirm hpending howned hnamed)
  | markOutputFailed | markOutputUnknown =>
    obtain ⟨r, r', hfound, rfl, ht, rfl⟩ := transitionOutputRecord_eq_ok.mp h
    simp only [finishTransition, check_eq_ok, refuse_eq_ok, owner_check,
      decide_eq_false_iff_not, not_not, ok.injEq] at ht
    obtain ⟨-, hpending, ⟨howned, hnamed⟩, rfl⟩ := ht
    exact .writeOutput hfound (.finish rfl hpending howned hnamed)
  | retryOutput ctx sessionID operationID =>
    obtain ⟨r, r', hfound, rfl, ht, rfl⟩ := transitionOutputRecord_eq_ok.mp h
    simp only [retryOutputTransition, check_eq_ok, refuse_eq_ok, and_eq_false_iff,
      decide_eq_false_iff_not, not_not, ok.injEq] at ht
    obtain ⟨-, hstuck, rfl⟩ := ht
    exact .writeOutput hfound (.retry hstuck)

end Bria.MessageJournal
