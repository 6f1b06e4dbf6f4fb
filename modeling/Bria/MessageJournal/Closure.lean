import Bria.MessageJournal.Moves

/-!
# Validity of changed documents

Which changes of a valid document are valid again. The argument checks bound what an operation
stores (`Op.Sound`), and with them every move keeps every clause of the validator but one: an
attached recovery admits no failed or unknown input at or below its boundary, and the transitions
that record a failure do not look at the recovery (`SessionMove.valid_iff`).
-/

namespace Bria.MessageJournal

open Go Table Call InputPhase List Op

/-! ## What the argument checks establish -/

/-- The outcomes that `ResolveUnknownInput` and `ResolveAcceptedInput` admit. -/
def InputPhase.reported : InputPhase → Bool
  | .completed | .failed | .terminalFailed | .unknown => true
  | _ => false

/-- What an operation may store, by its argument checks. -/
def Op.Sound (limits : Limits) : Op → Prop
  | .enqueueInput _ sessionID messageID payload attachments =>
    OpaqueID sessionID limits.maxIDBytes ∧ OpaqueID messageID limits.maxIDBytes ∧
      payload.length ≤ limits.maxPayloadBytes ∧
      ∀ a ∈ (attachmentRecords attachments).getD [], validateAttachmentRecord a limits = .ok ()
  | .leaseNextInput _ _ owner now duration | .leaseNextOutput _ _ owner now duration =>
    (OpaqueID owner limits.maxIDBytes ∧ 0 < (now.add duration).unixNano) ∧
      0 < duration ∧ duration ≤ limits.maxLeaseDuration
  | .replaceLeasedInputPayload _ _ _ _ _ payload => payload.length ≤ limits.maxPayloadBytes
  | .resolveUnknownInput _ _ _ _ outcome | .resolveAcceptedInput _ _ _ _ outcome => outcome.reported
  | .beginInputRecovery _ _ token _ => OpaqueID token limits.maxIDBytes
  | .enqueueOutput _ sessionID operationID kind payload =>
    OpaqueID sessionID limits.maxIDBytes ∧ OpaqueID operationID limits.maxIDBytes ∧
      blank kind = false ∧ kind.length ≤ limits.maxKindBytes ∧
      payload.length ≤ limits.maxPayloadBytes
  | .confirmOutput _ _ _ _ receipt =>
    blank receipt = false ∧ receipt.length ≤ limits.maxReceiptBytes
  | _ => True

/-- A method with checks runs its change exactly when they pass. -/
@[simp]
theorem Call.checked_early {α : Type} {check : Except Err Unit} {zero : α}
    {change : Document → α × Except Err Document} :
    (checked check zero change).early = none ↔ check = .ok () := by
  simp [checked]

/-- Forgetting a method's result keeps its early returns. -/
@[simp]
theorem Call.forget_early {α : Type} {call : Call α} :
    call.forget.early = none ↔ call.early = none := by
  simp [forget]

@[simp]
theorem Call.refusing_early {α : Type} {call : Call α} {c : Bool} {e : Err} :
    (call.refusing c e).early = none ↔ c = false ∧ call.early = none := by
  unfold refusing
  cases c <;> simp

variable {sessionID owner token keepOperationID : GoString} {limits : Limits}
  {inputs : List InputRecord} {recovery : Option InputRecoveryRecord} {through keepSequence : Nat}
  {phase : InputRecoveryPhase} {kinds : List GoString}

theorem validateLeaseRequest_ok {ctx : Context} {now : Time} {duration : Int}
    (h : validateLeaseRequest limits ctx sessionID owner now duration = .ok ()) :
    (OpaqueID owner limits.maxIDBytes ∧ 0 < (now.add duration).unixNano) ∧
      0 < duration ∧ duration ≤ limits.maxLeaseDuration := by
  simp only [validateLeaseRequest, check_eq_ok, validateOpaqueID_ok_iff, refuse_eq_ok,
    or_eq_false_iff, decide_eq_false_iff_not, Int.not_le, Int.not_lt] at h
  obtain ⟨-, -, howner, ⟨⟨-, hpos⟩, hmax⟩, huntil⟩ := h
  exact ⟨⟨howner, huntil⟩, hpos, hmax⟩

/-- The argument checks establish what they are for. -/
theorem Op.sound_of_admitted {op : Op} (h : op.admitted limits) : op.Sound limits := by
  cases op with
  | enqueueInput =>
    simp only [admitted, call, enqueueInputWithAttachments, forget_early,
      checked_early, validateInputValues, validateInputIdentity, check_eq_ok,
      validateOpaqueID_ok_iff, refuse_eq_ok, decide_eq_false_iff_not, Nat.not_lt,
      forM_eq_forM, forM_eq_ok] at h
    obtain ⟨-, ⟨hsid, hmid⟩, hpay, hatt⟩ := h
    refine ⟨hsid, hmid, hpay, fun a ha => ?_⟩
    have := hatt a ha
    cases hv : validateAttachmentRecord a limits with
    | ok u => rfl
    | error e => simp [hv, Except.mapError] at this
  | leaseNextInput => exact validateLeaseRequest_ok (checked_early.mp (forget_early.mp h))
  | leaseNextOutput ctx sessionIDs =>
    cases sessionIDs with
    | nil => simp [admitted, call, leaseNextOutputForSessions] at h
    | cons =>
      have hcheck := checked_early.mp (forget_early.mp h)
      exact validateLeaseRequest_ok (check_eq_ok.mp hcheck).1
  | replaceLeasedInputPayload =>
    have hcheck := checked_early.mp (forget_early.mp h)
    simpa [Op.Sound] using (check_eq_ok.mp hcheck).1
  | resolveUnknownInput ctx sessionID messageID sequence outcome
  | resolveAcceptedInput ctx sessionID messageID sequence outcome =>
    have hguard := (refusing_early.mp (forget_early.mp h)).1
    cases outcome <;> simp_all [Op.Sound, reported]
  | beginInputRecovery =>
    have hcheck := checked_early.mp (forget_early.mp h)
    simp only [validateRecoveryRequest, check_eq_ok, validateOpaqueID_ok_iff] at hcheck
    exact hcheck.2.2
  | enqueueOutput =>
    have hcheck := checked_early.mp (forget_early.mp h)
    simp only [validateOutputValues, check_eq_ok, validateOpaqueID_ok_iff, refuse_eq_ok,
      or_eq_false_iff, decide_eq_false_iff_not, Nat.not_lt] at hcheck
    obtain ⟨-, hsid, hoid, ⟨⟨hkind, -⟩, hlen⟩, hpay⟩ := hcheck
    exact ⟨hsid, hoid, hkind, hlen, hpay⟩
  | confirmOutput =>
    have hcheck := checked_early.mp (forget_early.mp h)
    simp only [check_eq_ok, refuse_eq_ok, or_eq_false_iff, decide_eq_false_iff_not,
      Nat.not_lt] at hcheck
    exact hcheck.1
  | _ => trivial

/-! ## Writes of one record -/

/-- The operations that record a failed or unknown hand-off: the session and the input. -/
def Op.recordsFailure : Op → Option (GoString × GoString)
  | .markInputDeliveryFailed _ sessionID messageID _
  | .markInputDeliveryUnknown _ sessionID messageID _ | .failInput _ sessionID messageID
  | .markInputUnknown _ sessionID messageID => some (sessionID, messageID)
  | .resolveUnknownInput _ sessionID messageID _ outcome
  | .resolveAcceptedInput _ sessionID messageID _ outcome =>
    if outcome = .failed ∨ outcome = .unknown then some (sessionID, messageID) else none
  | _ => none

variable {limits : Limits} {op : Op} {s s' : SessionRecord}

variable {messageID : GoString}

/-- The phase that an outcome operation expects, and the one it records. -/
theorem Op.outcome_spec {sequence : Nat} {outcome source : InputPhase}
    (hsound : op.Sound limits) (h : op.outcome = some (messageID, sequence, outcome, source)) :
    (source = .accepted ∨ source = .unknown) ∧ outcome.reported ∧
      (outcome.unambiguous = false → ∃ sessionID, op.recordsFailure = some (sessionID, messageID)) ∧
      (outcome.unambiguous → op.recordsFailure = none) := by
  cases op <;> simp only [Op.outcome, some.injEq, Prod.mk.injEq, reduceCtorEq] at h <;>
    obtain ⟨rfl, rfl, rfl, rfl⟩ := h
  case resolveUnknownInput ctx sessionID messageID sequence phase |
      resolveAcceptedInput ctx sessionID messageID sequence phase =>
    have hphase : phase.reported := hsound
    cases phase <;> simp [recordsFailure, unambiguous, reported] at hphase ⊢
  all_goals simp [recordsFailure, unambiguous, reported]

/-- The phase that a delivery operation records. -/
theorem Op.delivery_spec {phase : InputPhase} (h : op.delivery = some (messageID, owner, phase)) :
    (phase = .failed ∨ phase = .unknown) ∧
      ∃ sessionID, op.recordsFailure = some (sessionID, messageID) := by
  cases op <;> simp only [delivery, some.injEq, Prod.mk.injEq, reduceCtorEq] at h <;>
    obtain ⟨rfl, rfl, rfl⟩ := h <;> simp [recordsFailure]

variable {r r' : InputRecord}

theorem InputMove.identity (h : InputMove limits s op r r') :
    r'.messageID = r.messageID ∧ r'.sequence = r.sequence ∧ r'.attachments = r.attachments := by
  cases h <;> exact ⟨rfl, rfl, rfl⟩

section

variable (h : InputMove limits s op r r') (hsound : op.Sound limits)
include h hsound

/-- A write of an input finds it unresolved. -/
theorem InputMove.unresolved : r.phase.unresolved := by
  cases h with
  | lease _ _ hp _ | accept _ hp | replace hp | release hp | deliver _ hp =>
    rw [hp]
    rfl
  | outcome heq _ _ _ _ hsource =>
    obtain ⟨hsrc, -⟩ := outcome_spec hsound heq
    rcases hsource with h | ⟨-, -, h | ⟨h, -⟩⟩
    · rcases hsrc with rfl | rfl <;> rw [h] <;> rfl
    · rw [h]; rfl
    · rw [h]; rfl
  | retry hstuck => rcases hstuck with h | h <;> rw [h] <;> rfl

theorem InputMove.valid (hr : r.Valid limits) : r'.Valid limits := by
  have hnone : ({} : LeaseRecord).Valid limits := .inl rfl
  cases h with
  | lease _ _ hp _ => exact { hr with lease := .inr hsound.1, unleased := fun h => absurd hp h }
  | replace hp => exact { hr with payload := hsound }
  | accept | release | deliver | retry => exact { hr with lease := hnone, unleased := fun _ => rfl }
  | outcome heq _ _ _ _ hsource =>
    -- Only an input that was handed off gets an outcome, so there is no lease to clear.
    have hp : r.phase ≠ .pending := by
      obtain ⟨hsrc, -⟩ := outcome_spec hsound heq
      rcases hsource with h | ⟨-, -, h | ⟨h, -⟩⟩
      · rcases hsrc with rfl | rfl <;> rw [h] <;> decide
      · rw [h]; decide
      · rw [h]; decide
    exact { hr with unleased := fun _ => hr.unleased hp }

/-- A write leaves an input pending only if it was, or if there is room in the queue. -/
theorem InputMove.pending (hp : r'.phase = .pending) :
    r.phase = .pending ∨
      s.inputs.countP (·.phase = .pending) ≠ limits.maxPendingInputsPerSession := by
  cases h with
  | lease _ _ hr _ | accept _ hr | replace hr | release hr | deliver _ hr => exact .inl hr
  | outcome heq =>
    obtain ⟨-, hrep, -⟩ := outcome_spec hsound heq
    simp only at hp
    simp [hp, reported] at hrep
  | retry _ hroom => exact .inr hroom

/-- A write leaves an unambiguous phase exactly when its operation records no failure. -/
theorem InputMove.unambiguous :
    (r'.phase.unambiguous ∧ op.recordsFailure = none) ∨
      (r'.phase.unambiguous = false ∧
        ∃ sessionID, op.recordsFailure = some (sessionID, r.messageID)) := by
  cases h with
  | lease _ _ hp _ | replace hp | release hp => exact .inl ⟨by simp [hp, unambiguous], rfl⟩
  | accept | retry => exact .inl ⟨rfl, rfl⟩
  | deliver heq =>
    obtain ⟨hphase, hrec⟩ := delivery_spec heq
    exact .inr ⟨by rcases hphase with rfl | rfl <;> rfl, hrec⟩
  | @outcome _ _ outcome _ _ heq =>
    obtain ⟨-, -, hfail, hnone⟩ := outcome_spec hsound heq
    cases hu : outcome.unambiguous with
    | true => exact .inl ⟨rfl, hnone hu⟩
    | false => exact .inr ⟨rfl, hfail hu⟩

end

theorem OutputMove.identity {r r' : OutputRecord} (h : OutputMove s op r r') :
    r'.operationID = r.operationID ∧ r'.sequence = r.sequence ∧ r'.kind = r.kind ∧
      r'.payload = r.payload := by
  cases h <;> exact ⟨rfl, rfl, rfl, rfl⟩

theorem OutputMove.valid {r r' : OutputRecord} (h : OutputMove s op r r')
    (hsound : op.Sound limits) (hr : r.Valid limits) : r'.Valid limits := by
  have hnone : ({} : LeaseRecord).Valid limits := .inl rfl
  -- An output that is not confirmed has no receipt.
  have hreceipt : r.phase ≠ .confirmed → r.receipt = [] := fun h => by simpa [h] using hr.receipt
  cases h with
  | lease hfirst _ =>
    have hp : r.phase = .pending := by simpa using find?_some hfirst
    exact { hr with lease := .inr hsound.1, unleased := fun h => absurd hp h }
  | confirm => exact { hr with lease := hnone, unleased := fun _ => rfl, receipt := hsound }
  | finish heq hp =>
    have hphase : ∀ {operationID owner phase}, op.finish = some (operationID, owner, phase) →
        phase ≠ .confirmed := by
      intro operationID owner phase h
      cases op <;> simp only [Op.finish, some.injEq, Prod.mk.injEq, reduceCtorEq] at h <;>
        obtain ⟨rfl, rfl, rfl⟩ := h <;> decide
    exact { hr with
      lease := hnone
      unleased := fun _ => rfl
      receipt := by simpa [hphase heq] using hreceipt (by rw [hp]; decide) }
  | retry hstuck =>
    exact { hr with
      lease := hnone
      unleased := fun _ => rfl
      receipt := by
        simpa using hreceipt (by rcases hstuck with h | h <;> rw [h] <;> decide) }

/-! ## Sessions -/

/-- The boundary of an attached recovery, zero when there is none. -/
def SessionRecord.attachedThrough (s : SessionRecord) : Nat :=
  match s.recovery with
  | some ⟨_, through, .attached⟩ => through
  | _ => 0

/-- Whether an operation records a failure of an input that an attached recovery covers. -/
def Op.blurs (op : Op) (s : SessionRecord) : Bool :=
  op.recordsFailure.any fun failure =>
    s.inputs.any fun r => r.messageID = failure.2 && r.sequence ≤ s.attachedThrough

theorem attachedThrough_of_attached {recovery : InputRecoveryRecord}
    (h : s.recovery = some recovery) (hphase : recovery.phase = .attached) :
    s.attachedThrough = recovery.throughSequence := by
  obtain ⟨token, through, phase⟩ := recovery
  subst hphase
  simp [SessionRecord.attachedThrough, h]

/-- A boundary above zero is one of an attached recovery. -/
theorem attached_of_attachedThrough (h : 0 < s.attachedThrough) :
    ∃ token, s.recovery = some ⟨token, s.attachedThrough, .attached⟩ := by
  unfold SessionRecord.attachedThrough at h ⊢
  split at h
  · next token through hrec => exact ⟨token, by rw [hrec]⟩
  · omega

section

variable (h : s.Valid limits)
include h

/-- The sequences of a session's records end at its counter. -/
theorem SessionRecord.Valid.sequence_le :
    (∀ r ∈ s.inputs, r.sequence ≤ s.nextSequence) ∧
      ∀ r ∈ s.outputs, r.sequence ≤ s.nextSequence := by
  have hle : ∀ n ∈ s.inputs.map (·.sequence) ++ s.outputs.map (·.sequence), n ≤ s.nextSequence := by
    intro n hn
    have := mem_range'_1.mp (h.sequences.mem_iff.mp hn)
    omega
  exact ⟨fun r hr => hle _ (mem_append_left _ (mem_map_of_mem hr)),
    fun r hr => hle _ (mem_append_right _ (mem_map_of_mem hr))⟩

/-- Other inputs with the same ids and sequences keep a session valid. -/
theorem SessionRecord.Valid.withInputs
    (hids : inputs.map (·.messageID) = s.inputs.map (·.messageID))
    (hseqs : inputs.map (·.sequence) = s.inputs.map (·.sequence))
    (hvalid : ∀ r ∈ inputs, r.Valid limits)
    (hpending : inputs.countP (·.phase = .pending) ≤ limits.maxPendingInputsPerSession)
    (hrecovery : ∀ r, recovery = some r → r.Valid { s with inputs, recovery } limits) :
    { s with inputs, recovery }.Valid limits :=
  { h with
    recovery := hrecovery
    inputs := hvalid
    messageIDs := by simpa only [hids] using h.messageIDs
    inputOrder := by simpa only [hseqs] using h.inputOrder
    pending := hpending
    sequences := by simpa only [hseqs] using h.sequences }

/-- Another recovery record that is valid keeps a session valid. -/
theorem SessionRecord.Valid.withRecovery
    (hrecovery : ∀ r, recovery = some r → r.Valid { s with recovery } limits) :
    { s with recovery }.Valid limits :=
  { h with recovery := hrecovery }

/-- Other outputs with the same ids and sequences keep a session valid. -/
theorem SessionRecord.Valid.withOutputs {outputs : List OutputRecord}
    (hids : outputs.map (·.operationID) = s.outputs.map (·.operationID))
    (hseqs : outputs.map (·.sequence) = s.outputs.map (·.sequence))
    (hvalid : ∀ r ∈ outputs, r.Valid limits) : { s with outputs }.Valid limits :=
  { h with
    recovery := fun r hr =>
      let v := h.recovery r hr
      ⟨v.token, v.positive, v.bounded, v.committed, v.attached⟩
    outputs := hvalid
    operationIDs := by simpa only [hids] using h.operationIDs
    outputOrder := by simpa only [hseqs] using h.outputOrder
    sequences := by simpa only [hseqs] using h.sequences }

/-- A write of one input keeps a session valid if it leaves nothing ambiguous below an attached
boundary. -/
theorem SessionRecord.Valid.writeInput (hsound : op.Sound limits) {p : InputRecord → Bool}
    (hfound : s.inputs.find? p = some r) (hmove : InputMove limits s op r r')
    (hclear : r'.phase.unambiguous ∨ s.attachedThrough < r.sequence) :
    { s with inputs := replaceFirst p r' s.inputs }.Valid limits := by
  obtain ⟨hid, hseq, -⟩ := hmove.identity
  have hmem := mem_of_find?_eq_some hfound
  refine (h.withInputs (map_replaceFirst hfound hid)
    (map_replaceFirst hfound hseq) ?_ ?_ ?_ : SessionRecord.Valid { s with
      inputs := replaceFirst p r' s.inputs, recovery := s.recovery } limits)
  · exact forall_mem_written (hmove.valid hsound (h.inputs r hmem)) h.inputs
  · have hcount := countP_replaceFirst r' hfound (·.phase = .pending)
    have hmax := h.pending
    by_cases hp : r'.phase = .pending
    · rcases hmove.pending hsound hp with hr | hroom
      · simp only [hp, hr, decide_true, if_true] at hcount
        omega
      simp only [hp, decide_true, if_true] at hcount
      omega
    simp only [hp, decide_false, false_eq_true, if_false] at hcount
    omega
  intro recovery hrec
  have hv := h.recovery recovery hrec
  refine ⟨hv.token, hv.positive, hv.bounded,
    fun hphase => forall_mem_written (fun hle => ?_) (hv.committed hphase),
    fun hphase => forall_mem_written (fun hle => ?_) (hv.attached hphase)⟩
  · -- Nothing below a committed boundary can move.
    have hsettled := hv.committed hphase r hmem (hseq ▸ hle)
    have hunresolved := hmove.unresolved hsound
    cases hr : r.phase <;> simp [hr, settled, unresolved] at hsettled hunresolved
  refine hclear.resolve_right fun hlt => ?_
  rw [attachedThrough_of_attached hrec hphase] at hlt
  omega

end

variable {f : InputRecord → InputRecord}

/-- On inputs in order, the loop of a commit treats exactly those at or below the boundary. -/
theorem applyThrough_eq_map (hsorted : (inputs.map (·.sequence)).Pairwise (· < ·)) :
    applyThrough through f inputs =
      inputs.map fun r => if r.sequence ≤ through then f r else r := by
  induction inputs with
  | nil => rfl
  | cons r inputs ih =>
    rw [map_cons, pairwise_cons] at hsorted
    rw [applyThrough, map_cons]
    split_ifs with hlt hle hle
    · omega
    · -- The rest is above the boundary as well.
      have hrest : ∀ x ∈ inputs, (if x.sequence ≤ through then f x else x) = x := by
        intro x hx
        have := hsorted.1 _ (mem_map_of_mem hx)
        exact if_neg (by omega)
      rw [map_congr_left hrest, map_id']
    · rw [ih hsorted.2]
    · omega

/-- A commit leaves an input as it is or skips it. -/
theorem Op.commit_cases (h : op.commit = some (token, phase, f)) (r : InputRecord) :
    (f r = r ∨ f r = { r with phase := .skipped, lease := {} }) ∧
      (phase = .committed ∧ (f r).phase.settled ∨ phase = .attached ∧ (f r).phase.unambiguous) := by
  cases op <;> simp only [commit, some.injEq, Prod.mk.injEq, reduceCtorEq] at h <;>
    obtain ⟨rfl, rfl, rfl⟩ := h
  · unfold skipUnresolved
    split <;> simp_all [settled]
  unfold skipAmbiguous
  split <;> simp_all [unambiguous]
  split_ifs <;> simp_all

theorem SessionRecord.Valid.commit (h : s.Valid limits)
    (hcommit : op.commit = some (token, phase, f))
    (hopened : s.recovery = some ⟨token, through, .opened⟩) :
    { s with
      inputs := applyThrough through f s.inputs
      recovery := some ⟨token, through, phase⟩ }.Valid limits := by
  have hcases := commit_cases hcommit
  have hv := h.recovery _ hopened
  rw [applyThrough_eq_map (pairwise_cons.mp h.inputOrder).2]
  generalize hg : (fun r : InputRecord => if r.sequence ≤ through then f r else r) = g
  have hskip : ∀ r, g r = r ∨ g r = { r with phase := .skipped, lease := {} } := by
    intro r
    rw [← hg]
    dsimp only
    split_ifs
    · exact (hcases r).1
    · exact .inl rfl
  have hid : ∀ r, (g r).messageID = r.messageID := by
    intro r
    rcases hskip r with h | h <;> rw [h]
  have hseq : ∀ r, (g r).sequence = r.sequence := by
    intro r
    rcases hskip r with h | h <;> rw [h]
  refine h.withInputs (by simp [hid]) (by simp [hseq]) ?_ ?_ ?_
  · intro x hx
    obtain ⟨r, hr, rfl⟩ := mem_map.mp hx
    have hval := h.inputs r hr
    rcases hskip r with h | h <;> rw [h]
    · exact hval
    · exact { hval with lease := .inl rfl, unleased := fun _ => rfl }
  · refine Nat.le_trans ?_ h.pending
    rw [countP_map]
    refine countP_mono_left fun r _ hp => ?_
    rcases hskip r with h | h
    · simpa [h] using hp
    · simp [h] at hp
  intro recovery hrec
  obtain rfl := some.inj hrec
  have htreated : ∀ x ∈ s.inputs.map g, x.sequence ≤ through → ∃ r, x = f r := by
    intro x hx hle
    obtain ⟨r, -, rfl⟩ := mem_map.mp hx
    rw [hseq] at hle
    exact ⟨r, by rw [← hg]; exact if_pos hle⟩
  refine ⟨hv.token, hv.positive, hv.bounded, ?_, ?_⟩
  all_goals
    rintro rfl x hx hle
    obtain ⟨r, rfl⟩ := htreated x hx hle
    simpa using (hcases r).2

theorem SessionRecord.Valid.enqueueInput (h : s.Valid limits) {r : InputRecord}
    (hr : r.Valid limits) (hseq : r.sequence = s.nextSequence + 1)
    (hfresh : ∀ x ∈ s.inputs, x.messageID ≠ r.messageID)
    (hqueue : s.inputs.countP (·.phase = .pending) ≠ limits.maxPendingInputsPerSession) :
    { s with
      nextSequence := s.nextSequence + 1
      inputs := s.inputs ++ [r] }.Valid limits := by
  have hle := h.sequence_le.1
  refine ⟨?_, ?_, ?_, ?_, ?_, h.outputs, h.operationIDs, h.outputOrder, ?_⟩
  · intro recovery hrec
    have hv := h.recovery recovery hrec
    have hold : ∀ x ∈ s.inputs ++ [r], x.sequence ≤ recovery.throughSequence → x ∈ s.inputs := by
      intro x hx hxle
      rcases mem_append.mp hx with hx | hx
      · exact hx
      have := hv.bounded
      rw [mem_singleton.mp hx] at hxle
      omega
    exact ⟨hv.token, hv.positive, le_succ_of_le hv.bounded,
      fun hp x hx hxle => hv.committed hp x (hold x hx hxle) hxle,
      fun hp x hx hxle => hv.attached hp x (hold x hx hxle) hxle⟩
  · exact forall_mem_append.mpr ⟨h.inputs, forall_mem_singleton.mpr hr⟩
  · exact nodup_append_row h.messageIDs hfresh
  · refine pairwise_append_row h.inputOrder (fun x hx => ?_) (by omega)
    have := hle x hx
    omega
  · have := h.pending
    rw [countP_append]
    have : [r].countP (·.phase = .pending) ≤ 1 := countP_le_length
    omega
  rw [range'_1_concat, Nat.add_comm 1, map_append, map_singleton, hseq, append_assoc]
  refine (perm_append_comm.append_left _).trans ?_
  rw [← append_assoc]
  exact h.sequences.append_right _

theorem SessionRecord.Valid.enqueueOutput (h : s.Valid limits) {r : OutputRecord}
    (hr : r.Valid limits) (hseq : r.sequence = s.nextSequence + 1)
    (hfresh : ∀ x ∈ s.outputs, x.operationID ≠ r.operationID) :
    { s with
      nextSequence := s.nextSequence + 1
      outputs := s.outputs ++ [r] }.Valid limits := by
  have hle := h.sequence_le.2
  refine ⟨?_, h.inputs, h.messageIDs, h.inputOrder, h.pending, ?_, ?_, ?_, ?_⟩
  · intro recovery hrec
    have hv := h.recovery recovery hrec
    exact ⟨hv.token, hv.positive, le_succ_of_le hv.bounded, hv.committed, hv.attached⟩
  · exact forall_mem_append.mpr ⟨h.outputs, forall_mem_singleton.mpr hr⟩
  · exact nodup_append_row h.operationIDs hfresh
  · refine pairwise_append_row h.outputOrder (fun x hx => ?_) (by omega)
    have := hle x hx
    omega
  rw [range'_1_concat, Nat.add_comm 1, map_append, map_singleton, hseq, ← append_assoc]
  exact h.sequences.append_right _

theorem valid_supersedeRecord {r : OutputRecord} (hr : r.Valid limits) :
    (supersedeRecord keepOperationID keepSequence kinds r).Valid limits := by
  unfold supersedeRecord
  split_ifs with h
  · simp only [supersedable, and_eq_true, decide_eq_true_eq] at h
    obtain ⟨⟨⟨-, hp⟩, howner⟩, -⟩ := h
    exact { hr with
      unleased := fun _ => hr.lease.eq_empty howner
      receipt := by simpa [hp] using hr.receipt }
  · exact hr

theorem supersedeRecord_identity (r : OutputRecord) :
    (supersedeRecord keepOperationID keepSequence kinds r).operationID = r.operationID ∧
      (supersedeRecord keepOperationID keepSequence kinds r).sequence = r.sequence := by
  unfold supersedeRecord
  split_ifs <;> exact ⟨rfl, rfl⟩

/-- An operation that records no failure blurs nothing. -/
theorem blurs_of_none (h : op.recordsFailure = none) (s : SessionRecord) : op.blurs s = false := by
  simp [blurs, h]

/-- The session that a move leaves is valid exactly when the move records no failure below an
attached boundary. -/
theorem SessionMove.valid_iff (h : s.Valid limits) (hsound : op.Sound limits)
    (hmove : SessionMove limits op s s') : s'.Valid limits ↔ op.blurs s = false := by
  cases hmove with
  | enqueueInput heq hfresh _ hqueue =>
    subst heq
    obtain ⟨-, hmid, hpay, hatt⟩ := hsound
    refine iff_of_true (h.enqueueInput ?_ rfl hfresh hqueue) (blurs_of_none rfl s)
    exact ⟨hmid, hpay, hatt, .inl rfl, fun _ => rfl⟩
  | @writeInput p r r' hfound hmove =>
    have hmem := mem_of_find?_eq_some hfound
    obtain ⟨-, hseq, -⟩ := hmove.identity
    rcases hmove.unambiguous hsound with ⟨hun, hnone⟩ | ⟨hun, sessionID, hfail⟩
    · exact iff_of_true (h.writeInput hsound hfound hmove (.inl hun)) (blurs_of_none hnone s)
    by_cases hlt : s.attachedThrough < r.sequence
    · refine iff_of_true (h.writeInput hsound hfound hmove (.inr hlt)) ?_
      simp only [blurs, hfail, any_some, any_eq_false, and_eq_true,
        decide_eq_true_eq, not_and, Nat.not_le]
      intro x hx hid
      have hx' := find?_of_mem h.messageIDs hx
      rw [hid, find?_of_mem h.messageIDs hmem] at hx'
      exact some.inj hx' ▸ hlt
    -- The record written is below the attached boundary, and it is ambiguous.
    have hblurs : op.blurs s := by
      simp only [blurs, hfail, any_some, any_eq_true, and_eq_true, decide_eq_true_eq]
      exact ⟨r, hmem, rfl, Nat.not_lt.mp hlt⟩
    refine iff_of_false (fun hv => ?_) (by simp [hblurs])
    have hpos : 0 < r.sequence := (pairwise_cons.mp h.inputOrder).1 _ (mem_map_of_mem hmem)
    obtain ⟨token, hrec⟩ := attached_of_attachedThrough (s := s) (by omega)
    have := (hv.recovery _ hrec).attached rfl r' (mem_replaceFirst_new hfound r')
      (by rw [hseq]; exact Nat.not_lt.mp hlt)
    simp [hun] at this
  | takeOver heq hopened hother =>
    subst heq
    have hv := h.recovery _ hopened
    refine iff_of_true ?_ (blurs_of_none rfl s)
    refine h.withRecovery fun r hr => ?_
    obtain rfl := some.inj hr
    exact ⟨hsound, hv.positive, hv.bounded, nofun, nofun⟩
  | openBoundary heq hclosed hother hun =>
    subst heq
    refine iff_of_true ?_ (blurs_of_none rfl s)
    refine h.withRecovery fun r hr => ?_
    obtain rfl := some.inj hr
    refine ⟨hsound, ?_, Nat.le_refl _, nofun, nofun⟩
    obtain ⟨x, hx, -⟩ := any_eq_true.mp hun
    have hpos : 0 < x.sequence := (pairwise_cons.mp h.inputOrder).1 _ (mem_map_of_mem hx)
    exact Nat.lt_of_lt_of_le hpos (h.sequence_le.1 x hx)
  | commit hcommit hopened =>
    refine iff_of_true (h.commit hcommit hopened) (blurs_of_none ?_ s)
    cases op <;> simp [Op.commit] at hcommit <;> rfl
  | enqueueOutput heq hfresh _ =>
    subst heq
    obtain ⟨-, hoid, hkind, hlen, hpay⟩ := hsound
    refine iff_of_true (h.enqueueOutput ?_ rfl hfresh) (blurs_of_none rfl s)
    exact ⟨hoid, hpay, hkind, hlen, .inl rfl, fun _ => rfl, by simp⟩
  | writeOutput hfound hmove =>
    obtain ⟨hid, hseq, -⟩ := hmove.identity
    refine iff_of_true (h.withOutputs (map_replaceFirst hfound hid)
      (map_replaceFirst hfound hseq) (forall_mem_written ?_ h.outputs))
      (blurs_of_none ?_ s)
    · exact hmove.valid hsound (h.outputs _ (mem_of_find?_eq_some hfound))
    cases hmove with
    | finish heq => cases op <;> simp [finish] at heq <;> rfl
    | _ => rfl
  | supersede heq =>
    subst heq
    refine iff_of_true (h.withOutputs ?_ ?_ fun x hx => ?_) (blurs_of_none rfl s)
    · simp [supersedeRecord_identity]
    · simp [supersedeRecord_identity]
    obtain ⟨r, hr, rfl⟩ := mem_map.mp hx
    exact valid_supersedeRecord (h.outputs r hr)

/-- A move stays within the limits on a session's records. -/
theorem SessionMove.within (hmove : SessionMove limits op s s')
    (hin : s.inputs.length ≤ limits.maxInputsPerSession)
    (hout : s.outputs.length ≤ limits.maxOutputsPerSession) :
    s'.sessionID = s.sessionID ∧ s'.inputs.length ≤ limits.maxInputsPerSession ∧
      s'.outputs.length ≤ limits.maxOutputsPerSession := by
  have happly : ∀ through f, (applyThrough through f s.inputs).length = s.inputs.length := by
    intro through f
    induction s.inputs with
    | nil => rfl
    | cons r rest ih =>
      unfold applyThrough
      split_ifs <;> simp [ih]
  cases hmove with
  | enqueueInput _ _ hroom => exact ⟨rfl, by simp; omega, hout⟩
  | writeInput => exact ⟨rfl, by simpa [length_replaceFirst] using hin, hout⟩
  | takeOver | openBoundary => exact ⟨rfl, hin, hout⟩
  | commit => exact ⟨rfl, by simpa [happly] using hin, hout⟩
  | enqueueOutput _ _ hroom => exact ⟨rfl, hin, by simp; omega⟩
  | writeOutput => exact ⟨rfl, hin, by simpa [length_replaceFirst] using hout⟩
  | supersede => exact ⟨rfl, hin, by simpa using hout⟩

/-! ## Documents -/

variable {loaded d' found : Document}

theorem mem_of_sessionAt (h : sessionAt loaded sessionID = some s) : s ∈ loaded.sessions :=
  mem_of_find?_eq_some h

/-- Writing a session over the one of its id keeps a document valid exactly when the session is
valid. -/
theorem Document.Valid.setSession_iff (h : loaded.Valid limits)
    (hs : sessionAt loaded s.sessionID = some s) (hid : s'.sessionID = s.sessionID)
    (hin : s'.inputs.length ≤ limits.maxInputsPerSession)
    (hout : s'.outputs.length ≤ limits.maxOutputsPerSession) :
    (loaded.setSession s').Valid limits ↔ s'.Valid limits := by
  have hfound : loaded.sessions.find? (·.sessionID = s'.sessionID) = some s := by
    rw [hid]
    exact hs
  constructor
  · intro hv
    exact hv.sessions s' (mem_replaceFirst_new hfound s')
  intro hv
  refine ⟨h.version, ?_, ?_, forall_mem_written ?_ h.sessionID,
    forall_mem_written hin h.inputCount, forall_mem_written hout h.outputCount,
    forall_mem_written hv h.sessions⟩
  · simpa [Document.setSession, length_replaceFirst] using h.sessionCount
  · simpa [Document.setSession, map_replaceFirst hfound hid] using h.sessionIDs
  rw [hid]
  exact h.sessionID s (mem_of_sessionAt hs)

/-- The document with the session that an operation works on is valid, and finds it. -/
theorem Op.Finds.valid (hfinds : op.Finds limits loaded found s) (h : loaded.Valid limits)
    (hsound : op.Sound limits) : found.Valid limits ∧ sessionAt found s.sessionID = some s := by
  cases hfinds with
  | existing _ hs => exact ⟨h, hs⟩
  | @created sessionID hcreates hmem hnone hfull =>
    have hfresh : ∀ x ∈ loaded.sessions, x.sessionID ≠ sessionID := by
      simpa using find?_eq_none.mp hnone
    have hopaque : OpaqueID sessionID limits.maxIDBytes := by
      cases op <;> simp only [creates, false_eq_true] at hcreates <;>
        simp only [sessionIDs, mem_singleton] at hmem <;> subst hmem <;> exact hsound.1
    have hempty : ({ sessionID } : SessionRecord).Valid limits :=
      ⟨nofun, by simp, nodup_nil, pairwise_singleton _ _, by simp, by simp,
        nodup_nil, pairwise_singleton _ _, by simp⟩
    have hall : ∀ {P : SessionRecord → Prop}, P { sessionID } → (∀ x ∈ loaded.sessions, P x) →
        ∀ x ∈ loaded.sessions ++ [({ sessionID } : SessionRecord)], P x := fun hP hold =>
      forall_mem_append.mpr ⟨hold, forall_mem_singleton.mpr hP⟩
    refine ⟨⟨h.version, ?_, ?_, hall hopaque h.sessionID, hall (Nat.zero_le _) h.inputCount,
      hall (Nat.zero_le _) h.outputCount, hall hempty h.sessions⟩, ?_⟩
    · have := h.sessionCount
      simp only [length_append, length_singleton]
      omega
    · exact nodup_append_row h.sessionIDs hfresh
    have : loaded.sessions.find? (·.sessionID = sessionID) = none := hnone
    simp [sessionAt, find?_append, this]

/-- Whether an operation records a failure of an input that an attached recovery of its session
covers. -/
def Op.blursAttached (op : Op) (loaded : Document) : Bool :=
  op.recordsFailure.any fun failure => (sessionAt loaded failure.1).any op.blurs

/-- An operation that records a failure works on a session that is there. -/
theorem Op.recordsFailure_spec (h : op.recordsFailure = some (sessionID, messageID)) :
    op.sessionIDs = [sessionID] ∧ op.creates = false := by
  cases op <;> simp only [recordsFailure, some.injEq, Prod.mk.injEq, reduceCtorEq] at h
  case resolveUnknownInput | resolveAcceptedInput =>
    split_ifs at h
    simp only [some.injEq, Prod.mk.injEq] at h
    exact ⟨by rw [← h.1]; rfl, rfl⟩
  all_goals exact ⟨by rw [← h.1]; rfl, rfl⟩

/-- An operation blurs the document exactly when it blurs the session it works on. -/
theorem Op.Finds.blursAttached_eq (hfinds : op.Finds limits loaded found s) :
    op.blursAttached loaded = op.blurs s := by
  rcases hfail : op.recordsFailure with _ | ⟨sessionID, messageID⟩
  · rw [blurs_of_none hfail]
    simp [blursAttached, hfail]
  obtain ⟨hids, hcreates⟩ := recordsFailure_spec hfail
  cases hfinds with
  | existing hmem hs =>
    rw [hids, mem_singleton] at hmem
    rw [hmem] at hs
    simp [blursAttached, hfail, hs]
  | created h => simp [hcreates] at h

/-- An accepted change of a valid document is valid again exactly when it records no failed or
unknown hand-off at or below the boundary of an attached recovery. -/
theorem validateDocument_change_iff (limits : Limits) (op : Op) (loaded d' : Document)
    (hvalid : validateDocument loaded limits = .ok ()) (hadmitted : op.admitted limits)
    (hchange : op.change limits loaded = .ok d') :
    validateDocument d' limits = .ok () ↔ op.blursAttached loaded = false := by
  rw [validateDocument_ok_iff] at hvalid ⊢
  obtain ⟨found, s, s', hfinds, hsession, rfl⟩ := change_eq_ok hchange
  have hsound := sound_of_admitted hadmitted
  have hmove := sessionMove hsession
  obtain ⟨hfound, hs⟩ := hfinds.valid hvalid hsound
  have hmem := mem_of_sessionAt hs
  obtain ⟨hid, hin, hout⟩ := hmove.within (hfound.inputCount s hmem) (hfound.outputCount s hmem)
  rw [hfound.setSession_iff hs hid hin hout, hmove.valid_iff (hfound.sessions s hmem) hsound,
    hfinds.blursAttached_eq]

/-- A session `s` whose recovery `t` was attached while its only input `m` waited, and has then
been leased by `o`. -/
def attachedDocument : Document where
  version := formatVersion
  sessions :=
    [{ sessionID := [0x73], nextSequence := 1
       inputs := [⟨[0x6D], 1, [], none, .pending, ⟨[0x6F], 2⟩⟩]
       recovery := some ⟨[0x74], 1, .attached⟩ }]

/-- Accepting the input of `attachedDocument` leaves a valid document. -/
theorem validateDocument_change_accepted :
    ∃ d', (Op.markInputAccepted {} [0x73] [0x6D] [0x6F]).change defaultLimits attachedDocument =
      .ok d' ∧ validateDocument d' defaultLimits = .ok () :=
  ⟨_, rfl, (validateDocument_change_iff defaultLimits (.markInputAccepted {} [0x73] [0x6D] [0x6F])
    attachedDocument _ rfl rfl rfl).mpr rfl⟩

/-- The journal reaches `attachedDocument` from nothing, and the failure of the input's delivery
is then a change that its guard accepts and post-validation rejects. -/
theorem attached_delivery_failure_rejected :
    ([.enqueueInput {} [0x73] [0x6D] [] [], .beginInputRecovery {} [0x73] [0x74] false,
      .commitInputRecoveryAttach {} [0x73] [0x74], .leaseNextInput {} [0x73] [0x6F] ⟨1⟩ 1].foldlM
        (fun loaded op => change defaultLimits op loaded) emptyDocument) =
        .ok attachedDocument ∧
      validateDocument attachedDocument defaultLimits = .ok () ∧
      (Op.markInputDeliveryFailed {} [0x73] [0x6D] [0x6F]).admitted defaultLimits ∧
      ∃ d', (Op.markInputDeliveryFailed {} [0x73] [0x6D] [0x6F]).change defaultLimits
          attachedDocument = .ok d' ∧ validateDocument d' defaultLimits ≠ .ok () :=
  ⟨rfl, rfl, rfl, _, rfl, by decide⟩

end Bria.MessageJournal
