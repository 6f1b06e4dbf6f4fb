import Bria.Base.Table
import Bria.MessageJournal.Types
import Mathlib.Data.List.Sort
import Mathlib.Data.List.Range

/-!
# Document validation

`validateDocument` runs on every document that is loaded and again on every document that is about
to be written. The functions follow the source check by check, in its order, with its messages.
`validateDocument_ok_iff` is their meaning: the document is `Valid`, a conjunction of facts about
its sessions and records in which the loops' accumulators no longer appear.
-/

namespace Bria.MessageJournal

open Go List

/-! ## The checks -/

/-- `validateOpaqueID`. -/
def validateOpaqueID (value : GoString) (maxBytes : Nat) (name : String) : Except Err Unit :=
  refuse (value = [] || trimSpace value ≠ value || maxBytes < value.length)
    (.message (name ++ " is invalid"))

/-- `validateLease`. -/
def validateLease (lease : LeaseRecord) (limits : Limits) : Except Err Unit :=
  if lease = {} then .ok ()
  else do
    validateOpaqueID lease.owner limits.maxIDBytes "lease owner"
    refuse (lease.untilUnix ≤ 0) (.message "lease expiry must be positive")

/-- The characters of `validateAttachmentRecord`'s digest. -/
def hexDigits : GoString :=
  [0x30, 0x31, 0x32, 0x33, 0x34, 0x35, 0x36, 0x37, 0x38, 0x39, 0x61, 0x62, 0x63, 0x64, 0x65, 0x66]

/-- `validateAttachmentRecord`. A reference that `filepath.IsAbs` accepts starts with a slash. -/
def validateAttachmentRecord (attachment : AttachmentRecord) (limits : Limits) :
    Except Err Unit := do
  refuse (blank attachment.reference || attachment.reference ≠ trimSpace attachment.reference ||
      limits.maxIDBytes < attachment.reference.length ||
      attachment.reference.head? = some 0x2F ||
      attachment.reference.any (fun b => b = 0x2F || b = 0x5C) ||
      attachment.size ≤ 0 || attachment.sha256.length ≠ 64)
    (.message "invalid input attachment reference")
  refuse (!attachment.sha256.all (fun character => character ∈ hexDigits))
    (.message "invalid input attachment digest")

/-- The phases a committed recovery leaves at or below its boundary. -/
def InputPhase.settled : InputPhase → Bool
  | .completed | .terminalFailed | .skipped => true
  | _ => false

/-- The phases an attached recovery leaves at or below its boundary. -/
def InputPhase.unambiguous : InputPhase → Bool
  | .pending | .accepted | .completed | .terminalFailed | .skipped => true
  | _ => false

/-- The loop over the inputs at or below a recovery's boundary. -/
def checkThrough (through : Nat) (allowed : InputPhase → Bool) (e : Err) :
    List InputRecord → Except Err Unit
  | [] => .ok ()
  | input :: rest =>
    if through < input.sequence then .ok ()
    else do
      refuse (!allowed input.phase) e
      checkThrough through allowed e rest

/-- The checks of `validateSession` on the inputs that a closed recovery covers. -/
def validateRecovered (recovery : InputRecoveryRecord) (inputs : List InputRecord) :
    Except Err Unit :=
  match recovery.phase with
  | .opened => .ok ()
  | .committed =>
    checkThrough recovery.throughSequence InputPhase.settled
      (.message "committed input recovery retains unresolved input") inputs
  | .attached =>
    checkThrough recovery.throughSequence InputPhase.unambiguous
      (.message "attached input recovery retains ambiguous input") inputs

/-- The recovery checks of `validateSession`. -/
def validateRecovery (session : SessionRecord) (limits : Limits) : Except Err Unit :=
  match session.recovery with
  | none => .ok ()
  | some recovery => do
    validateOpaqueID recovery.token limits.maxIDBytes "input recovery token"
    refuse (recovery.throughSequence = 0 || session.nextSequence < recovery.throughSequence)
      (.message "input recovery boundary is invalid")
    validateRecovered recovery session.inputs

/-- The phase switch of the input loop. -/
def validateInputPhase (input : InputRecord) (limits : Limits) : Except Err Unit :=
  match input.phase with
  | .pending => validateLease input.lease limits
  | _ => refuse (input.lease ≠ {}) (.message "terminal or accepted input retains a lease")

/-- The variables of the input loop of `validateSession`. -/
structure InputScan where
  messageIDs : List GoString := []
  pendingInputs : Nat := 0
  previousInputSequence : Nat := 0
  sequences : List Nat := []

/-- The variables after an input that passes. -/
def InputScan.advance (scan : InputScan) (input : InputRecord) : InputScan where
  messageIDs := input.messageID :: scan.messageIDs
  pendingInputs := scan.pendingInputs + if input.phase = .pending then 1 else 0
  previousInputSequence := input.sequence
  sequences := scan.sequences ++ [input.sequence]

section

variable (limits : Limits)

/-- One turn of the input loop of `validateSession`. -/
def scanInput (scan : InputScan) (input : InputRecord) :
    Except Err InputScan := do
  validateOpaqueID input.messageID limits.maxIDBytes "message id"
  refuse (input.messageID ∈ scan.messageIDs) (.message "duplicate message id")
  refuse (input.sequence = 0 || input.sequence ≤ scan.previousInputSequence ||
      limits.maxPayloadBytes < input.payload.length)
    (.message "invalid input sequence or payload")
  (input.attachments.getD []).forM fun attachment => validateAttachmentRecord attachment limits
  validateInputPhase input limits
  .ok (scan.advance input)

/-- The phase switch of the output loop. -/
def validateOutputPhase (output : OutputRecord) (limits : Limits) : Except Err Unit :=
  match output.phase with
  | .pending => do
    refuse (output.receipt ≠ []) (.message "pending output has a receipt")
    validateLease output.lease limits
  | .confirmed =>
    refuse (output.lease ≠ {} || blank output.receipt ||
        limits.maxReceiptBytes < output.receipt.length)
      (.message "confirmed output has invalid receipt or lease")
  | _ =>
    refuse (output.lease ≠ {} || output.receipt ≠ [])
      (.message "terminal unconfirmed output has a receipt or lease")

/-- The variables of the output loop of `validateSession`. -/
structure OutputScan where
  operationIDs : List GoString := []
  previousOutputSequence : Nat := 0
  sequences : List Nat

variable (scan : OutputScan) (output : OutputRecord)

/-- The variables after an output that passes. -/
def OutputScan.advance : OutputScan where
  operationIDs := output.operationID :: scan.operationIDs
  previousOutputSequence := output.sequence
  sequences := scan.sequences ++ [output.sequence]

/-- One turn of the output loop of `validateSession`. -/
def scanOutput :
    Except Err OutputScan := do
  validateOpaqueID output.operationID limits.maxIDBytes "operation id"
  refuse (output.operationID ∈ scan.operationIDs) (.message "duplicate operation id")
  refuse (output.sequence = 0 || output.sequence ≤ scan.previousOutputSequence ||
      limits.maxPayloadBytes < output.payload.length || blank output.kind ||
      limits.maxKindBytes < output.kind.length)
    (.message "invalid output sequence, kind, or payload")
  validateOutputPhase output limits
  .ok (scan.advance output)

end

/-- The last loop of `validateSession`, from index `index` of the sorted sequences. -/
def checkContiguous : Nat → List Nat → Except Err Unit
  | _, [] => .ok ()
  | index, sequence :: rest => do
    refuse (sequence ≠ index + 1) (.message "session sequence is not contiguous and monotonic")
    checkContiguous (index + 1) rest

/-- `validateSession`. -/
def validateSession (session : SessionRecord) (limits : Limits) : Except Err Unit := do
  validateRecovery session limits
  let scan ← session.inputs.foldlM (scanInput limits) {}
  refuse (limits.maxPendingInputsPerSession < scan.pendingInputs)
    (.message "pending input count exceeds queue limit")
  let scan ← session.outputs.foldlM (scanOutput limits) { sequences := scan.sequences }
  refuse (scan.sequences.length ≠ session.nextSequence)
    (.message "next sequence does not match record count")
  checkContiguous 0 (scan.sequences.insertionSort (· ≤ ·))

/-- The session loop of `validateDocument`, after the sessions `seen`. -/
def validateSessions (limits : Limits) : List GoString → List SessionRecord → Except Err Unit
  | _, [] => .ok ()
  | seen, session :: rest => do
    validateOpaqueID session.sessionID limits.maxIDBytes "session id"
    refuse (session.sessionID ∈ seen) (.message "duplicate session id")
    refuse (limits.maxInputsPerSession < session.inputs.length ||
        limits.maxOutputsPerSession < session.outputs.length)
      (.message "session record collection is missing or exceeds its limit")
    (validateSession session limits).mapError (.wrap "session")
    validateSessions limits (session.sessionID :: seen) rest

/-- `validateDocument`. -/
def validateDocument (loaded : Document) (limits : Limits) : Except Err Unit := do
  refuse (loaded.version ≠ formatVersion) (.message "unsupported version")
  refuse (limits.maxSessions < loaded.sessions.length)
    (.message "session collection is missing or exceeds its limit")
  validateSessions limits [] loaded.sessions

/-! ## What they establish -/

/-- An identifier that `validateOpaqueID` admits. -/
def OpaqueID (value : GoString) (maxBytes : Nat) : Prop :=
  value ≠ [] ∧ trimSpace value = value ∧ value.length ≤ maxBytes

variable {u : Unit} {lease : LeaseRecord} {input : InputRecord} {output : OutputRecord}
  {scan : OutputScan} {inputs : List InputRecord} {l : List Nat} {session : SessionRecord}

theorem validateOpaqueID_ok_iff {value : GoString} {maxBytes : Nat} {name : String} :
    validateOpaqueID value maxBytes name = .ok u ↔ OpaqueID value maxBytes := by
  simp [validateOpaqueID, OpaqueID, and_assoc]

/-- A lease is absent, or has an owner and an end after the epoch. -/
def LeaseRecord.Valid (lease : LeaseRecord) (limits : Limits) : Prop :=
  lease = {} ∨ OpaqueID lease.owner limits.maxIDBytes ∧ 0 < lease.untilUnix

variable {limits : Limits}

theorem validateLease_ok_iff : validateLease lease limits = .ok u ↔ lease.Valid limits := by
  unfold validateLease LeaseRecord.Valid
  split_ifs with h <;> simp [h, validateOpaqueID_ok_iff]

/-- A valid lease without an owner is absent. -/
theorem LeaseRecord.Valid.eq_empty (h : lease.Valid limits) (howner : lease.owner = []) :
    lease = {} :=
  h.resolve_right fun h => h.1.1 howner

/-- What the checks ask of one input record. -/
structure InputRecord.Valid (input : InputRecord) (limits : Limits) : Prop where
  messageID : OpaqueID input.messageID limits.maxIDBytes
  payload : input.payload.length ≤ limits.maxPayloadBytes
  attachments : ∀ a ∈ input.attachments.getD [], validateAttachmentRecord a limits = .ok ()
  lease : input.lease.Valid limits
  unleased : input.phase ≠ .pending → input.lease = {}

theorem validateInputPhase_ok_iff :
    validateInputPhase input limits = .ok u ↔
      input.lease.Valid limits ∧ (input.phase ≠ .pending → input.lease = {}) := by
  unfold validateInputPhase
  cases hp : input.phase <;> simp only [validateLease_ok_iff, refuse_eq_ok] <;>
    simp +contextual [LeaseRecord.Valid]

/-- What the checks ask of one output record. -/
structure OutputRecord.Valid (output : OutputRecord) (limits : Limits) : Prop where
  operationID : OpaqueID output.operationID limits.maxIDBytes
  payload : output.payload.length ≤ limits.maxPayloadBytes
  kind : blank output.kind = false
  kindLength : output.kind.length ≤ limits.maxKindBytes
  lease : output.lease.Valid limits
  unleased : output.phase ≠ .pending → output.lease = {}
  receipt : if output.phase = .confirmed
    then blank output.receipt = false ∧ output.receipt.length ≤ limits.maxReceiptBytes
    else output.receipt = []

theorem validateOutputPhase_ok_iff :
    validateOutputPhase output limits = .ok u ↔
      output.lease.Valid limits ∧ (output.phase ≠ .pending → output.lease = {}) ∧
        (if output.phase = .confirmed
          then blank output.receipt = false ∧ output.receipt.length ≤ limits.maxReceiptBytes
          else output.receipt = []) := by
  unfold validateOutputPhase
  cases hp : output.phase <;>
    simp only [check_eq_ok, validateLease_ok_iff, refuse_eq_ok, or_eq_false_iff]
  · simp [and_comm]
  all_goals simp +contextual [LeaseRecord.Valid, and_assoc]

theorem scanInput_ok_iff {scan scan' : InputScan} :
    scanInput limits scan input = .ok scan' ↔
      input.Valid limits ∧ input.messageID ∉ scan.messageIDs ∧
        scan.previousInputSequence < input.sequence ∧ scan' = scan.advance input := by
  simp only [scanInput, forM_eq_forM, check_eq_ok, validateOpaqueID_ok_iff,
    refuse_eq_ok, decide_eq_false_iff_not, or_eq_false_iff, Nat.not_le, Nat.not_lt,
    forM_eq_ok, validateInputPhase_ok_iff, ok.injEq]
  constructor
  · rintro ⟨hid, hnew, ⟨⟨-, hseq⟩, hpay⟩, hatt, ⟨hlease, hun⟩, rfl⟩
    exact ⟨⟨hid, hpay, hatt, hlease, hun⟩, hnew, hseq, rfl⟩
  rintro ⟨⟨hid, hpay, hatt, hlease, hun⟩, hnew, hseq, rfl⟩
  exact ⟨hid, hnew, ⟨⟨by omega, hseq⟩, hpay⟩, hatt, ⟨hlease, hun⟩, rfl⟩

theorem scanOutput_ok_iff {scan' : OutputScan} :
    scanOutput limits scan output = .ok scan' ↔
      output.Valid limits ∧ output.operationID ∉ scan.operationIDs ∧
        scan.previousOutputSequence < output.sequence ∧ scan' = scan.advance output := by
  simp only [scanOutput, check_eq_ok, validateOpaqueID_ok_iff, refuse_eq_ok,
    decide_eq_false_iff_not, or_eq_false_iff, Nat.not_le, Nat.not_lt,
    validateOutputPhase_ok_iff, ok.injEq]
  constructor
  · rintro ⟨hid, hnew, ⟨⟨⟨⟨-, hseq⟩, hpay⟩, hkind⟩, hlen⟩, ⟨hlease, hun, hrec⟩, rfl⟩
    exact ⟨⟨hid, hpay, hkind, hlen, hlease, hun, hrec⟩, hnew, hseq, rfl⟩
  rintro ⟨⟨hid, hpay, hkind, hlen, hlease, hun, hrec⟩, hnew, hseq, rfl⟩
  exact ⟨hid, hnew, ⟨⟨⟨⟨by omega, hseq⟩, hpay⟩, hkind⟩, hlen⟩, ⟨hlease, hun, hrec⟩, rfl⟩

theorem scanInputs_ok_iff {scan : InputScan} :
    inputs.foldlM (scanInput limits) {} = .ok scan ↔
      (∀ r ∈ inputs, r.Valid limits) ∧ (inputs.map (·.messageID)).Nodup ∧
        (0 :: inputs.map (·.sequence)).Pairwise (· < ·) ∧
        scan = inputs.foldl InputScan.advance {} := by
  have hstep := fun (s : InputScan) (a : InputRecord) (s' : InputScan) =>
    (scanInput_ok_iff : scanInput limits s a = .ok s' ↔ _)
  rw [Table.scan_ok_iff hstep (fun _ _ => rfl) (fun _ _ => rfl)]
  simp

theorem scanOutputs_ok_iff {outputs : List OutputRecord} {sequences : List Nat} :
    outputs.foldlM (scanOutput limits) { sequences } = .ok scan ↔
      (∀ r ∈ outputs, r.Valid limits) ∧ (outputs.map (·.operationID)).Nodup ∧
        (0 :: outputs.map (·.sequence)).Pairwise (· < ·) ∧
        scan = outputs.foldl OutputScan.advance { sequences } := by
  have hstep := fun (s : OutputScan) (a : OutputRecord) (s' : OutputScan) =>
    (scanOutput_ok_iff : scanOutput limits s a = .ok s' ↔ _)
  rw [Table.scan_ok_iff hstep (fun _ _ => rfl) (fun _ _ => rfl)]
  simp

/-- The sequences and the pending count that the input loop leaves. -/
theorem foldl_advance_input (inputs : List InputRecord) (scan : InputScan) :
    (inputs.foldl InputScan.advance scan).sequences = scan.sequences ++ inputs.map (·.sequence) ∧
      (inputs.foldl InputScan.advance scan).pendingInputs =
        scan.pendingInputs + inputs.countP (·.phase = .pending) := by
  induction inputs generalizing scan with
  | nil => simp
  | cons r inputs ih =>
    obtain ⟨hseq, hpend⟩ := ih (scan.advance r)
    rw [foldl_cons, hseq, hpend, countP_cons]
    refine ⟨by simp [InputScan.advance], ?_⟩
    simp only [InputScan.advance, decide_eq_true_eq]
    omega

theorem foldl_advance_output (outputs : List OutputRecord) (scan : OutputScan) :
    (outputs.foldl OutputScan.advance scan).sequences =
      scan.sequences ++ outputs.map (·.sequence) := by
  induction outputs generalizing scan with
  | nil => simp
  | cons r outputs ih => simp [ih, OutputScan.advance]

/-- The contiguity loop passes exactly on the sequences that count up from its index. -/
theorem checkContiguous_ok_iff {index : Nat} :
    checkContiguous index l = .ok u ↔ l = List.range' (index + 1) l.length := by
  induction l generalizing index with
  | nil => simp [checkContiguous]
  | cons n l ih => simp [checkContiguous, ih, range'_succ]

/-- Sorted sequences count up from one exactly when the sequences are a permutation of that
count. -/
theorem insertionSort_eq_range'_iff {n : Nat} :
    l.insertionSort (· ≤ ·) = List.range' 1 n ↔ l.Perm (List.range' 1 n) := by
  constructor
  · intro h
    rw [← h]
    exact (perm_insertionSort _ l).symm
  intro h
  refine List.Perm.eq_of_pairwise' (pairwise_insertionSort _ l) ?_
    ((perm_insertionSort _ l).trans h)
  exact (pairwise_lt_range' 1).imp Nat.le_of_lt

/-- The loop over a boundary's inputs, whose sequences increase. -/
theorem checkThrough_ok_iff {through : Nat} {allowed : InputPhase → Bool} {e : Err}
    (hsorted : (inputs.map (·.sequence)).Pairwise (· < ·)) :
    checkThrough through allowed e inputs = .ok u ↔
      ∀ r ∈ inputs, r.sequence ≤ through → allowed r.phase := by
  induction inputs with
  | nil => simp [checkThrough]
  | cons r inputs ih =>
    rw [map_cons, pairwise_cons] at hsorted
    rw [forall_mem_cons, checkThrough]
    split_ifs with hlt
    · -- The source leaves the loop at the first input above the boundary.
      refine iff_of_true rfl ⟨fun h => absurd h (by omega), fun x hx h => ?_⟩
      have := hsorted.1 _ (mem_map_of_mem hx)
      omega
    rw [check_eq_ok, ih hsorted.2, refuse_eq_ok, not_eq_false']
    exact and_congr_left' ⟨fun h _ => h, fun h => h (by omega)⟩

/-- What a recovery record asks of its session. -/
structure InputRecoveryRecord.Valid (recovery : InputRecoveryRecord) (session : SessionRecord)
    (limits : Limits) : Prop where
  token : OpaqueID recovery.token limits.maxIDBytes
  positive : 0 < recovery.throughSequence
  bounded : recovery.throughSequence ≤ session.nextSequence
  committed : recovery.phase = .committed →
    ∀ r ∈ session.inputs, r.sequence ≤ recovery.throughSequence → r.phase.settled
  attached : recovery.phase = .attached →
    ∀ r ∈ session.inputs, r.sequence ≤ recovery.throughSequence → r.phase.unambiguous

/-- A session that `validateSession` admits. -/
structure SessionRecord.Valid (session : SessionRecord) (limits : Limits) : Prop where
  recovery : ∀ recovery, session.recovery = some recovery → recovery.Valid session limits
  inputs : ∀ r ∈ session.inputs, r.Valid limits
  messageIDs : (session.inputs.map (·.messageID)).Nodup
  inputOrder : (0 :: session.inputs.map (·.sequence)).Pairwise (· < ·)
  pending : session.inputs.countP (·.phase = .pending) ≤ limits.maxPendingInputsPerSession
  outputs : ∀ r ∈ session.outputs, r.Valid limits
  operationIDs : (session.outputs.map (·.operationID)).Nodup
  outputOrder : (0 :: session.outputs.map (·.sequence)).Pairwise (· < ·)
  sequences : (session.inputs.map (·.sequence) ++ session.outputs.map (·.sequence)).Perm
    (List.range' 1 session.nextSequence)

/-- The meaning of the recovery checks, on inputs whose sequences increase. -/
theorem validateRecovery_ok_iff (hsorted : (session.inputs.map (·.sequence)).Pairwise (· < ·)) :
    validateRecovery session limits = .ok u ↔
      ∀ recovery, session.recovery = some recovery → recovery.Valid session limits := by
  unfold validateRecovery validateRecovered
  rcases session.recovery with _ | recovery
  · simp
  simp only [check_eq_ok, validateOpaqueID_ok_iff, refuse_eq_ok, or_eq_false_iff,
    decide_eq_false_iff_not, Nat.not_lt, some.injEq, forall_eq']
  have hpos : ¬ recovery.throughSequence = 0 ↔ 0 < recovery.throughSequence := by omega
  constructor
  · rintro ⟨htok, ⟨hz, hle⟩, hphase⟩
    refine ⟨htok, hpos.mp hz, hle, fun hp => ?_, fun hp => ?_⟩
    all_goals
      rw [hp] at hphase
      exact (checkThrough_ok_iff hsorted).mp hphase
  rintro ⟨htok, hz, hle, hcom, hatt⟩
  refine ⟨htok, ⟨hpos.mpr hz, hle⟩, ?_⟩
  cases hp : recovery.phase with
  | opened => rfl
  | committed => exact (checkThrough_ok_iff hsorted).mpr (hcom hp)
  | attached => exact (checkThrough_ok_iff hsorted).mpr (hatt hp)

theorem validateSession_ok_iff : validateSession session limits = .ok u ↔ session.Valid limits := by
  simp only [validateSession, check_eq_ok, bind_eq_ok (α := InputScan),
    bind_eq_ok (α := OutputScan), scanInputs_ok_iff, scanOutputs_ok_iff, refuse_eq_ok,
    checkContiguous_ok_iff, decide_eq_false_iff_not, Nat.not_lt, not_not,
    length_insertionSort]
  constructor
  · rintro ⟨hrec, _, ⟨hin, hids, hord, rfl⟩, hpend, _, ⟨hout, hops, hoord, rfl⟩, hlen, hcont⟩
    simp only [foldl_advance_output, foldl_advance_input, nil_append] at hlen hcont hpend
    rw [hlen, insertionSort_eq_range'_iff] at hcont
    exact ⟨(validateRecovery_ok_iff (pairwise_cons.mp hord).2).mp hrec, hin, hids, hord,
      by simpa using hpend, hout, hops, hoord, hcont⟩
  rintro ⟨hrec, hin, hids, hord, hpend, hout, hops, hoord, hperm⟩
  have hlen := hperm.length_eq
  rw [length_range'] at hlen
  refine ⟨(validateRecovery_ok_iff (pairwise_cons.mp hord).2).mpr hrec, _,
    ⟨hin, hids, hord, rfl⟩, ?_, _, ⟨hout, hops, hoord, rfl⟩, ?_, ?_⟩
  · simpa [foldl_advance_input] using hpend
  · simpa [foldl_advance_output, foldl_advance_input] using hlen
  simp only [foldl_advance_output, foldl_advance_input, nil_append]
  rw [hlen]
  exact insertionSort_eq_range'_iff.mpr hperm

/-- A document that `validateDocument` admits. -/
structure Document.Valid (loaded : Document) (limits : Limits) : Prop where
  version : loaded.version = formatVersion
  sessionCount : loaded.sessions.length ≤ limits.maxSessions
  sessionIDs : (loaded.sessions.map (·.sessionID)).Nodup
  sessionID : ∀ s ∈ loaded.sessions, OpaqueID s.sessionID limits.maxIDBytes
  inputCount : ∀ s ∈ loaded.sessions, s.inputs.length ≤ limits.maxInputsPerSession
  outputCount : ∀ s ∈ loaded.sessions, s.outputs.length ≤ limits.maxOutputsPerSession
  sessions : ∀ s ∈ loaded.sessions, s.Valid limits

theorem validateSessions_ok_iff {seen : List GoString} {sessions : List SessionRecord} :
    validateSessions limits seen sessions = .ok u ↔
      (sessions.map (·.sessionID)).Nodup ∧ (∀ s ∈ sessions, s.sessionID ∉ seen) ∧
        ∀ s ∈ sessions, OpaqueID s.sessionID limits.maxIDBytes ∧
          s.inputs.length ≤ limits.maxInputsPerSession ∧
          s.outputs.length ≤ limits.maxOutputsPerSession ∧ s.Valid limits := by
  have hmap : ∀ s : SessionRecord, ((validateSession s limits).mapError (.wrap "session") : Except
      Err Unit) = .ok () ↔ s.Valid limits := by
    intro s
    rw [← validateSession_ok_iff (u := ())]
    cases validateSession s limits <;> simp [Except.mapError]
  induction sessions generalizing seen with
  | nil => simp [validateSessions]
  | cons s sessions ih =>
    simp only [validateSessions, check_eq_ok, validateOpaqueID_ok_iff, refuse_eq_ok,
      or_eq_false_iff, decide_eq_false_iff_not, Nat.not_lt, hmap, ih, map_cons,
      nodup_cons, forall_mem_cons, mem_map, not_exists, not_and]
    constructor
    · rintro ⟨hid, hnew, ⟨hin, hout⟩, hv, hnodup, hfresh, hall⟩
      simp only [mem_cons, not_or] at hfresh
      exact ⟨⟨fun x hx hxs => (hfresh x hx).1 hxs, hnodup⟩,
        ⟨hnew, fun x hx => (hfresh x hx).2⟩, ⟨hid, hin, hout, hv⟩, hall⟩
    rintro ⟨⟨hkey, hnodup⟩, ⟨hnew, hfresh⟩, ⟨hid, hin, hout, hv⟩, hall⟩
    refine ⟨hid, hnew, ⟨hin, hout⟩, hv, hnodup, fun x hx => ?_, hall⟩
    rw [mem_cons, not_or]
    exact ⟨hkey x hx, hfresh x hx⟩

theorem validateDocument_ok_iff {loaded : Document} :
    validateDocument loaded limits = .ok u ↔ loaded.Valid limits := by
  simp only [validateDocument, check_eq_ok, refuse_eq_ok, decide_eq_false_iff_not, not_not,
    Nat.not_lt, validateSessions_ok_iff, not_mem_nil, not_false_eq_true, implies_true,
    true_and]
  constructor
  · rintro ⟨hver, hcount, hnodup, hall⟩
    exact ⟨hver, hcount, hnodup, fun s hs => (hall s hs).1, fun s hs => (hall s hs).2.1,
      fun s hs => (hall s hs).2.2.1, fun s hs => (hall s hs).2.2.2⟩
  rintro ⟨hver, hcount, hnodup, hid, hin, hout, hv⟩
  exact ⟨hver, hcount, hnodup, fun s hs => ⟨hid s hs, hin s hs, hout s hs, hv s hs⟩⟩

/-! ## How they fail

A failed check never looks like one of the package's sentinels, such as `errNoMutation`, which the
operations turn into success. -/

variable {target : Sentinel}

section

variable (session : SessionRecord) (limits : Limits)

theorem avoids_validateLease (lease : LeaseRecord) (limits : Limits) :
    Avoids target (validateLease lease limits) := by
  unfold validateLease
  split_ifs
  · exact .ok ()
  · exact .check rfl <| .refuse _ rfl

theorem avoids_checkThrough (through : Nat) (allowed : InputPhase → Bool) (text : String)
    (inputs : List InputRecord) :
    Avoids target (checkThrough through allowed (.message text) inputs) := by
  induction inputs with
  | nil => exact .ok ()
  | cons input rest ih =>
    unfold checkThrough
    split_ifs
    · exact .ok ()
    · exact .check rfl <| ih

theorem avoids_validateRecovery : Avoids target (validateRecovery session limits) := by
  unfold validateRecovery validateRecovered
  split
  · exact .ok ()
  refine .check rfl <| .check rfl <| ?_
  split
  · exact .ok ()
  · exact avoids_checkThrough _ _ _ _
  · exact avoids_checkThrough _ _ _ _

theorem avoids_scanInput (scan : InputScan) (input : InputRecord) :
    Avoids target (scanInput limits scan input) := by
  refine .check rfl <| .check rfl <| .check rfl <|
    .bind (.forM (fun _ => .check rfl <| .refuse _ rfl) _) fun _ => .bind ?_ fun _ =>
    .ok _
  unfold validateInputPhase
  split
  · exact avoids_validateLease _ _
  · exact .refuse _ rfl

theorem avoids_scanOutput (scan : OutputScan) (output : OutputRecord) :
    Avoids target (scanOutput limits scan output) := by
  refine .check rfl <| .check rfl <| .check rfl <|
    .bind ?_ fun _ => .ok _
  unfold validateOutputPhase
  split
  · exact .check rfl <| avoids_validateLease _ _
  · exact .refuse _ rfl
  · exact .refuse _ rfl

theorem avoids_checkContiguous (index : Nat) (l : List Nat) :
    Avoids target (checkContiguous index l) := by
  induction l generalizing index with
  | nil => exact .ok ()
  | cons n l ih => exact .check rfl <| ih _

theorem avoids_validateSession : Avoids target (validateSession session limits) :=
  .bind (avoids_validateRecovery _ _) fun _ => .bind (.foldlM (avoids_scanInput limits) _ _)
    fun _ => .check rfl <| .bind (.foldlM (avoids_scanOutput limits) _ _)
    fun _ => .check rfl <| avoids_checkContiguous _ _

end

theorem avoids_validateDocument (loaded : Document) (limits : Limits) :
    Avoids target (validateDocument loaded limits) := by
  refine .check rfl <| .check rfl <| ?_
  generalize [] = seen
  induction loaded.sessions generalizing seen with
  | nil => exact .ok ()
  | cons session rest ih =>
    exact .check rfl <| .check rfl <| .check rfl <|
      .bind ((avoids_validateSession session limits).mapError fun _ h => h) fun _ => ih _

end Bria.MessageJournal
