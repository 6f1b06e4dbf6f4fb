import Bria.MessageJournal.Returned

/-!
# Receipts and the journal

`read.go`: an acknowledgement of the provider names one input by its session, its message id and
its sequence, and is looked up in one snapshot of the journal. What a lookup sees is the record
that the file holds for the receipt (`recordAt`), and that record is followed through the
operations of the journal by the receipt.
-/

namespace Bria.AcceptedInput

open Go MessageJournal

/-- `receipt`: the exact input that was acknowledged. -/
structure Receipt where
  (sessionID messageID : GoString)
  sequence : Nat
  deriving DecidableEq

section

variable (limits : Limits) (ctx : Context) (fault : Bool) (key : Receipt)

/-- `Lookup`: the input of a receipt and the snapshot it is from. -/
def lookup (disk : Disk) :
    Except Err (Input × List Input) := do
  refuse (blank key.sessionID || blank key.messageID || key.sequence = 0) (err .invalidReceipt)
  let inputs ← MessageJournal.inputs limits ctx fault key.sessionID disk
  match inputs.find? fun input => input.sessionID = key.sessionID &&
      input.messageID = key.messageID && input.sequence = key.sequence with
  | some input => .ok (input, inputs)
  | none => .error (err .invalidReceipt)

/-- The phases that `VerifyAcceptance` and the start of `Commit` take for an acceptance. -/
def acknowledged (phase : Option InputPhase) : Bool :=
  phase = some .accepted || phase = some .completed || phase = some .terminalFailed ||
    phase = some .failed

/-! ## The record of a receipt -/

/-- The record that a file holds for a receipt. -/
def recordAt (disk : Disk) (key : Receipt) : Option InputRecord :=
  match read limits disk with
  | .ok loaded =>
    (lookupInput loaded key.sessionID key.messageID).filter (·.sequence = key.sequence)
  | .error _ => none

/-- A file that loads. -/
def Loads (disk : Disk) : Prop := ∃ loaded, read limits disk = .ok loaded

end

variable {limits : Limits} {disk disk' : Disk} {key : Receipt} {ctx : Context} {faults : Faults}

/-- The record of a receipt, as it is found in the document. -/
theorem recordAt_eq_some {r : InputRecord} :
    recordAt limits disk key = some r ↔
      ∃ loaded, read limits disk = .ok loaded ∧
        lookupInput loaded key.sessionID key.messageID = some r ∧ r.sequence = key.sequence := by
  unfold recordAt
  rcases hread : read limits disk with e | loaded
  · simp
  · simp [filter_eq_some_iff]

/-- A lookup returns the record of the receipt. -/
theorem lookup_eq_ok {fault : Bool} {input : Input} {inputs : List Input}
    (h : lookup limits ctx fault key disk = .ok (input, inputs)) :
    ∃ r, recordAt limits disk key = some r ∧ input = inputFromRecord key.sessionID r := by
  simp only [lookup, MessageJournal.inputs, readFile, bind_eq_ok] at h
  obtain ⟨-, -, all, ⟨-, -, -, -, loaded, ⟨-, -, hread⟩, -, -, hall⟩, hfound⟩ := h
  split at hfound
  · next input' hfind =>
    obtain ⟨rfl, rfl⟩ : input' = input ∧ all = inputs := by simpa using hfound
    rcases hs : sessionAt loaded key.sessionID with _ | s
    · simp only [hs, ok.injEq] at hall
      simp [← hall] at hfind
    simp only [hs, ok.injEq] at hall
    subst hall
    have hmem := mem_of_find?_eq_some hfind
    have hids := find?_some hfind
    obtain ⟨r, hr, rfl⟩ := mem_map.mp hmem
    simp only [and_eq_true] at hids
    have hmid : r.messageID = key.messageID := of_decide_eq_true hids.1.2
    refine ⟨r, recordAt_eq_some.mpr ⟨loaded, hread, ?_, of_decide_eq_true hids.2⟩, rfl⟩
    rw [← hmid]
    exact lookupInput_of_mem (valid_of_read hread) hs hr
  · cases hfound

/-- An acceptance that returns no error is stored, for the receipt that it reports. -/
theorem markInputAccepted_nil {owner : GoString} {accepted : Input}
    (h : (markInputAccepted limits ctx key.sessionID key.messageID owner).run limits faults disk =
      ((accepted, none), disk')) (hsequence : accepted.sequence = key.sequence) :
    ∃ r, recordAt limits disk' key = some r ∧ r.phase = .accepted := by
  have hid : ∀ s r r', acceptTransition owner s r = .ok r' → r'.messageID = r.messageID := by
    intro s r r' ht
    simp only [acceptTransition, check_eq_ok, ok.injEq] at ht
    obtain ⟨-, -, -, -, -, rfl⟩ := ht
    rfl
  obtain ⟨s, r, d1, r1, hread1, hr1, rfl, hend⟩ := transitionInput_nil hid h
  refine ⟨r1, recordAt_eq_some.mpr ⟨d1, hread1, hr1, hsequence⟩, ?_⟩
  rcases hend with ht | ⟨rfl, e, ht, hnoop⟩
  · simp only [acceptTransition, check_eq_ok, ok.injEq] at ht
    obtain ⟨-, -, -, -, -, rfl⟩ := ht
    rfl
  -- Of the refusals only that of an accepted input counts as success.
  simp only [acceptTransition, refuse_bind_eq_error, decide_eq_true_eq, reduceCtorEq,
    and_false, or_false] at ht
  rcases ht with ⟨-, rfl⟩ | ⟨-, ⟨-, rfl⟩ | ⟨-, ⟨hphase, -⟩ | ⟨-, ⟨-, rfl⟩ | ⟨-, -, rfl⟩⟩⟩⟩
  · cases hnoop
  · cases hnoop
  · exact hphase
  · cases hnoop
  · cases hnoop

/-- The file does not load, or it holds a record of the receipt that satisfies `P`. -/
def Tracks (limits : Limits) (P : InputRecord → Prop) (disk : Disk) (key : Receipt) : Prop :=
  Loads limits disk → ∃ r, recordAt limits disk key = some r ∧ P r

/-- A step of the journal keeps what it keeps of every record. -/
theorem Tracks.step {P : InputRecord → Prop} {op : Op}
    (hP : ∀ r r1, InputKept limits disk [⟨op, faults⟩] key.sessionID key.messageID r r1 →
      P r → P r1) (h : Tracks limits P disk key) :
    Tracks limits P (op.step limits faults disk) key := by
  rintro ⟨d1, hread1⟩
  obtain ⟨d, hread⟩ := read_of_read_step hread1
  obtain ⟨r, hrecord, hr⟩ := h ⟨d, hread⟩
  obtain ⟨d', hread', hlookup, hseq⟩ := recordAt_eq_some.mp hrecord
  obtain rfl : d = d' := ok.inj (hread.symm.trans hread')
  obtain ⟨r1, hr1, hkept⟩ := Op.step_inputKept hread hread1 hlookup
  exact ⟨r1, recordAt_eq_some.mpr ⟨d1, hread1, hr1, hkept.identity.2.trans hseq⟩, hP r r1 hkept hr⟩

end Bria.AcceptedInput
