import Bria.Coordinator.Loop

/-!
# Lawful logs

What the log of a coordinator must look like, entry by entry, whatever program wrote it. The log
says what the store holds (`durable`), which messages were ever on record as prepared or unknown
(`Recorded`), and which ids a poll left out (`Omitted`). Each entry is judged by the log before it
(`Admissible`): a save may move the offset only to the end of an update that has an outcome, an
automatic send must be of a message that was put on record just before and never earlier. The
theorems of the second half are about every lawful log; that the programs write lawful logs is in
`Bria.Coordinator.Safety`.
-/

namespace Bria.Coordinator

open Go

/-! ## Reading a log -/

/-- The checkpoint in the store after a log, which started with `init`. -/
def durable (init : Option Checkpoint) : List Entry → Option Checkpoint
  | [] => init
  | .saved _ (some written) :: _ => some written
  | _ :: log => durable init log

/-- The outbound operation of a checkpoint is of an update that its offset has not passed. -/
def Checkpoint.Ahead (c : Checkpoint) (id : Int) : Prop :=
  ∃ o, c.outbound = some o ∧ o.updateID = id ∧ c.nextUpdateID ≤ id

/-- The checkpoint has the message of an update as prepared or unknown. -/
def Checkpoint.Records (c : Checkpoint) (id : Int) : Prop :=
  ∃ o, c.outbound = some o ∧ o.updateID = id ∧ o.phase.unresolved

/-- Some checkpoint in the store had the message of an update as prepared or unknown. -/
def Recorded (init : Option Checkpoint) (log : List Entry) (id : Int) : Prop :=
  (∃ c, init = some c ∧ c.Records id) ∨ ∃ next c, .saved next (some c) ∈ log ∧ c.Records id

/-- An accepted batch has an update after this id and from an offset before it, but not the update
with this id: the source did not deliver it. -/
def Omitted (log : List Entry) (id : Int) : Prop :=
  ∃ offset updates, .polled offset updates ∈ log ∧ validateUpdates offset updates = .ok () ∧
    offset ≤ id ∧ (∃ update ∈ updates, id < update.id) ∧ ∀ update ∈ updates, update.id ≠ id

/-- The log ends with a decision to answer an update with a status. -/
inductive Chosen : List Entry → Int → Status → Prop where
  /-- The handler decided so. -/
  | decided {older : List Entry} {update : Update} {decision : Decision}
      (kind : decision.kind = .status) :
      Chosen (.decided update decision :: older) update.id decision.status
  /-- The handler failed and prepared a prompt. -/
  | prompted {older : List Entry} {update : Update} {control : RecoveryControl} {prompt : Decision}
      (kind : prompt.kind = .status) :
      Chosen (.prompted update control prompt :: older) update.id prompt.status
  /-- The sender has no record of its own of the status. -/
  | unhandled {older : List Entry} {id : Int} {operationID : GoString} {status : Status}
      (chosen : Chosen older id status) :
      Chosen (.told .deliverPrepared id operationID none :: older) id status

/-- At the end of a log, saving `next` over `before` makes the outcome of an update's decision
durable. -/
inductive Outcome (before next : Checkpoint) : List Entry → Int → Prop where
  /-- The handler decided to skip the update. -/
  | skipped {older : List Entry} {update : Update} {decision : Decision}
      (kind : decision.kind = .skip) : Outcome before next (.decided update decision :: older)
        update.id
  /-- The sender delivered the status from its own record and gave a receipt. -/
  | delivered {older : List Entry} {id : Int} {o : Outbound} {receipt : Receipt}
      (chosen : Chosen older id o.status) (saved : next.outbound = some o) (update : o.updateID = id)
      (phase : o.phase = .confirmed) (proof : o.receipt = some receipt)
      (positive : 0 < receipt.messageID) :
      Outcome before next (.told .deliverPrepared id o.operationID (some (.receipt receipt)) ::
        older) id
  /-- The message on record has a receipt. -/
  | confirmed {older : List Entry} {way : Way} {id : Int} {o o' : Outbound} {receipt : Receipt}
      (record : before.outbound = some o) (saved : next.outbound = some o') (update : o.updateID = id)
      (same : o'.operationID = o.operationID ∧ o'.updateID = id ∧ o'.status = o.status)
      (phase : o'.phase = .confirmed) (proof : o'.receipt = some receipt)
      (positive : 0 < receipt.messageID) :
      Outcome before next (.told way id o.operationID (some (.receipt receipt)) :: older) id
  /-- The message on record is in the sender's own queue. -/
  | enqueued {older : List Entry} {id : Int} {o o' : Outbound} {receipt : DurableOutboundReceipt}
      (record : before.outbound = some o) (saved : next.outbound = some o') (update : o.updateID = id)
      (same : o'.operationID = o.operationID ∧ o'.updateID = id ∧ o'.status = o.status)
      (phase : o'.phase = .enqueued) (proof : o'.durable = some receipt) :
      Outcome before next (.told .enqueue id o.operationID (some (.durable receipt)) :: older) id

/-! ## Lawful entries -/

/-- What a save may do at the end of a log. -/
structure SaveLawful (init : Option Checkpoint) (past : List Entry) (next : Checkpoint) : Prop where
  /-- The checkpoint is valid. -/
  valid : validateCheckpoint next = .ok ()
  /-- The offset does not decrease. -/
  forward : ∀ before, durable init past = some before → before.nextUpdateID ≤ next.nextUpdateID
  /-- The offset moves to the end of one update, whose decision then has a durable outcome. It is
  the update of the message on record, if there is one; otherwise the source did not deliver the
  ids before it. -/
  outcome : ∀ before, durable init past = some before → before.nextUpdateID < next.nextUpdateID →
    ∃ id, next.nextUpdateID = id + 1 ∧ before.nextUpdateID ≤ id ∧ Outcome before next past id ∧
      (∀ other, before.Ahead other → other = id) ∧
      ((∀ other, ¬ before.Ahead other) → ∀ w, before.nextUpdateID ≤ w → w < id → Omitted past w)
  /-- A message on record stays there until the offset passes it. -/
  held : ∀ before id, durable init past = some before → before.Ahead id →
    next.Ahead id ∨ id < next.nextUpdateID
  /-- A message comes on record with the offset unchanged, by a decision, and only if none is
  there. -/
  recorded : ∀ id, next.Ahead id → ∃ before, durable init past = some before ∧
    before.nextUpdateID = next.nextUpdateID ∧ (before.Ahead id ∨ (∀ other, ¬ before.Ahead other) ∧
      (∃ o, next.outbound = some o ∧ Chosen past id o.status) ∧
      ∀ w, next.nextUpdateID ≤ w → w < id → Omitted past w)

/-- The message of an update was put on record as prepared by the last save, and never before. -/
def Fresh (init : Option Checkpoint) (past : List Entry) (id : Int) (operationID : GoString) :
    Prop :=
  ∃ next c o older, past = .saved next (some c) :: older ∧ c.outbound = some o ∧
    o.operationID = operationID ∧ o.updateID = id ∧ o.phase = .prepared ∧ ¬ Recorded init older id

/-- Whether an entry may stand after a log. -/
def Admissible (init : Option Checkpoint) (past : List Entry) : Entry → Prop
  -- The loop polls from the stored offset, with no message on record.
  | .polled offset _ => ∃ before, durable init past = some before ∧
      before.nextUpdateID = offset ∧ ∀ id, ¬ before.Ahead id
  | .saved next written => SaveLawful init past next ∧ ∀ c ∈ written, c.Keeps next
  | .told .deliverPrepared id _ _ => ¬ Recorded init past id
  | .told .enqueue id op _ | .told .send id op _ => Fresh init past id op
  | _ => True

/-- Every entry of the log may stand after the ones before it. -/
def Lawful (init : Option Checkpoint) : List Entry → Prop
  | [] => True
  | entry :: past => Admissible init past entry ∧ Lawful init past

/-- The decision on an update has a durable outcome: the save that moved the offset to its end. -/
def Passed (init : Option Checkpoint) (log : List Entry) (id : Int) : Prop :=
  ∃ newer next written older before, log = newer ++ .saved next (some written) :: older ∧
    durable init older = some before ∧ before.nextUpdateID ≤ id ∧ next.nextUpdateID = id + 1 ∧
    written.nextUpdateID = id + 1 ∧ Outcome before next older id

/-! ## What every lawful log has -/

section Lawful

variable {init : Option Checkpoint} {log older newer past : List Entry} {entry : Entry}
  {c next before : Checkpoint} {id : Int}

/-- A new entry either put the checkpoint in the store or left the store alone. -/
theorem durable_cons (h : durable init (entry :: past) = some c) :
    (∃ next, entry = .saved next (some c)) ∨
      (∀ next written, entry ≠ .saved next (some written)) ∧ durable init past = some c := by
  cases entry with
  | saved next written =>
    cases written with
    | none => exact .inr ⟨by simp, h⟩
    | some written =>
      obtain rfl : written = c := some.inj h
      exact .inl ⟨next, rfl⟩
  | polled | decided | prompted | told => exact .inr ⟨by simp, h⟩

/-- A written checkpoint has the messages on record that the saved one has. -/
theorem Checkpoint.Keeps.ahead_iff (h : c.Keeps next) : c.Ahead id ↔ next.Ahead id := by
  obtain ⟨hoffset, hout⟩ := h
  cases hc : c.outbound <;> cases hn : next.outbound <;>
    simp_all [Checkpoint.Ahead]

/-- The message that a valid checkpoint has as prepared or unknown is of an update that the offset
has not passed. -/
theorem Checkpoint.Records.ahead (h : c.Records id) (hkeeps : c.Keeps next)
    (hvalid : validateCheckpoint next = .ok ()) : c.Ahead id := by
  obtain ⟨o, hout, rfl, hphase⟩ := h
  obtain ⟨hoffset, hkept⟩ := hkeeps
  obtain ⟨o', hout', hsame⟩ : ∃ o', next.outbound = some o' ∧
      (o'.updateID, o'.phase) = (o.updateID, o.phase) := by
    simpa [hout] using hkept.symm
  obtain ⟨hid, hphase'⟩ := Prod.mk.inj hsame
  have hle := (unresolved_iff_of_valid hvalid hout').mp (hphase' ▸ hphase)
  exact ⟨o, hout, rfl, by omega⟩

/-- A message was ever on record before the newest entry, or the newest entry put it there. -/
theorem recorded_cons (h : Recorded init (entry :: past) id) :
    Recorded init past id ∨ ∃ next c, entry = .saved next (some c) ∧ c.Records id := by
  rcases h with hinit | ⟨next, c, hmem, hrec⟩
  · exact .inl (.inl hinit)
  rcases mem_cons.mp hmem with rfl | hmem
  · exact .inr ⟨next, c, rfl, hrec⟩
  · exact .inl (.inr ⟨next, c, hmem, hrec⟩)

/-- A store that had a message on record is not empty. -/
theorem Recorded.durable (h : Recorded init log id) : ∃ c, durable init log = some c := by
  induction log with
  | nil =>
    rcases h with ⟨c, hinit, -⟩ | ⟨next, c, hmem, -⟩
    · exact ⟨c, hinit⟩
    · cases hmem
  | cons entry past ih =>
    rcases recorded_cons h with hpast | ⟨next, c, rfl, -⟩
    · obtain ⟨c, hc⟩ := ih hpast
      cases entry with
      | saved next written =>
        cases written with
        | none => exact ⟨c, hc⟩
        | some written => exact ⟨written, rfl⟩
      | polled | decided | prompted | told => exact ⟨c, hc⟩
    · exact ⟨c, rfl⟩

/-- A message that was ever on record is on record still, or the offset has passed its update. -/
theorem Lawful.recorded_cases (h : Lawful init log) (hrec : Recorded init log id)
    (hnow : durable init log = some c) : c.Ahead id ∨ id < c.nextUpdateID := by
  induction log generalizing c with
  | nil =>
    rcases hrec with ⟨c', hinit, o, hout, hid, -⟩ | ⟨next, c', hmem, -⟩
    · obtain rfl : c' = c := mem_unique hinit hnow
      rcases Int.lt_or_le id c'.nextUpdateID with hlt | hle
      · exact .inr hlt
      · exact .inl ⟨o, hout, hid, hle⟩
    · cases hmem
  | cons entry past ih =>
    rcases durable_cons hnow with ⟨next, rfl⟩ | ⟨hentry, hpast⟩
    · obtain ⟨hsave, hkeeps⟩ := h.1
      have hkept := hkeeps c rfl
      rcases recorded_cons hrec with hrec | ⟨next', c', heq, hrec⟩
      · -- The save keeps what was on record until the offset passes it.
        obtain ⟨before, hbefore⟩ := hrec.durable
        have hforward := hsave.forward before hbefore
        rcases ih h.2 hrec hbefore with hahead | hlt
        · rcases hsave.held before id hbefore hahead with hahead | hlt
          · exact .inl (hkept.ahead_iff.mpr hahead)
          · exact .inr (hkept.1 ▸ hlt)
        · exact .inr (by rw [hkept.1]; omega)
      obtain ⟨rfl, hc⟩ := Entry.saved.inj heq
      obtain rfl : c = c' := some.inj hc
      exact .inl (hrec.ahead hkept hsave.valid)
    · rcases recorded_cons hrec with hrec | ⟨next', c', heq, -⟩
      · exact ih h.2 hrec hpast
      · exact absurd heq (hentry next' c')

/-- An id stays left out. -/
theorem Omitted.cons (h : Omitted past id) : Omitted (entry :: past) id := by
  obtain ⟨offset, updates, hmem, hrest⟩ := h
  exact ⟨offset, updates, mem_cons_of_mem entry hmem, hrest⟩

/-- An update stays passed. -/
theorem Passed.cons (h : Passed init past id) : Passed init (entry :: past) id := by
  obtain ⟨newer, next, written, older, before, rfl, hrest⟩ := h
  exact ⟨entry :: newer, next, written, older, before, rfl, hrest⟩

theorem Recorded.append (h : Recorded init older id) : Recorded init (newer ++ older) id :=
  h.imp_right fun ⟨next, c, hmem, hrec⟩ => ⟨next, c, mem_append_right newer hmem, hrec⟩

/-- A message that was put on record by the last save was on record. -/
theorem Fresh.recorded {op : GoString} (h : Fresh init past id op) : Recorded init past id := by
  obtain ⟨next, c, o, oldest, rfl, hout, -, hid, hphase, -⟩ := h
  exact .inr ⟨next, c, mem_cons_self, o, hout, hid, by rw [hphase]; rfl⟩

end Lawful

end Bria.Coordinator
