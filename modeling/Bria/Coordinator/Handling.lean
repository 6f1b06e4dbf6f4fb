import Bria.Coordinator.Saving

/-!
# Methods that hold the mutex

What the operator's methods and `handleUpdate` do, wherever they are cut off. Between two sections
of the mutex the loop knows a checkpoint that may be older than the stored one, but only by what a
confirmation of the operator's methods changes (`Idle`). The specification of a method says where it
starts from and, if it returns, what the store holds then; the invariant holds at every request in
between.
-/

namespace Bria.Coordinator

open Go Program.Fallible

variable {init : Option Checkpoint} {w w' : World} {stored : StoredCheckpoint} {id : Int}
  {entry : Entry} {c : Checkpoint} {o : Outbound} {older : List Entry} {e : Option Evidence}
  {text : String} {op : GoString}

/-! ## Between two sections of the mutex -/

/-- The loop knows `stored`, and the store holds it or a confirmation of it; no message is on
record. -/
structure Idle (stored : StoredCheckpoint) (w : World) : Prop where
  /-- What the store holds. -/
  latest : ∃ latest, w.store = some latest ∧
    latest.checkpoint.nextUpdateID = stored.checkpoint.nextUpdateID ∧
    (∀ id, ¬ latest.checkpoint.Ahead id) ∧ stored.revision ≤ latest.revision ∧
    (latest.revision = stored.revision → latest = stored)

/-- The loop knows what the store holds. -/
theorem Idle.of_store (hstore : w.store = some stored) (hnone : ∀ id, ¬ stored.checkpoint.Ahead id) :
    Idle stored w :=
  ⟨stored, hstore, rfl, hnone, Nat.le_refl _, fun _ => rfl⟩

/-- The invariant, with what the loop knows, if it knows anything. -/
def Good (init : Option Checkpoint) (known : Option StoredCheckpoint) (w : World) : Prop :=
  Inv init w ∧ ∀ stored ∈ known, Idle stored w

variable {known : Option StoredCheckpoint}

/-- The method keeps the invariant whatever others do by `act`, and ends with `P`. -/
abbrev Keeps {Free α : Type} (act : Free → World → World) (init : Option Checkpoint)
    (known : Option StoredCheckpoint) (method : Method α) (P : α → World → Prop) (w : World) : Prop :=
  Ensures (around true act) (Good init known) method P w

theorem Good.fresh (h : Good init known w) : w.memory = w.store := h.1.fresh

/-- An entry that is no save keeps what the loop knows. -/
theorem Good.add (h : Good init known w) (hentry : Admissible init w.log entry)
    (hsave : ∀ next written, entry ≠ .saved next (some written)) : Good init known (w.add entry) :=
  ⟨h.1.add hentry hsave, fun stored hstored => ⟨(h.2 stored hstored).latest⟩⟩

/-- A save with the offset of the store and no message on record keeps what the loop knows. -/
theorem Idle.save {current : StoredCheckpoint} {next : Checkpoint} {written : Option Checkpoint}
    (h : Idle stored w) (hstore : w.store = some current)
    (hoffset : next.nextUpdateID = current.checkpoint.nextUpdateID)
    (hnone : ∀ id, ¬ next.Ahead id) (hkeeps : ∀ c ∈ written, c.Keeps next) :
    Idle stored (w.save current.revision next written true) := by
  obtain ⟨latest, hlatest, hsame, hahead, hle, heq⟩ := h.latest
  obtain rfl : current = latest := mem_unique hstore hlatest
  unfold World.save
  split_ifs with hrev
  · rcases written with _ | c
    · exact ⟨current, hstore, hsame, hahead, hle, heq⟩
    have hkept := hkeeps c rfl
    refine ⟨⟨current.revision + 1, c⟩, rfl, ?_, ?_, ?_, ?_⟩
    · exact (hkept.1.trans hoffset).trans hsame
    · exact fun id h => hnone id (hkept.ahead_iff.mp h)
    · exact le_succ_of_le hle
    intro hrev'
    have hrev' : current.revision + 1 = stored.revision := hrev'
    omega
  · exact ⟨current, hstore, hsame, hahead, hle, heq⟩

/-- A valid checkpoint whose operation is resolved has no message on record. -/
theorem not_ahead_of_resolved (hvalid : validateCheckpoint c = .ok ())
    (hphase : ∀ o, c.outbound = some o → o.phase.unresolved = false) (id : Int) : ¬ c.Ahead id := by
  rintro ⟨o, ho, rfl, hle⟩
  have hunresolved := (unresolved_iff_of_valid hvalid ho).mpr hle
  rw [hphase o ho] at hunresolved
  cases hunresolved

/-- The store's revision is that of the checkpoint in it. -/
theorem Good.revision (h : Good init known w) (hstore : w.store = some stored) :
    w.revision = stored.revision := by
  rw [World.revision, h.fresh, hstore]
  rfl

/-- The offset of a valid checkpoint did not overflow when it was moved. -/
theorem offset_of_valid (hvalid : validateCheckpoint c = .ok ())
    (hoffset : c.nextUpdateID = nextID id) : c.nextUpdateID = id + 1 := by
  simp only [validateCheckpoint, check_eq_ok, refuse_eq_ok, or_eq_false_iff,
    decide_eq_false_iff_not] at hvalid
  obtain ⟨⟨-, hpos⟩, -⟩ := hvalid
  unfold nextID at hoffset
  split_ifs at hoffset <;> omega

/-! ## Confirming -/

section Programs

variable {Free : Type} {act : Free → World → World}

/-- What a method that ends with the store's checkpoint says of it. -/
def Settled (verified : StoredCheckpoint) (w : World) : Prop :=
  w.store = some verified ∧ ∀ id, ¬ verified.checkpoint.Ahead id

variable {c : Checkpoint}

theorem outbound_amend (hout : c.outbound = some o) (change : Outbound → Outbound) :
    (amend c change).outbound = some (change { o with keyboard := cloneKeyboard o.keyboard }) := by
  simp [amend, cloneCheckpoint, hout]

variable {receipt : Receipt}

/-- A confirmation has no message on record. -/
theorem not_ahead_confirmation (hout : c.outbound = some o)
    (hvalid : validateCheckpoint (confirmation c o receipt) = .ok ()) (id : Int) :
    ¬ (confirmation c o receipt).Ahead id := by
  refine not_ahead_of_resolved hvalid (fun o' ho' => ?_) id
  obtain rfl := some.inj ((outbound_amend hout (·.confirm receipt)).symm.trans ho')
  rfl

variable {way : Way}

/-- Confirming the stored operation is lawful after the sender gave the receipt. -/
theorem SaveLawful.confirmation (hout : c.outbound = some o)
    (hvalid : validateCheckpoint (confirmation c o receipt) = .ok ())
    (hbefore : durable init (.told way o.updateID o.operationID (some (.receipt receipt)) :: older) =
      some c) (hpos : 0 < receipt.messageID) :
    SaveLawful init (.told way o.updateID o.operationID (some (.receipt receipt)) :: older)
      (confirmation c o receipt) := by
  have hnone := not_ahead_confirmation hout hvalid
  have hahead : ∀ other, c.Ahead other → other = o.updateID ∧ c.nextUpdateID ≤ o.updateID := by
    rintro other ⟨o', ho', rfl, hle⟩
    obtain rfl : o = o' := mem_unique hout ho'
    exact ⟨rfl, hle⟩
  by_cases hle : c.nextUpdateID ≤ o.updateID
  · -- The offset moves to the end of the update.
    have hmoved : (Coordinator.confirmation c o receipt).nextUpdateID = nextID o.updateID :=
      if_pos hle
    refine .advance hvalid hbefore (offset_of_valid hvalid hmoved) hle ?_
      (fun other h => (hahead other h).1) (fun h => absurd ⟨o, hout, rfl, hle⟩ (h o.updateID)) hnone
    exact .confirmed hout (outbound_amend hout _) rfl ⟨rfl, rfl, rfl⟩ rfl rfl hpos
  -- The offset has passed the update already.
  refine .still hvalid hbefore (if_neg hle) fun id => ?_
  exact ⟨fun h => absurd h (hnone id), fun h => absurd (hahead id h).2 hle⟩

/-- `confirmOutbound` with a receipt for the stored operation. -/
theorem confirmOutbound_ensures (hgood : Good init known w) (hstore : w.store = some stored)
    (hout : stored.checkpoint.outbound = some o)
    (hlog : w.log = .told way o.updateID o.operationID (some (.receipt receipt)) :: older) :
    Keeps act init known (confirmOutbound stored receipt) Settled w := by
  refine .check hgood fun _ hpos => ?_
  have hpos : 0 < receipt.messageID := by simpa using hpos
  refine .check hgood fun found hfound => ?_
  obtain rfl : o = found := some.inj (hout.symm.trans (elim_error_ok.mp hfound))
  refine .mono (saveVerified_ensures (fun _ => Good.fresh) hgood
    (fun hvalid written hkeeps => ?_) (by simp)) ?_
  · have hbefore := hgood.1.durable_eq hstore
    rw [hlog] at hbefore
    have hlawful := SaveLawful.confirmation hout hvalid hbefore hpos
    rw [← hlog] at hlawful
    refine ⟨hgood.1.save hlawful.clone hkeeps, fun known hknown => ?_⟩
    -- What the loop knows has no message on record, so the offset stays.
    have hidle := hgood.2 known hknown
    obtain ⟨latest, hlatest, -, hnone, -⟩ := hidle.latest
    obtain rfl : stored = latest := mem_unique hstore hlatest
    have hpassed : ¬ stored.checkpoint.nextUpdateID ≤ o.updateID :=
      fun hle => hnone o.updateID ⟨o, hout, rfl, hle⟩
    refine hidle.save hstore (if_neg hpassed) (fun id h => ?_) hkeeps
    exact not_ahead_confirmation hout hvalid id (ahead_cloneCheckpoint.mp h)
  · intro verified w' h
    obtain ⟨rfl, hsame, hvalid⟩ := h rfl (hgood.revision hstore)
    refine ⟨rfl, fun id => ?_⟩
    rw [hsame]
    exact not_ahead_confirmation hout hvalid id

variable {op : GoString}

/-- An answer that says nothing about a send leaves the store and keeps the invariant. -/
theorem Good.told (h : Good init known w) (hway : way = .resolve ∨ way = .retry) :
    Good init known (w.add (.told way id op e)) := by
  refine h.add ?_ (by simp)
  rcases hway with rfl | rfl <;> trivial

variable {loop : Loop}

/-- `resolveOutboundReceipt` leaves the store, and a receipt is the sender's last answer. -/
theorem resolveOutboundReceipt_ensures (hgood : Good init known w) :
    Keeps act init known (loop.resolveOutboundReceipt id op)
      (fun found w' => w'.store = w.store ∧ ∀ receipt, found = some receipt →
        w'.log = .told .resolve id op (some (.receipt receipt)) :: w.log) w := by
  unfold Loop.resolveOutboundReceipt
  split_ifs with hresolver
  · refine .request hgood fun answer => ?_
    have hgood' : Good init known (w.add (.told .resolve id op
        (answer.toOption.join.map .receipt))) := hgood.told (.inl rfl)
    refine .check hgood' fun found hfound => .check hgood' fun _ _ => .pure hgood' ⟨rfl, ?_⟩
    rintro receipt rfl
    obtain rfl : answer = .ok (some receipt) := hfound
    rfl
  · exact .pure hgood ⟨rfl, by simp⟩

/-! ## The operator's methods -/

variable {phase : OutboundPhase}

/-- The stored checkpoint and its operation, if the operation is in the phase. -/
theorem outboundIn_eq_some {found : Option StoredCheckpoint}
    {pending : StoredCheckpoint × Outbound} (h : outboundIn phase found = some pending) :
    found = some pending.1 ∧ pending.1.checkpoint.outbound = some pending.2 := by
  simp only [outboundIn, Option.bind_eq_bind, bind_eq_some_iff] at h
  obtain ⟨stored, rfl, outbound, hout, hphase⟩ := h
  split_ifs at hphase
  obtain rfl := some.inj hphase
  exact ⟨rfl, hout⟩

theorem loadExact_ensures (hgood : Good init known w) :
    Keeps act init known (loadExact phase op id)
      (fun pending w' => w' = w ∧ w.store = some pending.1 ∧
        pending.1.checkpoint.outbound = some pending.2 ∧ pending.2.operationID = op ∧
        pending.2.updateID = id) w := by
  refine ensures_load hgood hgood.fresh (.check hgood fun pending hpending => ?_)
  refine .check hgood fun _ hsame => ?_
  obtain ⟨hstore, hout⟩ := outboundIn_eq_some (elim_error_ok.mp hpending)
  have hsame : pending.2.operationID = op ∧ pending.2.updateID = id := by simpa using hsame
  exact .pure hgood ⟨rfl, hstore, hout, hsame⟩

/-- `ConfirmUnknownOutbound` and `ConfirmEnqueuedOutbound`. -/
theorem confirmFrom_ensures (hgood : Good init known w) :
    Keeps act init known (loop.confirmFrom phase op id) Settled w := by
  refine (loadExact_ensures hgood).bind ?_
  rintro pending _ - ⟨rfl, hstore, hout, rfl, rfl⟩
  refine (resolveOutboundReceipt_ensures hgood).bind fun found w1 hgood1 h => ?_
  refine .check hgood1 fun receipt hfound => ?_
  exact confirmOutbound_ensures hgood1 (h.1.trans hstore) hout (h.2 receipt (elim_error_ok.mp hfound))

theorem retryUnknownOutbound_ensures (hgood : Good init known w) :
    Keeps act init known (loop.retryUnknownOutbound op id) Settled w := by
  refine (loadExact_ensures hgood).bind ?_
  rintro pending w1 - ⟨rfl, hstore, hout, rfl, rfl⟩
  refine .request hgood fun answer => ?_
  have hgood' : Good init known (w1.add (.told .retry pending.2.updateID pending.2.operationID
      (answer.toOption.map .receipt))) := hgood.told (.inr rfl)
  refine .check hgood' fun receipt hreceipt => .check hgood' fun _ _ => ?_
  obtain rfl : answer = .ok receipt := by
    cases answer with
    | error e => cases hreceipt
    | ok r => exact hreceipt
  exact confirmOutbound_ensures hgood' hstore hout rfl

/-- Every call of the operator keeps the invariant and what the loop knows. -/
theorem call_ensures (call : Call) (hgood : Good init known w) :
    Keeps act init known (call.method loop) (fun _ _ => True) w := by
  cases call with
  | listUnknown =>
    exact .bind (P := fun _ _ => True) (ensures_load hgood hgood.fresh (.pure hgood trivial))
      fun _ _ h _ => .pure h trivial
  | confirmUnknownOutbound op id | confirmEnqueuedOutbound op id =>
    exact (confirmFrom_ensures hgood).bind fun _ _ h _ => .pure h trivial
  | retryUnknownOutbound op id =>
    exact (retryUnknownOutbound_ensures hgood).bind fun _ _ h _ => .pure h trivial

end Programs

variable {loop : Loop}

/-- What happens while the mutex is free keeps the invariant and what the loop knows. -/
theorem Interferes.good (h : Interferes true loop w w') (hgood : Good init known w) :
    Good init known w' := by
  induction h with
  | none => exact hgood
  | call call _ hruns ih => exact (call_ensures call ih).reaches hruns.reaches

/-- The store has no checkpoint. -/
def World.Blank (w : World) : Prop := w.store = none ∧ w.memory = none

/-- The operator's methods find nothing to do there. -/
theorem call_ensures_none (call : Call) (hnone : w.Blank) :
    Ensures (locked true) World.Blank (call.method loop) (fun _ _ => True) w := by
  have hfresh : w.memory = w.store := hnone.2.trans hnone.1.symm
  have hfails : ∀ {α : Type} (phase : OutboundPhase) (op : GoString) (id : Int)
      (rest : StoredCheckpoint × Outbound → Method α), Ensures (locked true) World.Blank
        (do let _ ← loadExact phase op id >>= rest) (fun _ _ => True) w := by
    intro α phase op id rest
    refine .bind (P := fun _ _ => True) (.bind (P := fun _ _ => False) ?_ fun _ _ _ h => h.elim)
      fun _ _ h _ => .pure h trivial
    refine ensures_load hnone hfresh (.check hnone fun pending hpending => ?_)
    obtain ⟨hstore, -⟩ := outboundIn_eq_some (elim_error_ok.mp hpending)
    exact absurd (hnone.1.symm.trans hstore) (by simp)
  cases call with
  | listUnknown =>
    exact .bind (P := fun _ _ => True) (ensures_load hnone hfresh (.pure hnone trivial))
      fun _ _ h _ => .pure h trivial
  | confirmUnknownOutbound op id | confirmEnqueuedOutbound op id => exact hfails _ _ _ _
  | retryUnknownOutbound op id => exact hfails _ _ _ _

/-- What happens while the mutex is free leaves a store without a checkpoint alone. -/
theorem Interferes.blank (h : Interferes true loop w w') (hnone : w.Blank) : w'.Blank := by
  induction h with
  | none => exact hnone
  | call call _ hruns ih => exact (call_ensures_none call ih).reaches hruns.reaches

/-! ## Sending -/

/-- An update is the next one to handle: the store holds `fresh`, no message is on record, and the
source left out the ids between the offset and the update. -/
structure Due (fresh : StoredCheckpoint) (id : Int) (w : World) : Prop where
  store : w.store = some fresh
  clear : ∀ other, ¬ fresh.checkpoint.Ahead other
  le : fresh.checkpoint.nextUpdateID ≤ id
  ne : id ≠ maxInt64
  gap : Gap w.log fresh.checkpoint.nextUpdateID id

variable {fresh : StoredCheckpoint}

theorem Due.add (h : Due fresh id w) : Due fresh id (w.add entry) :=
  ⟨h.store, h.clear, h.le, h.ne, h.gap.cons⟩

/-- The message of an update that is due was never on record. -/
theorem Due.not_recorded (h : Due fresh id w) (hgood : Good init none w) :
    ¬ Recorded init w.log id := by
  intro hrec
  have hle := h.le
  rcases hgood.1.lawful.recorded_cases hrec (hgood.1.durable_eq h.store) with hahead | hlt
  · exact h.clear id hahead
  · omega

/-- The update is handled: the store holds `verified`, which is past it. -/
def Done (id : Int) (verified : StoredCheckpoint) (w : World) : Prop :=
  Settled verified w ∧ verified.checkpoint.nextUpdateID = id + 1

/-- The end of an update that is not the last possible one. -/
theorem nextID_eq (h : id ≠ maxInt64) : nextID id = id + 1 := if_neg h

section Sending

variable {Free : Type} {act : Free → World → World} {next : Checkpoint}

/-- A lawful save with the mutex. -/
theorem save_ensures (hgood : Good init none w) (hstore : w.store = some stored)
    (hlawful : validateCheckpoint next = .ok () → SaveLawful init w.log next) :
    Keeps act init none (saveVerified true stored next)
      (fun verified w' => w' = ⟨some verified, some verified,
          .saved (cloneCheckpoint next) (some next) :: w.log⟩ ∧
        verified.checkpoint = next ∧ validateCheckpoint next = .ok ()) w := by
  refine .mono (saveVerified_ensures (fun _ => Good.fresh) hgood
    (fun hvalid written hkeeps => ?_) (by simp)) ?_
  · exact ⟨hgood.1.save (hlawful hvalid).clone hkeeps, by simp⟩
  · exact fun verified w' h => h rfl (hgood.revision hstore)

/-- A lawful save that ends an update. -/
theorem save_done (hgood : Good init none w) (hstore : w.store = some stored)
    (hend : next.nextUpdateID = id + 1)
    (hnone : validateCheckpoint next = .ok () → ∀ other, ¬ next.Ahead other)
    (hlawful : validateCheckpoint next = .ok () → (∀ other, ¬ next.Ahead other) →
      SaveLawful init w.log next) :
    Keeps act init none (saveVerified true stored next) (Done id) w := by
  refine (save_ensures hgood hstore fun hvalid => hlawful hvalid (hnone hvalid)).mono ?_
  rintro verified _ ⟨rfl, hsame, hvalid⟩
  refine ⟨⟨rfl, ?_⟩, ?_⟩ <;> rw [hsame]
  · exact hnone hvalid
  · exact hend

/-- Storing the operation on record as unknown is lawful. -/
theorem SaveLawful.unknown {past : List Entry} (hbefore : durable init past = some c)
    (hvalid : validateCheckpoint (amend c fun o => { o with phase := .unknown }) = .ok ()) :
    SaveLawful init past (amend c fun o => { o with phase := .unknown }) := by
  refine .still hvalid hbefore rfl fun id => ?_
  simp [Checkpoint.Ahead, amend, cloneCheckpoint]

/-- Recording an operation as unknown never returns. -/
theorem recordUnknown_ensures {P : StoredCheckpoint → World → Prop} (hgood : Good init none w)
    (hstore : w.store = some stored) :
    Keeps act init none (recordUnknown text op stored) P w :=
  (save_ensures hgood hstore (.unknown (hgood.1.durable_eq hstore))).bind fun _ _ h _ => .throw h

/-- The message of an update is on record since the last save. -/
structure OnRecord (init : Option Checkpoint) (verified : StoredCheckpoint) (o : Outbound)
    (w : World) : Prop where
  store : w.store = some verified
  out : verified.checkpoint.outbound = some o
  durable : o.durable = none
  le : verified.checkpoint.nextUpdateID ≤ o.updateID
  ne : o.updateID ≠ maxInt64
  fresh : Fresh init w.log o.updateID o.operationID

variable {verified : StoredCheckpoint} {o : Outbound}

/-- The save that ends an update whose message is on record. -/
theorem OnRecord.save_done (h : OnRecord init verified o w) (change : Outbound → Outbound)
    (hgood : Good init none (w.add entry))
    (houtcome : Outcome verified.checkpoint
      { amend verified.checkpoint change with nextUpdateID := nextID o.updateID } (entry :: w.log)
      o.updateID) (hphase : ∀ o, (change o).phase.unresolved = false) :
    Keeps act init none (saveVerified true verified
        { amend verified.checkpoint change with nextUpdateID := nextID o.updateID })
      (Done o.updateID) (w.add entry) := by
  have hend := nextID_eq h.ne
  have hahead : verified.checkpoint.Ahead o.updateID := ⟨o, h.out, rfl, h.le⟩
  refine Coordinator.save_done hgood h.store hend (fun hvalid => ?_) fun hvalid hnone => ?_
  · refine not_ahead_of_resolved hvalid fun o' ho' => ?_
    obtain rfl := some.inj ((outbound_amend h.out change).symm.trans ho')
    exact hphase _
  refine .advance hvalid (hgood.1.durable_eq h.store) hend h.le houtcome ?_
    (fun hno => absurd hahead (hno o.updateID)) hnone
  rintro other ⟨o', ho', rfl, -⟩
  obtain rfl : o = o' := mem_unique h.out ho'
  rfl

/-- A message that was just put on record may be handed to the sender. -/
theorem OnRecord.told {way : Way} (h : OnRecord init verified o w) (hgood : Good init none w)
    (hway : way = .enqueue ∨ way = .send) :
    Good init none (w.add (.told way o.updateID o.operationID e)) := by
  refine hgood.add ?_ (by simp)
  rcases hway with rfl | rfl <;> exact h.fresh

variable {status : Status} {keyboard : Option KeyboardMarkup}

/-- Enqueueing the message on record ends the update or records the message as unknown. -/
theorem enqueuePrepared_ensures (h : OnRecord init verified o w) (hgood : Good init none w) :
    Keeps act init none (enqueuePrepared text verified o.updateID o.operationID status keyboard)
      (Done o.updateID) w := by
  refine .request hgood fun answer => ?_
  have hgood' : Good init none (w.add (.told .enqueue o.updateID o.operationID
      (answer.toOption.map .durable))) := h.told hgood (.inl rfl)
  rcases answer with e | receipt
  · exact recordUnknown_ensures hgood' h.store
  show Ensures _ _ (if _ then _ else _) _ _
  split_ifs
  · exact recordUnknown_ensures hgood' h.store
  refine h.save_done (fun o => { o with phase := .enqueued, durable := some receipt }) hgood' ?_
    fun _ => rfl
  exact .enqueued h.out (outbound_amend h.out _) rfl ⟨rfl, rfl, rfl⟩ rfl rfl

variable {loop : Loop}

/-- Sending the message on record ends the update or records the message as unknown. -/
theorem sendPrepared_ensures (h : OnRecord init verified o w) (hgood : Good init none w) :
    Keeps act init none (loop.sendPrepared verified o.updateID o.operationID status keyboard)
      (Done o.updateID) w := by
  refine .request hgood fun answer => ?_
  have hgood' : Good init none (w.add (.told .send o.updateID o.operationID
      (answer.toOption.map .receipt))) := h.told hgood (.inr rfl)
  rcases answer with e | receipt
  · exact recordUnknown_ensures hgood' h.store
  show Ensures _ _ (if _ then _ else _) _ _
  split_ifs with hpos
  · exact recordUnknown_ensures hgood' h.store
  refine h.save_done (fun o => { o with phase := .confirmed, receipt := some receipt }) hgood' ?_
    fun _ => rfl
  exact .confirmed h.out (outbound_amend h.out _) rfl ⟨rfl, rfl, rfl⟩ rfl rfl (by omega)

/-- A save that prepares the message of an update that is due puts it on record. -/
theorem prepared_ensures (op : GoString) (keyboard : Option KeyboardMarkup)
    (hdue : Due fresh id w) (hgood : Good init none w) (hchosen : Chosen w.log id status)
    (hoffset : next.nextUpdateID = fresh.checkpoint.nextUpdateID)
    (hout : next.outbound = (prepared fresh.checkpoint id op status keyboard).outbound) :
    Keeps act init none (saveVerified true fresh next)
      (fun verified w' => ∃ o, OnRecord init verified o w' ∧ o.operationID = op ∧ o.updateID = id)
      w := by
  refine (save_ensures hgood hdue.store fun hvalid => ?_).mono ?_
  · exact .record hvalid (hgood.1.durable_eq hdue.store) hoffset hdue.clear hout hchosen hdue.gap
  rintro verified _ ⟨rfl, rfl, -⟩
  refine ⟨_, ⟨rfl, hout, rfl, hoffset ▸ hdue.le, hdue.ne, ?_⟩, rfl, rfl⟩
  exact ⟨_, _, _, _, rfl, hout, rfl, rfl, rfl, hdue.not_recorded hgood⟩

section

variable (hdue : Due fresh id w) (hgood : Good init none w) (hchosen : Chosen w.log id status)
include hdue hgood hchosen

/-- A status that the sender has no record of: it is prepared and then sent. -/
theorem prepareAndSend_ensures :
    Keeps act init none (loop.prepareAndSend fresh id status keyboard) (Done id) w := by
  refine .bind (prepared_ensures (statusOperation id) keyboard hdue hgood hchosen ?_ ?_) ?_
  · rfl
  · rfl
  rintro verified w1 hgood1 ⟨o, hrecord, hop, rfl⟩
  show Ensures _ _ (if _ then _ else _) _ _
  rw [← hop]
  split_ifs
  · exact enqueuePrepared_ensures hrecord hgood1
  · exact sendPrepared_ensures hrecord hgood1

theorem deliverPreparedStatus_ensures :
    Keeps act init none (loop.deliverPreparedStatus id op status keyboard)
      (fun found w' => Due fresh id w' ∧ match found with
        | none => Chosen w'.log id status
        | some receipt => 0 < receipt.messageID ∧
            w'.log = .told .deliverPrepared id op (some (.receipt receipt)) :: w.log) w := by
  unfold Loop.deliverPreparedStatus
  split_ifs
  · refine .request hgood fun answer => ?_
    have hgood' : Good init none (w.add (.told .deliverPrepared id op
        ((answer.bind Except.toOption).map .receipt))) :=
      hgood.add (hdue.not_recorded hgood) (by simp)
    refine .check hgood' fun found hfound => .check hgood' fun _ hpos => ?_
    refine .pure hgood' ⟨hdue.add, ?_⟩
    match answer, found, hfound, hpos with
    | none, none, _, _ => exact hchosen.unhandled
    | some (.ok receipt), some _, rfl, hpos => exact ⟨by simpa using hpos, rfl⟩
  · exact .pure hgood ⟨hdue, hchosen⟩

theorem sendStatus_ensures :
    Keeps act init none (loop.sendStatus fresh id status keyboard) (Done id) w := by
  refine (deliverPreparedStatus_ensures hdue hgood hchosen).bind ?_
  rintro found w1 hgood1 ⟨hdue1, hfound⟩
  rcases found with _ | receipt
  · exact prepareAndSend_ensures hdue1 hgood1 hfound
  obtain ⟨hpos, hlog⟩ := hfound
  have hend := nextID_eq hdue.ne
  refine save_done hgood1 hdue1.store hend (fun hvalid => ?_) fun hvalid hnone => ?_
  · refine not_ahead_of_resolved hvalid ?_
    rintro o ⟨⟩
    rfl
  refine .advance hvalid (hgood1.1.durable_eq hdue1.store) hend hdue1.le ?_
    (fun other h => absurd h (hdue1.clear other)) (fun _ => hdue1.gap) hnone
  rw [hlog]
  exact .delivered (o := deliveredOutbound id status keyboard receipt) hchosen rfl rfl rfl rfl hpos

end

/-! ## Handling -/

theorem enqueueRecoveryPrompt_ensures {control : RecoveryControl} {prompt : Decision}
    (hdue : Due fresh id w) (hgood : Good init none w) (hchosen : Chosen w.log id prompt.status) :
    Keeps act init none (loop.enqueueRecoveryPrompt fresh id control prompt) (Done id) w := by
  refine .check hgood fun _ _ => .check hgood fun _ _ => ?_
  refine .bind (prepared_ensures control.promptOperationID prompt.keyboard hdue hgood hchosen ?_ ?_)
    ?_
  · rfl
  · rfl
  rintro verified w1 hgood1 ⟨o, hrecord, hop, rfl⟩
  rw [← hop]
  exact enqueuePrepared_ensures hrecord hgood1

variable {update : Update}

section

variable (hdue : Due fresh update.id w) (hgood : Good init none w)
include hdue hgood

/-- The part of `handleUpdate` after the handler failed. -/
theorem recoverUpdate_ensures {e : Err} :
    Keeps act init none (loop.recoverUpdate fresh update e) (Done update.id) w := by
  unfold Loop.recoverUpdate
  split_ifs
  · refine .request hgood fun answer => ?_
    rcases answer with e | found
    · exact .check hgood fun _ h => by cases h
    have hgood' : Good init none (w.add (.prompted update found.1 found.2)) :=
      hgood.add trivial (by simp)
    refine .check hgood' fun found' hfound => ?_
    obtain rfl : found = found' := ok.inj hfound
    refine .check hgood' fun _ _ => .check hgood' fun _ _ => .check hgood' fun _ hkind => ?_
    exact enqueueRecoveryPrompt_ensures hdue.add hgood' (.prompted (by simpa using hkind))
  · exact .throw hgood

/-- The part of `handleUpdate` after the handler decided. -/
theorem decide_ensures {decision : Decision} (hlog : w.log = .decided update decision :: older) :
    Keeps act init none (loop.decide fresh update decision) (Done update.id) w := by
  have hbefore := hgood.1.durable_eq hdue.store
  unfold Loop.decide
  split
  case h_1 hkind =>
    -- A skipped update: the offset moves, the last operation stays.
    have hend := nextID_eq hdue.ne
    refine save_done hgood hdue.store hend (fun _ => ?_) fun hvalid hnone => ?_
    · rintro other ⟨o, ho, rfl, hle⟩
      have hle : nextID update.id ≤ o.updateID := hle
      have hdueLe := hdue.le
      refine hdue.clear o.updateID (ahead_cloneCheckpoint.mp ⟨o, ho, rfl, ?_⟩)
      show fresh.checkpoint.nextUpdateID ≤ o.updateID
      omega
    refine .advance hvalid hbefore hend hdue.le ?_ (fun other h => absurd h (hdue.clear other))
      (fun _ => hdue.gap) hnone
    rw [hlog]
    exact .skipped hkind
  case h_2 =>
    refine (save_ensures hgood hdue.store fun hvalid => ?_).bind fun _ _ h _ => .throw h
    exact .still hvalid hbefore rfl fun id => ahead_cloneCheckpoint
  case h_3 hkind =>
    refine sendStatus_ensures hdue hgood ?_
    rw [hlog]
    exact .decided hkind
  case h_4 => exact .throw hgood

/-- The part of `handleUpdate` after the checkpoint is refreshed. -/
theorem handleFresh_ensures :
    Keeps act init none (loop.handleFresh fresh update) (Done update.id) w := by
  refine .request hgood fun answer => ?_
  cases answer with
  | error e => exact recoverUpdate_ensures hdue hgood
  | ok decision =>
    have hgood' : Good init none (w.add (.decided update decision)) := hgood.add trivial (by simp)
    exact .check hgood' fun _ _ => decide_ensures hdue.add hgood' rfl

end

/-- `handleUpdate` from a checkpoint that the loop knows. -/
theorem handleUpdate_ensures (hidle : Idle stored w)
    (hgood : Good init none w) (hle : stored.checkpoint.nextUpdateID ≤ update.id)
    (hne : update.id ≠ maxInt64) (hgap : Gap w.log stored.checkpoint.nextUpdateID update.id) :
    Keeps act init none (loop.handleUpdate stored update) (Done update.id) w := by
  obtain ⟨latest, hstore, hoffset, hclear, -, hsame⟩ := hidle.latest
  refine ensures_load hgood hgood.fresh (.check hgood fun found hfound => .check hgood fun _ _ => ?_)
  obtain rfl : latest = found := some.inj (hstore.symm.trans (elim_error_ok.mp hfound))
  refine .check hgood fun fresh hfresh => ?_
  obtain rfl : fresh = latest := by
    unfold refresh at hfresh
    split_ifs at hfresh with hrev
    · rw [hsame hrev]
      exact (ok.inj hfresh).symm
    · exact (ok.inj hfresh).symm
  exact handleFresh_ensures ⟨hstore, hclear, hoffset ▸ hle, hne, hoffset ▸ hgap⟩ hgood

end Sending

end Bria.Coordinator
