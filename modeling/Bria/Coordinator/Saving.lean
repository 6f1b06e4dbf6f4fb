import Bria.Coordinator.Log

/-!
# Lawful saves

The saves of the loop are of four kinds: the first checkpoint, a save that changes neither the
offset nor the message on record, a save that puts a message on record, and a save that moves the
offset to the end of an update. Each is lawful under the conditions of its lemma. `saveVerified`
keeps any invariant that the save itself keeps, and when it returns, the store holds exactly the
checkpoint that it was given.
-/

namespace Bria.Coordinator

open Go Program.Fallible

variable {init : Option Checkpoint} {past : List Entry} {before next : Checkpoint} {id : Int}
  {entry : Entry} {o : Outbound}

/-! ## The kinds of saves -/

/-- The source left out every id from one to another. -/
def Gap (log : List Entry) (first last : Int) : Prop := ∀ w, first ≤ w → w < last → Omitted log w

/-- A gap stays one. -/
theorem Gap.cons {first last : Int} (h : Gap past first last) : Gap (entry :: past) first last :=
  fun w hle hlt => (h w hle hlt).cons

theorem SaveLawful.first (hvalid : validateCheckpoint next = .ok ())
    (hnone : durable init past = none) (hout : next.outbound = none) :
    SaveLawful init past next where
  valid := hvalid
  forward _ h := by simp [hnone] at h
  outcome _ h := by simp [hnone] at h
  held _ _ h := by simp [hnone] at h
  recorded _ h := by
    obtain ⟨o, ho, -⟩ := h
    simp [hout] at ho

/-- A save over a checkpoint, by what it does to that one. -/
theorem SaveLawful.over (hbefore : durable init past = some before)
    (hvalid : validateCheckpoint next = .ok ()) (hle : before.nextUpdateID ≤ next.nextUpdateID)
    (houtcome : before.nextUpdateID < next.nextUpdateID → ∃ id, next.nextUpdateID = id + 1 ∧
      before.nextUpdateID ≤ id ∧ Outcome before next past id ∧
      (∀ other, before.Ahead other → other = id) ∧
      ((∀ other, ¬ before.Ahead other) → Gap past before.nextUpdateID id))
    (hheld : ∀ id, before.Ahead id → next.Ahead id ∨ id < next.nextUpdateID)
    (hrecorded : ∀ id, next.Ahead id → before.nextUpdateID = next.nextUpdateID ∧
      (before.Ahead id ∨ (∀ other, ¬ before.Ahead other) ∧
        (∃ o, next.outbound = some o ∧ Chosen past id o.status) ∧
        Gap past next.nextUpdateID id)) : SaveLawful init past next := by
  have hsame : ∀ b, durable init past = some b → b = before := fun b h => mem_unique h hbefore
  exact {
    valid := hvalid
    forward := fun b h => hsame b h ▸ hle
    outcome := fun b h => hsame b h ▸ houtcome
    held := fun b id h => hsame b h ▸ hheld id
    recorded := fun id h => ⟨before, hbefore, hrecorded id h⟩ }

section

variable (hvalid : validateCheckpoint next = .ok ()) (hbefore : durable init past = some before)
include hvalid hbefore

/-- A save that changes neither the offset nor the message on record. -/
theorem SaveLawful.still (hoffset : next.nextUpdateID = before.nextUpdateID)
    (hahead : ∀ id, next.Ahead id ↔ before.Ahead id) : SaveLawful init past next :=
  .over hbefore hvalid (Int.le_of_eq hoffset.symm) (fun hlt => by omega)
    (fun id h => .inl ((hahead id).mpr h)) fun id h => ⟨hoffset.symm, .inl ((hahead id).mp h)⟩

/-- A save that puts the message of an update on record. -/
theorem SaveLawful.record (hoffset : next.nextUpdateID = before.nextUpdateID)
    (hnone : ∀ id, ¬ before.Ahead id) (hout : next.outbound = some o)
    (hchosen : Chosen past o.updateID o.status) (hgap : Gap past before.nextUpdateID o.updateID) :
    SaveLawful init past next := by
  refine .over hbefore hvalid (Int.le_of_eq hoffset.symm) (fun hlt => by omega)
    (fun id h => absurd h (hnone id)) ?_
  rintro id ⟨o', ho', rfl, -⟩
  obtain rfl : o = o' := mem_unique hout ho'
  exact ⟨hoffset.symm, .inr ⟨hnone, ⟨o, hout, hchosen⟩, hoffset ▸ hgap⟩⟩

/-- A save that moves the offset to the end of an update. -/
theorem SaveLawful.advance (hoffset : next.nextUpdateID = id + 1) (hle : before.nextUpdateID ≤ id)
    (houtcome : Outcome before next past id) (hsame : ∀ other, before.Ahead other → other = id)
    (hgap : (∀ other, ¬ before.Ahead other) → Gap past before.nextUpdateID id)
    (hnone : ∀ other, ¬ next.Ahead other) : SaveLawful init past next := by
  refine .over hbefore hvalid (by omega) (fun _ => ⟨id, hoffset, hle, houtcome, hsame, hgap⟩) ?_
    fun other h => absurd h (hnone other)
  intro other hother
  obtain rfl := hsame other hother
  exact .inr (by omega)

end

/-! ## Copies -/

/-- A copy has the message on record that the checkpoint has. -/
theorem ahead_cloneCheckpoint : (cloneCheckpoint next).Ahead id ↔ next.Ahead id := by
  simp [Checkpoint.Ahead, cloneCheckpoint]

theorem outbound_cloneCheckpoint (h : next.outbound = some o) :
    (cloneCheckpoint next).outbound = some { o with keyboard := cloneKeyboard o.keyboard } := by
  simp [cloneCheckpoint, h]

theorem Outcome.clone (h : Outcome before next past id) :
    Outcome before (cloneCheckpoint next) past id := by
  cases h with
  | skipped kind => exact .skipped kind
  | @delivered _ _ o _ chosen saved update phase proof positive =>
    exact .delivered (o := { o with keyboard := cloneKeyboard o.keyboard }) chosen
      (outbound_cloneCheckpoint saved) update phase proof positive
  | confirmed record saved update same phase proof positive =>
    exact .confirmed record (outbound_cloneCheckpoint saved) update same phase proof positive
  | enqueued record saved update same phase proof =>
    exact .enqueued record (outbound_cloneCheckpoint saved) update same phase proof

theorem SaveLawful.clone (h : SaveLawful init past next) :
    SaveLawful init past (cloneCheckpoint next) where
  valid := (validateCheckpoint_clone next).trans h.valid
  forward := h.forward
  outcome b hb hlt := by
    obtain ⟨id, hend, hle, houtcome, hrest⟩ := h.outcome b hb hlt
    exact ⟨id, hend, hle, houtcome.clone, hrest⟩
  held b id hb hahead := (h.held b id hb hahead).imp_left ahead_cloneCheckpoint.mpr
  recorded id hahead := by
    obtain ⟨b, hb, hoffset, hcase⟩ := h.recorded id (ahead_cloneCheckpoint.mp hahead)
    refine ⟨b, hb, hoffset, hcase.imp_right ?_⟩
    rintro ⟨hnone, ⟨o, ho, hchosen⟩, hgap⟩
    exact ⟨hnone, ⟨_, outbound_cloneCheckpoint ho, hchosen⟩, hgap⟩

/-! ## The invariant -/

/-- The log says what is in the store, and it is lawful. -/
structure Inv (init : Option Checkpoint) (w : World) : Prop where
  /-- The store holds what the log says. -/
  stored : w.store.map (·.checkpoint) = durable init w.log
  /-- So does its memory. -/
  fresh : w.memory = w.store
  /-- The log is lawful. -/
  lawful : Lawful init w.log

variable {w : World}

/-- The checkpoint in the store is the durable one. -/
theorem Inv.durable_eq {stored : StoredCheckpoint} (h : Inv init w)
    (hstore : w.store = some stored) : durable init w.log = some stored.checkpoint := by
  rw [← h.stored, hstore]
  rfl

/-- A lawful save keeps the invariant, whether it writes or not. -/
theorem Inv.save {expected : Nat} {written : Option Checkpoint} (h : Inv init w)
    (hlawful : SaveLawful init w.log next) (hkeeps : ∀ c ∈ written, c.Keeps next) :
    Inv init (w.save expected next written true) := by
  unfold World.save
  split_ifs with hrev
  · refine ⟨?_, ?_, ⟨hlawful, hkeeps⟩, h.lawful⟩
    · cases written with
      | none => exact h.stored
      | some written => rfl
    · simp [h.fresh]
  · exact ⟨h.stored, h.fresh, ⟨hlawful, by simp⟩, h.lawful⟩

/-- An entry that may stand at the end of the log and is no save keeps the invariant. -/
theorem Inv.add (h : Inv init w) (hentry : Admissible init w.log entry)
    (hsave : ∀ next written, entry ≠ .saved next (some written)) : Inv init (w.add entry) := by
  refine ⟨?_, h.fresh, hentry, h.lawful⟩
  rw [show (w.add entry).store = w.store from rfl, h.stored]
  cases entry with
  | saved next written =>
    cases written with
    | none => rfl
    | some written => exact absurd rfl (hsave next written)
  | polled => rfl
  | decided => rfl
  | prompted => rfl
  | told => rfl

/-! ## Verified saves -/

section Verified

variable {Free : Type} {act : Free → World → World} {I : World → Prop} {α : Type}
  {P : α → World → Prop}

theorem ensures_load {wrap : Err → Err} {f : Option StoredCheckpoint → Method α} (hI : I w)
    (hfresh : w.memory = w.store) (hf : Ensures (around true act) I (f w.store) P w) :
    Ensures (around true act) I (load wrap >>= f) P w := by
  refine .bind (P := fun found w' => found = w.store ∧ w' = w) ?_ ?_
  · refine .request hI fun c => ⟨hI, ?_⟩
    intro found hfound
    cases c with
    | none => exact ⟨(ok.inj hfound).symm.trans hfresh, rfl⟩
    | some e => cases hfound
  rintro found w' - ⟨rfl, rfl⟩
  exact hf

/-- `saveVerified` keeps what the save keeps. With the mutex, and at the revision of the store, it
returns only when the store holds the checkpoint. -/
theorem saveVerified_ensures {held : Bool} {current : StoredCheckpoint}
    (hfresh : ∀ w, I w → w.memory = w.store) (hI : I w)
    (hsave : validateCheckpoint next = .ok () → ∀ written,
      (∀ c ∈ written, c.Keeps (cloneCheckpoint next)) →
      I (w.save current.revision (cloneCheckpoint next) written true))
    (hact : held = false → ∀ f w, I w → I (act f w)) :
    Ensures (around true act) I (saveVerified held current next)
      (fun verified w' => held → w.revision = current.revision →
        w' = ⟨some verified, some verified,
            .saved (cloneCheckpoint next) (some next) :: w.log⟩ ∧
          verified.checkpoint = next ∧ validateCheckpoint next = .ok ()) w := by
  refine .check hI fun _ hvalid => ?_
  refine .request hI fun c => ?_
  obtain ⟨⟨written, hkeeps⟩, ⟨reread, hreread⟩, answer⟩ := c
  obtain rfl := hreread rfl
  have hI' := hsave hvalid written hkeeps
  refine .check hI' fun saved hsaved => ?_
  refine .check hI' fun _ hmatch => ?_
  cases held with
  | false =>
    refine .request hI' fun f => ?_
    have hI'' := hact rfl f _ hI'
    refine ensures_load hI'' (hfresh _ hI'') (.check hI'' fun reread _ => .check hI'' fun _ _ => ?_)
    exact .check hI'' fun _ _ => .pure hI'' (by simp)
  | true =>
    refine ensures_load hI' (hfresh _ hI') (.check hI' fun reread hreread => ?_)
    refine .check hI' fun _ hsame => .check hI' fun _ _ => .pure hI' fun _ hrev => ?_
    obtain rfl : reread = saved := by simpa using hsame
    obtain ⟨hnewer, rfl⟩ : current.revision < reread.revision ∧ reread.checkpoint = next := by
      simpa using hmatch
    have hstore : (w.save current.revision (cloneCheckpoint reread.checkpoint) written true).store =
        some reread := elim_error_ok.mp hreread
    refine ⟨?_, rfl, hvalid⟩
    show w.save current.revision (cloneCheckpoint reread.checkpoint) written true = _
    unfold World.save at hstore ⊢
    rw [if_pos hrev] at hstore ⊢
    cases written with
    | none =>
      -- Nothing was written, but the revision that was read is a later one.
      have hold : w.revision = reread.revision := by
        rw [World.revision, hfresh w hI, show w.store = some reread from hstore]
        rfl
      omega
    | some written =>
      obtain rfl : ⟨current.revision + 1, written⟩ = reread := some.inj hstore
      rfl

end Verified

end Bria.Coordinator
