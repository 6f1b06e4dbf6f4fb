import Bria.Coordinator.Handling

/-!
# The checkpoint loop is safe

`Run` over any number of polls, from any history of processes that were cut off anywhere, writes a
lawful log. What a lawful log has (`Bria.Coordinator.Log`) then holds of every history.
-/

namespace Bria.Coordinator

open Go Program.Fallible

variable {init : Option Checkpoint} {w w' : World} {stored : StoredCheckpoint} {id : Int} {α : Type}
  {loop : Loop} {rest : List Update} {update : Update}

/-! ## The log grows -/

/-- The log of one world continues that of another. -/
def Grows (w w' : World) : Prop := w.log <:+ w'.log

theorem Grows.refl (w : World) : Grows w w := List.suffix_rfl

theorem Grows.trans {w1 w2 : World} (h1 : Grows w w1) (h2 : Grows w1 w2) : Grows w w2 :=
  List.IsSuffix.trans h1 h2

theorem grows_add (w : World) (entry : Entry) : Grows w (w.add entry) := List.suffix_cons entry w.log

theorem grows_addOk (w : World) (x : Except Err α) (entry : α → Entry) :
    Grows w (w.addOk x entry) := by
  cases x with
  | error e => exact .refl w
  | ok a => exact grows_add w (entry a)

/-- A request only adds to the log, if what happens at a `free` request does. -/
theorem grows_perform {Free : Type} {act : Free → World → World} (hact : ∀ f w, Grows w (act f w))
    (r : Request) (w : World) (c : Choice true Free r) : Grows w (perform act r w c).2 := by
  cases r with
  | save expected next =>
    show Grows w (w.save expected next c.1.1 c.2.1)
    unfold World.save
    split_ifs
    · exact List.suffix_cons _ _
    · exact grows_add w _
  | free => exact hact c w
  | poll | handle | prepareUnknownRecovery => exact grows_addOk w _ _
  | deliverPreparedStatus | enqueueStatus | send | resolveStatusReceipt => exact grows_add w _
  | ctxErr | load | ready | bootstrap => exact .refl w

/-- What happens while the mutex is free only adds to the log. -/
theorem Interferes.grows (h : Interferes true loop w w') : Grows w w' := by
  induction h with
  | none => exact .refl _
  | call call _ hruns ih =>
    refine ih.trans (hruns.related Grows.refl Grows.trans ?_ (.of_forall (fun _ => trivial) _))
    exact fun r w c _ => grows_perform (fun _ w => .refl w) r w c

/-- A request of `Run` only adds to the log. -/
theorem grows_shared (r : Request) (w : World) (c : (shared true loop).Choice r) :
    Grows w ((shared true loop).perform r w c).2 :=
  grows_perform (fun f w => (f.2 w).grows) r w c

/-! ## Running -/

section Running

variable {loop : Loop}

/-- `resolveInterruptedState` returns only with no message on record. -/
theorem resolveInterruptedState_ensures (hgood : Good init none w) :
    Ensures (shared true loop) (Good init none) loop.resolveInterruptedState Settled w := by
  refine ensures_load hgood hgood.fresh (.check hgood fun stored hstored => ?_)
  refine .check hgood fun _ hvalid => ?_
  have hstore : w.store = some stored := elim_error_ok.mp hstored
  have hvalid : validateCheckpoint stored.checkpoint = .ok () := by
    simp only [validateStored, check_eq_ok] at hvalid
    exact hvalid.2
  refine .check hgood fun _ _ => ?_
  rcases hout : stored.checkpoint.outbound with _ | o
  · exact .pure hgood ⟨hstore, not_ahead_of_resolved hvalid (by simp [hout])⟩
  show Ensures _ _ (if _ then _ else _) _ _
  split_ifs with hphase
  · refine .pure hgood ⟨hstore, not_ahead_of_resolved hvalid ?_⟩
    simp [hout, hphase, OutboundPhase.unresolved]
  refine (resolveOutboundReceipt_ensures hgood).bind fun found w1 hgood1 h => ?_
  cases found with
  | some receipt => exact confirmOutbound_ensures hgood1 (h.1.trans hstore) hout (h.2 receipt rfl)
  | none =>
    show Ensures _ _ (unresolved stored o) _ _
    unfold unresolved
    split
    case h_1 hphase =>
      refine .pure hgood1 ⟨h.1.trans hstore, not_ahead_of_resolved hvalid ?_⟩
      simp [hout, hphase, OutboundPhase.unresolved]
    case h_2 => exact .throw hgood1
    case h_3 =>
      have hstore1 := h.1.trans hstore
      exact (save_ensures hgood1 hstore1 (.unknown (hgood1.1.durable_eq hstore1))).bind
        fun _ _ h _ => .throw h

/-- A moment without the mutex, and the rest of the program. -/
theorem ensures_free {f : Unit → Method α} {P : α → World → Prop} (known : Option StoredCheckpoint)
    (hgood : Good init none w) (hknown : ∀ stored ∈ known, Idle stored w)
    (hf : ∀ w', Good init none w' → Grows w w' → (∀ stored ∈ known, Idle stored w') →
      (w.store = none → w'.store = none) →
      Ensures (shared true loop) (Good init none) (f ()) P w') :
    Ensures (shared true loop) (Good init none) (ask .free >>= f) P w := by
  refine .request hgood fun c => ?_
  have hinter := c.2 w
  have hgood' := hinter.good ⟨hgood.1, hknown⟩
  refine hf (c.1 w) ⟨hgood'.1, by simp⟩ hinter.grows hgood'.2 fun hnone => ?_
  exact (hinter.blank ⟨hnone, hgood.fresh.trans hnone⟩).1

/-- The rest of an accepted batch: the updates before it are handled, and it has not begun. -/
structure Batch (stored : StoredCheckpoint) (rest : List Update) (w : World) : Prop where
  /-- The batch was polled at some offset that has been reached, and accepted. -/
  polled : ∃ offset handled, .polled offset (handled ++ rest) ∈ w.log ∧
    validateUpdates offset (handled ++ rest) = .ok () ∧
    offset ≤ stored.checkpoint.nextUpdateID ∧
    ∀ update ∈ handled, update.id < stored.checkpoint.nextUpdateID
  /-- No update of the rest is before the offset. -/
  due : ∀ update ∈ rest, stored.checkpoint.nextUpdateID ≤ update.id

/-- A batch stays one. -/
theorem Batch.grows (h : Batch stored rest w) (hgrows : Grows w w') : Batch stored rest w' := by
  obtain ⟨offset, handled, hmem, hrest⟩ := h.polled
  exact ⟨⟨offset, handled, hgrows.subset hmem, hrest⟩, h.due⟩

/-- The source left out the ids between the offset and the first update of the rest. -/
theorem Batch.gap (h : Batch stored (update :: rest) w) :
    Gap w.log stored.checkpoint.nextUpdateID update.id := by
  obtain ⟨offset, handled, hmem, hvalid, hoffset, hhandled⟩ := h.polled
  obtain ⟨hsorted, -⟩ := validateUpdates_eq_ok hvalid
  have hlater := (pairwise_cons.mp (List.pairwise_append.mp hsorted).2.1).1
  intro x hle hlt
  refine ⟨offset, _, hmem, hvalid, by omega, ⟨update, by simp, hlt⟩, ?_⟩
  intro other hother
  rcases mem_append.mp hother with hother | hother
  · have := hhandled other hother
    omega
  rcases mem_cons.mp hother with rfl | hother
  · omega
  have := hlater other hother
  omega

/-- After its first update is handled, the rest of a batch is due. -/
theorem Batch.next {verified : StoredCheckpoint} (h : Batch stored (update :: rest) w)
    (hend : verified.checkpoint.nextUpdateID = update.id + 1) : Batch verified rest w := by
  obtain ⟨offset, handled, hmem, hvalid, hoffset, hhandled⟩ := h.polled
  have hle := h.due update mem_cons_self
  obtain ⟨hsorted, -⟩ := validateUpdates_eq_ok hvalid
  have hlater := (pairwise_cons.mp (List.pairwise_append.mp hsorted).2.1).1
  refine ⟨⟨offset, handled ++ [update], by simpa using hmem, by simpa using hvalid, by omega, ?_⟩, ?_⟩
  · intro other hother
    rcases mem_append.mp hother with hother | hother
    · have := hhandled other hother
      omega
    obtain rfl := mem_singleton.mp hother
    omega
  intro other hother
  have := hlater other hother
  omega

theorem handleUpdates_ensures (hgood : Good init none w) (hidle : Idle stored w)
    (hbatch : Batch stored rest w) :
    Ensures (shared true loop) (Good init none) (loop.handleUpdates stored rest) Idle w := by
  induction rest generalizing stored w with
  | nil => exact .pure hgood hidle
  | cons update rest ih =>
    refine ensures_free (some stored) hgood (fun _ h => some.inj h ▸ hidle) ?_
    intro w1 hgood1 hgrows hidle1 _
    have hbatch1 := hbatch.grows hgrows
    obtain ⟨offset, handled, -, hvalid, -⟩ := hbatch1.polled
    have hne := ((validateUpdates_eq_ok hvalid).2 update (by simp)).2
    have hhandle : Ensures (shared true loop) (Good init none) (loop.handleUpdate stored update)
        (Done update.id) w1 :=
      handleUpdate_ensures (hidle1 stored rfl) hgood1 (hbatch1.due update mem_cons_self) hne
        hbatch1.gap
    refine (hhandle.related Grows.refl Grows.trans grows_shared).bind ?_
    rintro verified w2 hgood2 ⟨⟨⟨hstore, hnone⟩, hend⟩, hgrows2⟩
    exact ih hgood2 (.of_store hstore hnone) ((hbatch1.next hend).grows hgrows2)

/-- The loop of `Run`, over any number of polls. -/
theorem pollLoop_ensures {polls : Nat} (hgood : Good init none w) (hidle : Idle stored w) :
    Ensures (shared true loop) (Good init none) (loop.pollLoop polls stored) Idle w := by
  induction polls generalizing stored w with
  | zero => exact .pure hgood hidle
  | succ polls ih =>
    refine .request hgood fun cancelled => .check hgood fun _ _ => ?_
    refine ensures_free (some stored) hgood (fun _ h => some.inj h ▸ hidle) ?_
    intro w1 hgood1 _ hidle1 _
    have hidle1 := hidle1 stored rfl
    refine .request hgood1 fun answer => ?_
    rcases answer with e | updates
    · exact .check hgood1 fun _ h => by cases h
    obtain ⟨latest, hstore, hoffset, hnone, hrev, hsame⟩ := hidle1.latest
    have hgood2 : Good init none (w1.add (.polled stored.checkpoint.nextUpdateID updates)) :=
      hgood1.add ⟨latest.checkpoint, hgood1.1.durable_eq hstore, hoffset, hnone⟩ (by simp)
    refine .check hgood2 fun updates' hupdates => .check hgood2 fun _ hvalid => ?_
    obtain rfl : updates = updates' := ok.inj hupdates
    have hbatch : Batch stored updates
        (w1.add (.polled stored.checkpoint.nextUpdateID updates)) :=
      ⟨⟨_, [], mem_cons_self, hvalid, Int.le_refl _, by simp⟩,
        fun update hupdate => ((validateUpdates_eq_ok hvalid).2 update hupdate).1⟩
    have hidle2 : Idle stored (w1.add (.polled stored.checkpoint.nextUpdateID updates)) :=
      ⟨latest, hstore, hoffset, hnone, hrev, hsame⟩
    exact (handleUpdates_ensures hgood2 hidle2 hbatch).bind fun _ _ h hdone => ih h hdone

/-- `bootstrap` on a store without a checkpoint. -/
theorem bootstrap_ensures (hgood : Good init none w) (hnone : w.store = none) :
    Ensures (shared true loop) (Good init none) bootstrap (fun _ _ => True) w := by
  refine .request hgood fun answer => .check hgood fun nextUpdateID _ => .check hgood fun _ _ => ?_
  refine ensures_free none hgood (by simp) fun w1 hgood1 _ _ hstore => ?_
  refine .mono (saveVerified_ensures (fun _ => Good.fresh) hgood1 (fun hvalid written hkeeps => ?_) ?_)
    fun _ _ _ => trivial
  · refine ⟨hgood1.1.save (SaveLawful.clone (.first hvalid ?_ rfl)) hkeeps, by simp⟩
    rw [← hgood1.1.stored, hstore hnone]
    rfl
  · exact fun _ f w h => (f.2 w).good h

/-- `Run`, over any number of polls. -/
theorem run_ensures (polls : Nat) (hgood : Good init none w) :
    Ensures (shared true loop) (Good init none) (loop.run polls) (fun _ _ => True) w := by
  refine ensures_load hgood hgood.fresh (.check hgood fun _ _ => ?_)
  refine ensures_free none hgood (by simp) fun w1 hgood1 _ _ hstore1 => ?_
  refine .request hgood1 fun notReady => .check hgood1 fun _ _ => ?_
  refine ensures_free none hgood1 (by simp) fun w2 hgood2 _ _ hstore2 => ?_
  refine .bind (P := fun _ _ => True) ?_ fun _ w3 hgood3 _ => ?_
  · cases hfound : w.store with
    | none => exact bootstrap_ensures hgood2 (hstore2 (hstore1 hfound))
    | some stored => exact .pure hgood2 trivial
  refine ensures_free none hgood3 (by simp) fun w4 hgood4 _ _ _ => ?_
  refine (resolveInterruptedState_ensures hgood4).bind fun stored w5 hgood5 h => ?_
  exact (pollLoop_ensures hgood5 (.of_store h.1 h.2)).mono fun _ _ _ => trivial

end Running

/-! ## Histories -/

theorem History.good {init : Option StoredCheckpoint} (h : History true init w) :
    Good (init.map (·.checkpoint)) none w := by
  induction h with
  | start => exact ⟨⟨rfl, rfl, trivial⟩, by simp⟩
  | run loop polls _ hreaches ih => exact (run_ensures polls ih).reaches hreaches
  | call loop call _ hreaches ih => exact (call_ensures call ih).reaches hreaches
  | restart _ ih => exact ⟨⟨ih.1.stored, rfl, ih.1.lawful⟩, by simp⟩

/-- A loop whose handler and sender have no more than they must. -/
def plainLoop : Loop := {}

/-- A message update of a private chat. -/
def greeting (id : Int) : Update :=
  { id, kind := .message, actorID := 7, conversationID := 7
    conversationKind := ofText "private", text := ofText "hi" }

section

variable (rereads : Bool) (updates : List Update) (decision : Except Err Decision)
  (reread : Nat → { reread : Bool // rereads → reread })

/-- Surroundings in which the source delivers these updates, the handler answers them so, a save
over some revisions is not read back and every other call succeeds. -/
def obliging : (r : Request) → Choice rereads (Interference rereads plainLoop) r
  | .ctxErr => none
  | .load => none
  | .save expected next => (⟨some next, by rintro _ ⟨⟩; exact ⟨rfl, rfl⟩⟩, reread expected,
      if (reread expected).1 then .ok ⟨expected + 1, next⟩ else .error (.message "no reread"))
  | .free => ⟨fun w => w, fun _ => .none⟩
  | .ready _ => none
  | .bootstrap => .ok 5
  | .poll _ => .ok updates
  | .handle _ => decision
  | .prepareUnknownRecovery _ => .error (.message "no recovery")
  | .deliverPreparedStatus _ _ _ _ => none
  | .enqueueStatus _ _ _ _ => .error (.message "no queue")
  | .send _ _ _ _ _ => .ok ⟨70⟩
  | .resolveStatusReceipt _ _ => .ok none

/-- The world after one poll of the plain loop in such surroundings. -/
def polledOnce (w : World) : World :=
  ((plainLoop.run 1).play (shared rereads plainLoop) (obliging rereads updates decision reread) w).2

variable {rereads updates decision reread}

theorem History.polledOnce {init : Option StoredCheckpoint} (h : History rereads init w) :
    History rereads init (polledOnce rereads updates decision reread w) :=
  .run plainLoop 1 h (Program.runs_play _ _ _ _).reaches

end

/-- Every save is read back. -/
def always {rereads : Bool} (_ : Nat) : { reread : Bool // rereads → reread } :=
  ⟨true, fun _ => rfl⟩

/-- The offset in the file. -/
def World.offset (w : World) : Option Int := w.store.map fun s => s.checkpoint.nextUpdateID

/-- The message of the fifth update is answered. -/
def answered : World :=
  polledOnce true [greeting 5]
    (.ok { kind := .status, status := { conversationID := 7, text := ofText "done" } }) always
    ⟨none, none, []⟩

/-- The fifth update is skipped; the file with the new offset is written and not read back. -/
def unread : World :=
  polledOnce false [greeting 5] (.ok { kind := .skip }) (fun n => ⟨n = 0, by simp⟩)
    ⟨none, none, []⟩

end Bria.Coordinator
