import Bria.CoordinatorTransfer.System

/-!
# What a step can do

Each method of a party writes at most one record, over a record in memory of which it knows the
phase. The record is written to the file and then held in memory, so after a write that failed late
the file is one record ahead. `Party.Written` says what a write can leave, and there is one theorem
for each method: which record it writes over which, and what it answers.
-/

namespace Bria.CoordinatorTransfer

open Go Computer NodeLink

variable {S : Type} [Bundle S] {party' : Party S}

/-! ## Writes -/

/-- The party afterwards, if it may write a record `r` over its record in memory `m` when
`edge m r`. -/
inductive Party.Written (edge : Option (Record S) → Record S → Prop) (party : Party S) :
    Party S → Prop where
  /-- Nothing was written. -/
  | same : Party.Written edge party party
  /-- The write failed after it replaced the file. -/
  | late {record : Record S} (along : edge party.memory record)
      (valid : validOffer record.offer) :
      Party.Written edge party { party with file := some record }
  /-- The write succeeded. -/
  | done {record : Record S} (along : edge party.memory record)
      (valid : validOffer record.offer) :
      Party.Written edge party { party with memory := some record, file := some record }

variable {party : Party S} {α : Type} {a b : α} {write : Write} {record : Record S}
  {edge : Option (Record S) → Record S → Prop}

theorem written_writeThen (a : α) (h : edge party.memory record) :
    party.Written edge (party.writeThen write record a).2 := by
  unfold Party.writeThen Party.write
  cases hvalid : validOffer record.offer with
  | false => exact .same
  | true =>
    cases write with
    | refused => exact .same
    | late => exact .late h hvalid
    | done => exact .done h hvalid

theorem writeThen_eq_ok (h : (party.writeThen write record a).1 = .ok b) :
    a = b ∧ (party.writeThen write record a).2 =
        { party with memory := some record, file := some record } := by
  unfold Party.writeThen Party.write at h ⊢
  cases hvalid : validOffer record.offer with
  | false => simp [hvalid, Except.map] at h
  | true =>
    cases write with
    | refused | late => simp [hvalid, Except.map] at h
    | done => exact ⟨by simpa [hvalid, Except.map] using h, rfl⟩

theorem writeThen_done (h : validOffer record.offer) :
    party.writeThen .done record a =
      (.ok a, { party with memory := some record, file := some record }) := by
  simp [Party.writeThen, Party.write, h, Except.map]

/-- The party has the record, in memory or in its file. -/
def Party.Has (party : Party S) (record : Record S) : Prop :=
  party.memory = some record ∨ party.file = some record

/-- A write brings no record but the one written. -/
theorem Party.Written.has (h : party.Written edge party') (hrecord : party'.Has record) :
    party.Has record ∨ edge party.memory record ∧ validOffer record.offer := by
  cases h with
  | same => exact .inl hrecord
  | late along valid =>
    rcases hrecord with hmem | hfile
    · exact .inl (.inl hmem)
    obtain rfl := some.inj hfile
    exact .inr ⟨along, valid⟩
  | done along valid =>
    rcases hrecord with hmem | hfile
    · obtain rfl := some.inj hmem
      exact .inr ⟨along, valid⟩
    obtain rfl := some.inj hfile
    exact .inr ⟨along, valid⟩

/-- The record in memory after a write is the one before it or the one written. -/
theorem Party.Written.memory (h : party.Written edge party') (hmem : party'.memory = some record) :
    party.memory = some record ∨ edge party.memory record := by
  cases h with
  | same | late => exact .inl hmem
  | done along =>
    obtain rfl := some.inj hmem
    exact .inr along

theorem Party.Written.up (h : party.Written edge party') : party'.up = party.up := by
  cases h <;> rfl

/-- No transfer is under way. -/
def Idle (memory : Option (Record S)) : Prop :=
  ∀ record, memory = some record → record.phase = .aborted

/-! ## The source -/

section

variable (cfg : SourceConfig) (call : Call)

/-- What `Prepare` writes. -/
def PrepareEdge (request : Request S) (now : Time) (memory : Option (Record S))
    (record : Record S) : Prop :=
  Idle memory ∧ ∃ digest, record = ⟨.prepared, cfg.offer request digest now⟩

/-- `Prepare` writes a new offer, and answers with the prepared one. -/
theorem prepare_spec (authorized : Bool) (request : Request S) (live : LiveReceipt)
    (party : Party S) :
    party.Written (PrepareEdge cfg request call.now)
        (prepare cfg call authorized request live party).2 ∧
      ∀ offer, (prepare cfg call authorized request live party).1 = .ok offer →
        ∃ current, (prepare cfg call authorized request live party).2.memory =
          some ⟨.prepared, current⟩ ∧ offer = cloneOffer current := by
  unfold prepare
  split_ifs
  · exact ⟨.same, by simp⟩
  split
  · exact ⟨.same, by simp⟩
  rename_i digest _
  split_ifs
  · unfold prepareOffer
    split
    · rename_i current hmem
      split_ifs
      · refine ⟨.same, fun offer h => ⟨current, hmem, (ok.inj h).symm⟩⟩
      · exact ⟨.same, by simp⟩
    · rename_i hmem
      refine ⟨written_writeThen _ ⟨by simp [Idle, hmem], digest, rfl⟩, fun offer h => ?_⟩
      obtain ⟨rfl, heq⟩ := writeThen_eq_ok h
      exact ⟨_, by rw [heq], rfl⟩
    · rename_i current hmem
      refine ⟨written_writeThen _ ⟨by simp [Idle, hmem], digest, rfl⟩, fun offer h => ?_⟩
      obtain ⟨rfl, heq⟩ := writeThen_eq_ok h
      exact ⟨_, by rw [heq], rfl⟩
    · exact ⟨.same, by simp⟩
  · exact ⟨.same, by simp⟩

/-- What `Commit` writes. -/
def CommitEdge (receipt : StageReceipt) (memory : Option (Record S)) (record : Record S) : Prop :=
  ∃ offer, memory = some ⟨.prepared, offer⟩ ∧ record = ⟨.committed, offer⟩ ∧ receipt.matches offer

/-- A record that the source has committed. -/
def Fixed (memory : Option (Record S)) : Prop :=
  ∃ record, memory = some record ∧ (record.phase = .committed ∨ record.phase = .finalized)

/-- `Commit` writes the prepared offer as committed, and answers only with a committed one. -/
theorem commit_spec (receipt : StageReceipt) (party : Party S) :
    party.Written (CommitEdge receipt) (commit call receipt party).2 ∧
      ∀ offer, (commit call receipt party).1 = .ok offer →
        ∃ record, (commit call receipt party).2.memory = some record ∧
          (record.phase = .committed ∨ record.phase = .finalized) ∧
          offer = cloneOffer record.offer := by
  unfold commit
  split_ifs
  · exact ⟨.same, by simp⟩
  split
  · exact ⟨.same, by simp⟩
  rename_i phase current hmem
  split
  · exact ⟨.same, by simp⟩
  rename_i hmatch
  split
  · exact ⟨.same, fun offer h => ⟨_, hmem, .inl rfl, (ok.inj h).symm⟩⟩
  · exact ⟨.same, fun offer h => ⟨_, hmem, .inr rfl, (ok.inj h).symm⟩⟩
  · split_ifs
    · refine ⟨written_writeThen _ ⟨current, hmem, rfl, by simpa using hmatch⟩, fun offer h => ?_⟩
      obtain ⟨rfl, heq⟩ := writeThen_eq_ok h
      exact ⟨_, by rw [heq], .inl rfl, rfl⟩
    · exact ⟨.same, by simp⟩
  · exact ⟨.same, by simp⟩

/-- What `Abort` and `ReclaimExpired` write. -/
def ReleaseEdge (memory : Option (Record S)) (record : Record S) : Prop :=
  ∃ offer, memory = some ⟨.prepared, offer⟩ ∧ record = ⟨.aborted, offer⟩

/-- `Abort` writes the prepared offer as aborted. -/
theorem abort_spec (receipt : AbortReceipt) (fenceValid : Bool) (party : Party S) :
    party.Written ReleaseEdge (abort call receipt fenceValid party).2 := by
  unfold abort
  split_ifs
  · exact .same
  split
  · rename_i offer hmem
    split_ifs
    · exact written_writeThen _ ⟨offer, hmem, rfl⟩
    · exact .same
  · exact .same

/-- `ReclaimExpired` writes the prepared offer as aborted. -/
theorem reclaimExpired_spec (fenceValid : Bool) (party : Party S) :
    party.Written ReleaseEdge (reclaimExpired call fenceValid party).2 := by
  unfold reclaimExpired
  split_ifs
  · exact .same
  split
  · rename_i offer hmem
    split_ifs
    · exact .same
    · exact written_writeThen _ ⟨offer, hmem, rfl⟩
  · exact .same

/-- What `Finalize` writes. -/
def FinalizeEdge (memory : Option (Record S)) (record : Record S) : Prop :=
  ∃ offer, memory = some ⟨.committed, offer⟩ ∧ record = ⟨.finalized, offer⟩

/-- `Finalize` writes the committed offer as finalized. -/
theorem finalize_spec (activation : Activation) (party : Party S) :
    party.Written FinalizeEdge (finalize call activation party).2 := by
  unfold finalize
  split_ifs
  · exact .same
  split
  · exact .same
  rename_i phase offer hmem
  split_ifs
  · exact .same
  split
  · exact .same
  · exact written_writeThen _ ⟨offer, hmem, rfl⟩
  · exact .same

end

/-! ## Opening again -/

/-- What opening a party again leaves: the record of its file, or a party that is not up. -/
theorem reopen_cases (party : Party S) (check : Record S → Bool) :
    (party.reopen check = { party with up := false }) ∨
      (party.file = none ∧ party.reopen check = { party with up := true, memory := none }) ∨
      ∃ record, party.file = some record ∧ party.reopen check =
        { party with up := true, memory := some { record with offer := record.offer.reread } } := by
  unfold Party.reopen readRecord
  rcases hfile : party.file with _ | record
  · exact .inr (.inl ⟨rfl, rfl⟩)
  dsimp only
  cases validOffer record.offer.reread with
  | false => exact .inl rfl
  | true =>
    cases hcheck : check { record with offer := record.offer.reread } with
    | true => exact .inr (.inr ⟨record, rfl, by simp [hcheck]⟩)
    | false => exact .inl (by simp [hcheck])

/-- Opening a party again brings no record but what the file reads back as. -/
theorem has_of_reopen {check : Record S → Bool} (h : (party.reopen check).Has record) :
    party.Has record ∨
      ∃ kept, party.file = some kept ∧ record = { kept with offer := kept.offer.reread } := by
  rcases reopen_cases party check with heq | ⟨hnone, heq⟩ | ⟨kept, hkept, heq⟩ <;> rw [heq] at h
  · exact .inl h
  · rcases h with hmem | hfile
    · cases hmem
    · exact .inl (.inr hfile)
  rcases h with hmem | hfile
  · exact .inr ⟨kept, hkept, (some.inj hmem).symm⟩
  · exact .inl (.inr hfile)

/-! ## The target -/

/-- What `Stage` writes. -/
def StageEdge (offer : Offer S) (memory : Option (Record S)) (record : Record S) : Prop :=
  Idle memory ∧ record = ⟨.staged, cloneOffer offer⟩

/-- What a method of a target leaves of it, if it does not touch the fence. -/
def Target.Written (edge : Option (Record S) → Record S → Prop) (target target' : Target S) : Prop :=
  target.party.Written edge target'.party ∧ target'.fence = target.fence

variable {target : Target S}

/-- A method that returns before it writes. -/
theorem Target.Written.same : target.Written edge target := ⟨.same, rfl⟩

theorem written_target_writeThen (h : edge target.party.memory record) :
    target.Written edge (target.writeThen write record a).2 :=
  ⟨written_writeThen a h, rfl⟩

variable (call : Call) (key : TargetKey) (offer : Offer S) (staged : Except Err SnapshotReceipt)

/-- The comparison of offers ignores the snapshot. -/
theorem sameOffer_clone : sameOffer (cloneOffer offer) offer := by
  simp [sameOffer, cloneOffer]

/-- What `Stage` does: it writes the offer as staged if the fence holds its source, and answers for
a staged offer only. -/
def Stages (target : Target S) (done : TargetOutcome S StageReceipt) : Prop :=
  target.Written (fun memory record => StageEdge offer memory record ∧
      target.fence.validate offer.source = .ok ()) done.2 ∧
    ∀ receipt, done.1 = .ok receipt → receipt = offer.stageReceipt key ∧
      ∃ current, done.2.party.memory = some ⟨.staged, current⟩ ∧ sameOffer current offer

/-- The part of `Stage` for a target without a transfer. -/
theorem stageFresh_spec (target : Target S) (hidle : Idle target.party.memory) :
    Stages key offer target (stageFresh call key offer staged target) := by
  unfold stageFresh
  rcases hfence : target.fence.validate offer.source with e | u
  · exact ⟨.same, by simp⟩
  rcases staged with e | receipt
  · exact ⟨.same, by simp⟩
  dsimp only
  split_ifs
  · exact ⟨.same, by simp⟩
  refine ⟨written_target_writeThen ⟨⟨hidle, rfl⟩, hfence⟩, fun receipt h => ?_⟩
  obtain ⟨rfl, heq⟩ := writeThen_eq_ok h
  exact ⟨rfl, _, congrArg Party.memory heq, sameOffer_clone offer⟩

theorem stage_spec (target : Target S) :
    (stage call key offer staged target).2 = target ∧
        (∀ receipt, (stage call key offer staged target).1 ≠ .ok receipt) ∨
      offer.target.coordinatorID = key.id ∧ offer.targetFingerprint = key.fingerprint ∧
      Stages key offer target (stage call key offer staged target) := by
  unfold stage
  split
  · exact .inl ⟨rfl, by simp⟩
  rename_i hcheck
  simp only [or_eq_true, decide_eq_true_eq, not_or, not_not] at hcheck
  obtain ⟨⟨⟨⟨⟨-, hid⟩, hfingerprint⟩, -⟩, -⟩, -⟩ := hcheck
  refine .inr ⟨hid, hfingerprint, ?_⟩
  split
  · rename_i current hmem
    split_ifs with hsame
    · exact ⟨.same, fun receipt h => ⟨(ok.inj h).symm, current, hmem, hsame⟩⟩
    · exact ⟨.same, by simp⟩
  · rename_i hmem
    exact stageFresh_spec call key offer staged target (by simp [Idle, hmem])
  · rename_i current hmem
    exact stageFresh_spec call key offer staged target (by simp [Idle, hmem])
  · exact ⟨.same, by simp⟩

/-- What `Activate` writes. -/
def ActivateEdge (memory : Option (Record S)) (record : Record S) : Prop :=
  ∃ current, memory = some ⟨.staged, current⟩ ∧ record = ⟨.activated, current⟩ ∧
    sameOffer current offer

/-- `Activate` leaves the target alone, or the offer is staged and the fence is asked to accept its
target; only if it did, the offer is written as activated. -/
theorem activate_spec (outside : Activating S) (target : Target S) :
    (activate call offer outside target).2 = target ∨
      ∃ current, target.party.memory = some ⟨.staged, current⟩ ∧ sameOffer current offer ∧
        (activate call offer outside target).2.fence =
          (target.fence.accept outside.fenceWrite offer.target).2 ∧
        ((activate call offer outside target).2.party = target.party ∨
          (target.fence.accept outside.fenceWrite offer.target).1 = .ok () ∧
          target.party.Written (ActivateEdge offer)
            (activate call offer outside target).2.party) := by
  unfold activate
  split
  · exact .inl rfl
  split
  · exact .inl rfl
  rename_i phase current hmem
  split
  · exact .inl rfl
  rename_i hsame
  have hsame : sameOffer current offer := by simpa using hsame
  split
  · split_ifs <;> exact .inl rfl
  · unfold activateStaged
    split
    · split
      · exact .inl rfl
      split
      · refine .inr ⟨current, hmem, hsame, ?_⟩
        split
        · rename_i e fence haccept
          exact ⟨by rw [haccept], .inl rfl⟩
        rename_i u fence haccept
        refine ⟨by rw [haccept]; rfl, .inr ⟨by rw [haccept], ?_⟩⟩
        exact written_writeThen (Activation.mk current.id current.target)
          ⟨current, hmem, rfl, hsame⟩
      · exact .inl rfl
    · exact .inl rfl
  · exact .inl rfl

/-- What `Abort` of a target writes. -/
def AbortEdge (memory : Option (Record S)) (record : Record S) : Prop :=
  (∀ current, memory = some current → current.phase = .staged) ∧
    record = ⟨.aborted, cloneOffer offer⟩

/-- `Abort` of a target writes the offer as aborted. -/
theorem abortTarget_spec (identity : ChannelIdentity) (target : Target S) :
    (abortTarget call key offer identity target).2 = target ∨
      offer.target.coordinatorID = key.id ∧ offer.targetFingerprint = key.fingerprint ∧
      target.Written (AbortEdge offer) (abortTarget call key offer identity target).2 := by
  unfold abortTarget
  split
  · exact .inl rfl
  rename_i hcheck
  simp only [or_eq_true, decide_eq_true_eq, not_or, not_not] at hcheck
  obtain ⟨⟨⟨⟨⟨⟨⟨-, hid⟩, hfingerprint⟩, -⟩, -⟩, -⟩, -⟩, -⟩ := hcheck
  refine .inr ⟨hid, hfingerprint, ?_⟩
  split
  · exact .same
  split
  · split_ifs <;> exact .same
  · rename_i current hmem
    split_ifs
    · exact written_target_writeThen ⟨by simp [hmem], rfl⟩
    · exact .same
  · rename_i hmem
    exact written_target_writeThen ⟨by simp [hmem], rfl⟩
  · exact .same

end Bria.CoordinatorTransfer
