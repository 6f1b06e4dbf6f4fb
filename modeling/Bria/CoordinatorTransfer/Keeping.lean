import Bria.CoordinatorTransfer.Offers
import Bria.CoordinatorTransfer.Unique

/-!
# What the parties keep

The invariants of one party that the completion of a transfer rests on. The source has one offer
under every id, and its file is about the offer in its memory while a transfer is under way. The
fence of a target moves from the term of the source to the next one while the target activates an
offer, and never leaves the two; so a target that holds an offer can activate it
(`TargetKept.activates`). Each invariant is kept by every write and when the party is opened again.
-/

namespace Bria.CoordinatorTransfer

open Go Computer NodeLink

variable {S : Type} {cfg : SourceConfig} {offer other : Offer S} {party source : Party S}

/-! ## Holding and releasing an offer -/

/-- A record of a target for which `Activate` does its work. -/
def Live (record : Record S) : Prop := record.phase = .staged ∨ record.phase = .activated

/-- The target's party has the offer staged or activated, in memory and in its file. -/
def Holds (party : Party S) (offer : Offer S) : Prop :=
  ∃ held kept, party.memory = some held ∧ party.file = some kept ∧
    Live held ∧ Live kept ∧ held.offer.face = offer.face ∧ kept.offer.face = offer.face

/-- The source has aborted the offer, or never had it. -/
def Released (source : Party S) (offer : Offer S) : Prop :=
  ∀ record, source.Has record → record.offer.id = offer.id → record.phase = .aborted

/-- Holding an offer depends on its face only. -/
theorem Holds.congr (h : Holds party offer) (hface : offer.face = other.face) :
    Holds party other := by
  obtain ⟨held, kept, hheld, hkept, hlive, hlive', hsame, hsame'⟩ := h
  exact ⟨held, kept, hheld, hkept, hlive, hlive', hsame.trans hface, hsame'.trans hface⟩

/-- Releasing an offer depends on its face only. -/
theorem Released.congr (h : Released source offer) (hface : offer.face = other.face) :
    Released source other := by
  intro record hrecord hid
  exact h record hrecord (hid.trans (id_of_face hface).symm)

variable {record : Record S}

/-- The offer that a record of the source is about is not released, unless it is aborted. -/
theorem not_released (hrecord : source.Has record) (hphase : record.phase ≠ .aborted)
    (hface : record.offer.face = offer.face) : ¬ Released source offer := by
  intro h
  exact hphase (h record hrecord (id_of_face hface))

/-- A committed record is not an aborted one. -/
theorem ne_aborted_of_fixed (h : Fixed (some record)) : record.phase ≠ .aborted := by
  obtain ⟨record', heq, hphase⟩ := h
  obtain rfl := some.inj heq
  rcases hphase with hphase | hphase <;> rw [hphase] <;> decide

/-- No live record is idle. -/
theorem not_idle_of_live (hmem : party.memory = some record) (hlive : Live record) :
    ¬ Idle party.memory := by
  intro hidle
  have haborted := hidle record hmem
  rcases hlive with hlive | hlive <;> exact absurd (hlive.symm.trans haborted) (by decide)

/-- The record of a source goes on with the offer in memory. -/
def Continues (memory : Option (Record S)) (record : Record S) : Prop :=
  ¬ Live record ∧
    ∃ current, memory = some current ∧ record.offer = current.offer ∧ current.phase ≠ .aborted

/-- `Abort` and `ReclaimExpired` go on with the offer and commit nothing. -/
theorem release_edge {memory : Option (Record S)} {P : Prop} (along : ReleaseEdge memory record) :
    Continues memory record ∧ (Fixed (some record) → P) := by
  obtain ⟨offer, rfl, rfl⟩ := along
  exact ⟨⟨by simp [Live], _, rfl, rfl, nofun⟩,
    fun hfixed => absurd rfl (ne_aborted_of_fixed hfixed)⟩

variable [Bundle S]

/-! ## What the source keeps -/

/-- The records of the source and the offers that it sent. -/
structure SourceKept (cfg : SourceConfig) (source : Party S) (offers : List (Offer S)) : Prop where
  up : source.up
  own : ∀ record, source.Has record → ¬ Live record
  proper : ∀ record, source.Has record → Proper cfg record.offer
  /-- While a transfer is under way, memory and file are about the same offer. -/
  aligned : ∀ record, source.memory = some record → record.phase ≠ .aborted →
    ∃ kept, source.file = some kept ∧ kept.offer.face = record.offer.face
  sent : ∀ offer ∈ offers, Proper cfg offer
  /-- An id is used for one offer. -/
  agree : ∀ offer ∈ offers, ∀ record, source.Has record → record.offer.id = offer.id →
    record.offer.face = offer.face

/-- The record of a source has a new offer under an id that none of the offers has. -/
def Begins (cfg : SourceConfig) (offers : List (Offer S)) (memory : Option (Record S))
    (record : Record S) : Prop :=
  ¬ Live record ∧ Idle memory ∧ (validOffer record.offer → Proper cfg record.offer) ∧
    ∀ offer ∈ offers, offer.id ≠ record.offer.id

variable {source source' : Party S} {offers : List (Offer S)}
  {edge : Option (Record S) → Record S → Prop}

/-- A write of the source that goes on with its offer or begins a new one. -/
theorem SourceKept.written (h : SourceKept cfg source offers) (hwritten : source.Written edge source')
    (hedge : ∀ record, edge source.memory record →
      Continues source.memory record ∨ Begins cfg offers source.memory record) :
    SourceKept cfg source' offers where
  up := hwritten.up.trans h.up
  own := by
    intro record hrecord
    rcases hwritten.has hrecord with hbefore | ⟨along, -⟩
    · exact h.own record hbefore
    · rcases hedge record along with ⟨hown, -⟩ | ⟨hown, -⟩ <;> exact hown
  proper := by
    intro record hrecord
    rcases hwritten.has hrecord with hbefore | ⟨along, hvalid⟩
    · exact h.proper record hbefore
    rcases hedge record along with ⟨-, current, hmem, heq, -⟩ | ⟨-, -, hproper, -⟩
    · rw [heq]
      exact h.proper current (.inl hmem)
    · exact hproper hvalid
  aligned := by
    intro record hmem hphase
    cases hwritten with
    | same => exact h.aligned record hmem hphase
    | @late written along hvalid =>
      refine ⟨written, rfl, ?_⟩
      rcases hedge written along with ⟨-, current, hcurrent, heq, -⟩ | ⟨-, hidle, -⟩
      · obtain rfl : current = record := mem_unique hcurrent hmem
        rw [heq]
      · exact absurd (hidle record hmem) hphase
    | @done written along hvalid => exact ⟨written, rfl, by rw [some.inj hmem]⟩
  sent := h.sent
  agree := by
    intro offer hoffer record hrecord hid
    rcases hwritten.has hrecord with hbefore | ⟨along, -⟩
    · exact h.agree offer hoffer record hbefore hid
    rcases hedge record along with ⟨-, current, hmem, heq, -⟩ | ⟨-, -, -, hfresh⟩
    · rw [heq] at hid ⊢
      exact h.agree offer hoffer current (.inl hmem) hid
    · exact absurd hid.symm (hfresh offer hoffer)

/-- A write of the source leaves released what is released and was offered. -/
theorem released_of_written (hwritten : source.Written edge source')
    (hedge : ∀ record, edge source.memory record →
      Continues source.memory record ∨ Begins cfg offers source.memory record)
    (hoffer : offer ∈ offers) (h : Released source offer) : Released source' offer := by
  intro record hrecord hid
  rcases hwritten.has hrecord with hbefore | ⟨along, -⟩
  · exact h record hbefore hid
  rcases hedge record along with ⟨-, current, hmem, heq, hphase⟩ | ⟨-, -, -, hfresh⟩
  · rw [heq] at hid
    exact absurd (h current (.inl hmem) hid) hphase
  · exact absurd hid.symm (hfresh offer hoffer)

/-- The prepared offer is sent. -/
theorem SourceKept.sends [LawfulBundle S] (h : SourceKept cfg source offers)
    (hmem : source.memory = some ⟨.prepared, offer⟩) :
    SourceKept cfg source (cloneOffer offer :: offers) where
  up := h.up
  own := h.own
  proper := h.proper
  aligned := h.aligned
  sent := by
    intro sent hsent
    rcases mem_cons.mp hsent with rfl | hsent
    · exact (h.proper _ (.inl hmem)).clone
    · exact h.sent sent hsent
  agree := by
    intro sent hsent record hrecord hid
    rcases mem_cons.mp hsent with rfl | hsent
    · rcases hrecord with hrecord | hrecord
      · rw [hmem] at hrecord
        rw [← some.inj hrecord, face_cloneOffer]
      obtain ⟨kept, hkept, hface⟩ := h.aligned _ hmem nofun
      rw [hrecord] at hkept
      rw [some.inj hkept, face_cloneOffer, hface]
    · exact h.agree sent hsent record hrecord hid

/-- A party that was opened on a record of its file. -/
def Party.opened (party : Party S) : Party S :=
  { party with
    up := true
    memory := party.file.map fun record => { record with offer := cloneOffer record.offer } }

/-- Opening a party again on a proper record that passes the check. -/
theorem reopen_eq_opened [LawfulBundle S] (cfg : SourceConfig) {check : Record S → Bool}
    (hproper : ∀ record, party.file = some record → Proper cfg record.offer ∧
      check { record with offer := cloneOffer record.offer }) :
    party.reopen check = party.opened := by
  unfold Party.reopen readRecord Party.opened
  rcases hfile : party.file with _ | record
  · simp
  obtain ⟨hrecord, hcheck⟩ := hproper record hfile
  have hvalid : validOffer record.offer.reread := by
    rw [hrecord.reread]
    exact hrecord.clone.valid
  simp only [hvalid, ↓reduceIte, map_some]
  rw [hrecord.reread, if_pos hcheck]

theorem has_of_opened (h : party.opened.Has record) :
    ∃ kept, party.file = some kept ∧ record.phase = kept.phase ∧
      record.offer.face = kept.offer.face ∧
      (record = kept ∨ record.offer = cloneOffer kept.offer) := by
  rcases h with hmem | hfile
  · obtain ⟨kept, hkept, rfl⟩ := map_eq_some_iff.mp hmem
    exact ⟨kept, hkept, rfl, rfl, .inr rfl⟩
  · exact ⟨record, hfile, rfl, rfl, .inl rfl⟩

theorem proper_of_opened [LawfulBundle S]
    (hproper : ∀ record, party.Has record → Proper cfg record.offer) (h : party.opened.Has record) :
    Proper cfg record.offer := by
  obtain ⟨kept, hkept, -, -, rfl | heq⟩ := has_of_opened h
  · exact hproper record (.inr hkept)
  rw [heq]
  exact (hproper kept (.inr hkept)).clone

section

variable [LawfulBundle S] (h : SourceKept cfg source offers)
include h

theorem SourceKept.reopenSource_eq : reopenSource cfg source = source.opened := by
  refine reopen_eq_opened cfg fun record hrecord => ?_
  have hproper := h.proper record (.inr hrecord)
  exact ⟨hproper, decide_eq_true hproper.source⟩

theorem SourceKept.reopen : SourceKept cfg (reopenSource cfg source) offers := by
  rw [h.reopenSource_eq]
  refine ⟨rfl, fun record hrecord => ?_, fun record hrecord => proper_of_opened h.proper hrecord,
    fun record hmem _ => ?_, h.sent, fun offer hoffer record hrecord hid => ?_⟩
  · obtain ⟨kept, hkept, hphase, -, -⟩ := has_of_opened hrecord
    rw [Live, hphase]
    exact h.own kept (.inr hkept)
  · obtain ⟨kept, hkept, rfl⟩ := map_eq_some_iff.mp hmem
    exact ⟨kept, hkept, rfl⟩
  obtain ⟨kept, hkept, -, hface, -⟩ := has_of_opened hrecord
  rw [hface]
  exact h.agree offer hoffer kept (.inr hkept) ((id_of_face hface).symm.trans hid)

/-- What was released stays released when the source is opened again. -/
theorem SourceKept.released_reopen (hreleased : Released source offer) :
    Released (reopenSource cfg source) offer := by
  rw [h.reopenSource_eq]
  intro record hrecord hid
  obtain ⟨kept, hkept, hphase, hface, -⟩ := has_of_opened hrecord
  rw [hphase]
  exact hreleased kept (.inr hkept) ((id_of_face hface).symm.trans hid)

end

/-! ## What a target keeps -/

/-- The records of a target and its fence, which moves from the term of the source to the next one
while the target activates an offer. -/
structure TargetKept (cfg : SourceConfig) (key : TargetKey) (offers : List (Offer S))
    (target : Target S) : Prop where
  up : target.party.up
  proper : ∀ record, target.party.Has record → Proper cfg record.offer ∧ For key record.offer
  known : ∀ record, target.party.Has record → ∃ offer ∈ offers, offer.face = record.offer.face
  fence : target.fence.reopen = .ok target.fence ∨
    target.fence.Within cfg.term (cfg.successor key) ∧ Succeeds cfg.term (cfg.successor key)
  within : ∀ record, target.party.Has record → Live record →
    target.fence.Within cfg.term (cfg.successor key)
  activated : Activated target.party → target.fence.memory = cfg.successor key ∧
    target.fence.file.reread = cfg.successor key

variable {key : TargetKey} {target target' : Target S}

section

variable (h : TargetKept cfg key offers target)
include h

/-- More offers are known. -/
theorem TargetKept.mono {offers' : List (Offer S)} (hsub : ∀ offer ∈ offers, offer ∈ offers') :
    TargetKept cfg key offers' target :=
  { h with
    known := by
      intro record hrecord
      obtain ⟨offer, hoffer, hface⟩ := h.known record hrecord
      exact ⟨offer, hsub offer hoffer, hface⟩ }

/-- A write of the target, of a copy of an offer that was sent to it, which does not touch the
fence. -/
theorem TargetKept.written [LawfulBundle S] (hwritten : target.Written edge target')
    (hoffer : offer ∈ offers) (hproper : Proper cfg offer) (hkey : For key offer)
    (hedge : ∀ record, edge target.party.memory record → record.offer = cloneOffer offer ∧
      (record.phase = .aborted ∨
        record.phase = .staged ∧ target.fence.Within cfg.term (cfg.successor key))) :
    TargetKept cfg key offers target' := by
  obtain ⟨hparty, hfence⟩ := hwritten
  have hphase : ∀ record, edge target.party.memory record → record.phase ≠ .activated := by
    intro record along
    rcases (hedge record along).2 with hphase | ⟨hphase, -⟩ <;> rw [hphase] <;> decide
  refine ⟨hparty.up.trans h.up, fun record hrecord => ?_, fun record hrecord => ?_, ?_,
    fun record hrecord hlive => ?_, fun hactivated => ?_⟩
  · rcases hparty.has hrecord with hbefore | ⟨along, -⟩
    · exact h.proper record hbefore
    rw [(hedge record along).1]
    exact ⟨hproper.clone, hkey⟩
  · rcases hparty.has hrecord with hbefore | ⟨along, -⟩
    · exact h.known record hbefore
    · exact ⟨offer, hoffer, by rw [(hedge record along).1, face_cloneOffer]⟩
  · rw [hfence]
    exact h.fence
  · rw [hfence]
    rcases hparty.has hrecord with hbefore | ⟨along, -⟩
    · exact h.within record hbefore hlive
    rcases (hedge record along).2 with haborted | ⟨-, hwithin⟩
    · rw [Live, haborted] at hlive
      rcases hlive with hlive | hlive <;> cases hlive
    · exact hwithin
  rw [hfence]
  rcases hparty.activated hactivated with hbefore | ⟨record, along, hactivated⟩
  · exact h.activated hbefore
  · exact absurd hactivated (hphase record along)

theorem TargetKept.activate (call : Call) (offer : Offer S) (outside : Activating S) :
    TargetKept cfg key offers (activate call offer outside target).2 := by
  rcases activate_spec call offer outside target with hsame | ⟨current, hmem, hsame, hfence, hparty⟩
  · rw [hsame]
    exact h
  have hface : current.face = offer.face := sameOffer_iff.mp hsame
  obtain ⟨hproper, hkey⟩ := h.proper _ (.inl hmem)
  have hterms := hproper.succeeds hkey
  have htarget : offer.target = cfg.successor key := by
    rw [← hproper.target_eq hkey]
    exact (congrArg (·.target) hface).symm
  have hwithin := h.within _ (.inl hmem) (.inl rfl)
  rw [htarget] at hfence hparty
  generalize (CoordinatorTransfer.activate call offer outside target).2 = target' at hfence hparty ⊢
  -- Whatever is written in the record has the offer that was staged.
  have hhas : ∀ record, target'.party.Has record →
      ∃ before, target.party.Has before ∧ record.offer = before.offer := by
    intro record hrecord
    rcases hparty with hparty | ⟨-, hwritten⟩
    · rw [hparty] at hrecord
      exact ⟨record, hrecord, rfl⟩
    rcases hwritten.has hrecord with hbefore | ⟨⟨staged, hstaged, rfl, -⟩, -⟩
    · exact ⟨record, hbefore, rfl⟩
    · exact ⟨_, .inl hstaged, rfl⟩
  have hup : target'.party.up = target.party.up := by
    rcases hparty with hparty | ⟨-, hwritten⟩
    · rw [hparty]
    · exact hwritten.up
  have hwithin' : target'.fence.Within cfg.term (cfg.successor key) := by
    rw [hfence]
    rcases hwithin.accept hterms with ⟨-, haccept⟩ | ⟨-, e, haccept⟩ <;> rw [haccept]
    · exact ⟨.inr rfl, .inr hterms.text⟩
    · exact hwithin.save hterms
  refine ⟨hup.trans h.up, fun record hrecord => ?_, fun record hrecord => ?_, .inr ⟨hwithin', hterms⟩,
    fun _ _ _ => hwithin', fun hactivated => ?_⟩
  · obtain ⟨before, hbefore, heq⟩ := hhas record hrecord
    rw [heq]
    exact h.proper before hbefore
  · obtain ⟨before, hbefore, heq⟩ := hhas record hrecord
    rw [heq]
    exact h.known before hbefore
  rw [hfence]
  rcases hwithin.accept hterms with ⟨-, haccept⟩ | ⟨-, e, haccept⟩
  · rw [haccept]
    exact ⟨rfl, hterms.text⟩
  -- The fence refused, so the record is as it was.
  rw [haccept] at hparty ⊢
  rcases hparty with hparty | ⟨hok, -⟩
  · rw [hparty] at hactivated
    obtain ⟨hmemory, hfile⟩ := h.activated hactivated
    cases outside.fenceWrite with
    | refused => exact ⟨hmemory, hfile⟩
    | late => exact ⟨hmemory, hterms.text⟩
    | done => exact ⟨rfl, hterms.text⟩
  · cases hok

end

/-- Nothing outside fails while a target activates an offer, and the store has the offer's state
afterwards. -/
structure Unhindered (offer : Offer S) (call : Call) (outside : Activating S) : Prop where
  running : call.cancelled = false
  record : call.write = .done
  apply : outside.apply = none
  active : activeIs offer outside.read
  fence : outside.fenceWrite = .done

section

variable (h : TargetKept cfg key offers target)
include h

/-- A target that holds an offer activates it, and then coordinates. -/
theorem TargetKept.activates (hholds : Holds target.party offer) {call : Call}
    {outside : Activating S} (houtside : Unhindered offer call outside) :
    (CoordinatorTransfer.activate call (cloneOffer offer) outside target).1 =
        .ok ⟨offer.id, offer.target⟩ ∧
      targetCanCoordinate
        (CoordinatorTransfer.activate call (cloneOffer offer) outside target).2 := by
  obtain ⟨⟨phase, current⟩, kept, hmem, -, hlive, -, hface, -⟩ := hholds
  obtain ⟨hproper, hkey⟩ := h.proper _ (.inl hmem)
  have hterms := hproper.succeeds hkey
  have hsame : sameOffer current (cloneOffer offer) := sameOffer_iff.mpr hface
  have hid : current.id = offer.id := id_of_face hface
  have hto : current.target = offer.target := congrArg (·.target) hface
  have htarget : offer.target = cfg.successor key := hto.symm.trans (hproper.target_eq hkey)
  have hactive : activeIs (cloneOffer offer) outside.read := houtside.active
  have hwithin := h.within _ (.inl hmem) hlive
  unfold CoordinatorTransfer.activate
  rw [h.up, houtside.running]
  simp only [hmem, hsame, Bool.not_true, Bool.or_self, false_eq_true, ↓reduceIte]
  rcases hlive with hstaged | hactivated
  · obtain rfl : phase = .staged := hstaged
    have hvalid : ((target.fence.validate (cloneOffer offer).source).toBool ||
        (target.fence.validate (cloneOffer offer).target).toBool) := by
      have hfrom : offer.source = cfg.term := (congrArg (·.source) hface).symm.trans hproper.source
      rw [or_eq_true]
      rcases hwithin.1 with hold | hnew
      · refine .inl ?_
        rw [show (cloneOffer offer).source = cfg.term from hfrom,
          FenceFile.validate_eq_ok.mpr ⟨hterms.valid, hold⟩]
        rfl
      refine .inr ?_
      rw [show (cloneOffer offer).target = cfg.successor key from htarget,
        FenceFile.validate_eq_ok.mpr ⟨hterms.next, hnew⟩]
      rfl
    have haccept : target.fence.accept outside.fenceWrite (cloneOffer offer).target =
        (.ok (), ⟨cfg.successor key, cfg.successor key⟩) := by
      rw [show (cloneOffer offer).target = cfg.successor key from htarget]
      rcases hwithin.accept hterms with ⟨-, haccept⟩ | ⟨hfails, -⟩
      · exact haccept
      · exact absurd houtside.fence hfails
    have hwrite : ∀ (party : Party S) (activation : Activation),
        party.writeThen .done ⟨.activated, current⟩ activation = (.ok activation,
          { party with memory := some ⟨.activated, current⟩, file := some ⟨.activated, current⟩ }) :=
      fun _ _ => writeThen_done hproper.valid
    simp only [activateStaged, hvalid, houtside.apply, hactive, haccept, houtside.record,
      Target.writeThen, hwrite, ↓reduceIte]
    exact ⟨by rw [hid, hto], by simp [targetCanCoordinate, h.up]⟩
  · obtain rfl : phase = .activated := hactivated
    have hfence : target.fence.validate current.target = .ok () := by
      rw [hproper.target_eq hkey]
      exact FenceFile.validate_eq_ok.mpr ⟨hterms.next, (h.activated ⟨_, .inl hmem, rfl⟩).1⟩
    simp only [hfence, Except.toBool, hactive, Bool.and_self, ↓reduceIte]
    exact ⟨by rw [hid, hto], by simp [targetCanCoordinate, h.up, hmem]⟩

theorem TargetKept.reopenTarget_eq [LawfulBundle S] :
    ∃ fence, reopenTarget key target = { party := target.party.opened, fence } ∧
      target.fence.reopen = .ok fence := by
  have hparty : (target.party.reopen fun record =>
      record.offer.target.coordinatorID = key.id && record.offer.targetFingerprint =
        key.fingerprint) = target.party.opened := by
    refine reopen_eq_opened cfg fun record hrecord => ?_
    obtain ⟨hproper, hkey⟩ := h.proper record (.inr hrecord)
    refine ⟨hproper, ?_⟩
    rw [and_eq_true]
    exact ⟨decide_eq_true hkey.1, decide_eq_true hkey.2⟩
  have hfence : ∃ fence, target.fence.reopen = .ok fence := by
    rcases h.fence with hopened | ⟨hwithin, hterms⟩
    · exact ⟨_, hopened⟩
    · exact ⟨_, hwithin.reopen hterms⟩
  obtain ⟨fence, hfence⟩ := hfence
  refine ⟨fence, ?_, hfence⟩
  unfold reopenTarget
  rw [hfence, hparty]

theorem TargetKept.reopen [LawfulBundle S] :
    TargetKept cfg key offers (reopenTarget key target) := by
  obtain ⟨fence, heq, hfence⟩ := h.reopenTarget_eq
  rw [heq]
  -- A fence between the two terms reads back what its file has.
  have hreread : ∀ kept, target.party.file = some kept → Live kept →
      fence = { target.fence with memory := target.fence.file.reread } := by
    intro kept hkept hlive
    obtain ⟨hproper, hkey⟩ := h.proper kept (.inr hkept)
    have hwithin := h.within kept (.inr hkept) hlive
    rw [hwithin.reopen (hproper.succeeds hkey)] at hfence
    exact (ok.inj hfence).symm
  have hlive : ∀ {record kept : Record S}, record.phase = kept.phase → Live record → Live kept := by
    intro record kept hphase hlive
    rwa [Live, ← hphase]
  refine ⟨rfl, fun record hrecord => ?_, fun record hrecord => ?_, ?_,
    fun record hrecord hrecordLive => ?_, ?_⟩
  · obtain ⟨kept, hkept, -, hface, -⟩ := has_of_opened hrecord
    exact ⟨proper_of_opened (fun record hrecord => (h.proper record hrecord).1) hrecord,
      (h.proper kept (.inr hkept)).2.congr hface.symm⟩
  · obtain ⟨kept, hkept, -, hface, -⟩ := has_of_opened hrecord
    obtain ⟨offer, hoffer, hsame⟩ := h.known kept (.inr hkept)
    exact ⟨offer, hoffer, hsame.trans hface.symm⟩
  · rcases h.fence with hopened | ⟨hwithin, hterms⟩
    · rw [hopened] at hfence
      rw [← ok.inj hfence]
      exact .inl hopened
    rw [hwithin.reopen hterms] at hfence
    rw [← ok.inj hfence]
    exact .inr ⟨⟨hwithin.2, hwithin.2⟩, hterms⟩
  · obtain ⟨kept, hkept, hphase, -, -⟩ := has_of_opened hrecord
    have hkeptLive := hlive hphase hrecordLive
    have hwithin := h.within kept (.inr hkept) hkeptLive
    rw [hreread kept hkept hkeptLive]
    exact ⟨hwithin.2, hwithin.2⟩
  rintro ⟨record, hrecord, hactivated⟩
  obtain ⟨kept, hkept, hphase, -, -⟩ := has_of_opened hrecord
  have hkeptActivated : kept.phase = .activated := hphase.symm.trans hactivated
  obtain ⟨-, hfile⟩ := h.activated ⟨kept, .inr hkept, hkeptActivated⟩
  rw [hreread kept hkept (.inr hkeptActivated)]
  exact ⟨hfile, hfile⟩

end

/-! ## What a target goes on holding -/

variable {party party' : Party S}

section

variable (hwritten : party.Written edge party')
  (hedge : ∀ held record, party.memory = some held → Live held → edge party.memory record →
    Live record ∧ record.offer = held.offer)
include hwritten hedge

/-- A write over a live record that goes on with its offer leaves the target holding the offer. -/
theorem Holds.written (h : Holds party offer) : Holds party' offer := by
  obtain ⟨held, kept, hheld, hkept, hlive, hlive', hface, hface'⟩ := h
  cases hwritten with
  | same => exact ⟨held, kept, hheld, hkept, hlive, hlive', hface, hface'⟩
  | late along =>
    obtain ⟨hrecord, heq⟩ := hedge held _ hheld hlive along
    exact ⟨held, _, hheld, rfl, hlive, hrecord, hface, by rw [heq, hface]⟩
  | done along =>
    obtain ⟨hrecord, heq⟩ := hedge held _ hheld hlive along
    exact ⟨_, _, rfl, rfl, hrecord, hrecord, by rw [heq, hface], by rw [heq, hface]⟩

/-- After such a write the target holds every live offer in memory that it held, or that was
released. -/
theorem live_of_written {released : Offer S → Prop}
    (hbefore : ∀ record, party.memory = some record → Live record →
      Holds party record.offer ∨ released record.offer) (hmem : party'.memory = some record)
    (hlive : Live record) : Holds party' record.offer ∨ released record.offer := by
  cases hwritten with
  | same => exact hbefore record hmem hlive
  | late along hvalid =>
    exact (hbefore record hmem hlive).imp_left (Holds.written (.late along hvalid) hedge)
  | done along =>
    obtain rfl := some.inj hmem
    exact .inl ⟨_, _, rfl, rfl, hlive, hlive, rfl, rfl⟩

end

/-- A target that holds an offer holds it when it is opened again. -/
theorem Holds.opened (h : Holds party offer) : Holds party.opened offer := by
  obtain ⟨-, kept, -, hkept, -, hlive, -, hface⟩ := h
  exact ⟨{ kept with offer := cloneOffer kept.offer }, kept,
    by simp only [Party.opened, hkept, map_some], hkept, hlive, hlive, hface, hface⟩

theorem holds_of_opened (hmem : party.opened.memory = some record)
    (hlive : Live record) : Holds party.opened record.offer := by
  obtain ⟨kept, hkept, rfl⟩ := map_eq_some_iff.mp hmem
  exact ⟨_, kept, hmem, hkept, hlive, hlive, rfl, rfl⟩

end Bria.CoordinatorTransfer
