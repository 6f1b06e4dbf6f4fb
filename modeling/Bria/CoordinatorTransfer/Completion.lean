import Bria.CoordinatorTransfer.Keeping

/-!
# A committed transfer and its target

`Commit` believes a stage receipt, but the target may have aborted the offer since it sent the
receipt. Then the source is committed to a transfer that its target refuses, and no machine can
coordinate (`abandoned`). A receipt is also believed for a second offer under the same id.

A run is orderly if a target aborts a staged offer only after the source has released it, and the
source uses every id for one offer. Then the target of a committed offer holds it, and can activate
it (`committed_completes`).
-/

namespace Bria.CoordinatorTransfer

open Go Computer NodeLink Machine CoordinatorTransfer.System Function

variable {S : Type} [Bundle S] {cfg : SourceConfig} {offer : Offer S} {source : Party S}
  {offers : List (Offer S)} {edge : Option (Record S) → Record S → Prop}

/-! ## The system -/

/-- What the steps keep if targets abort staged offers only after the source has released them. -/
structure Kept (cfg : SourceConfig) (s : System S) : Prop where
  source : SourceKept cfg s.source s.offers
  target : ∀ key, TargetKept cfg key s.offers (s.target key)
  /-- A target holds what it has staged, as long as the source wants it to. -/
  live : ∀ key record, (s.target key).party.memory = some record → Live record →
    Holds (s.target key).party record.offer ∨ Released s.source record.offer
  /-- A receipt is for an offer that its target holds, as long as the source wants it to. -/
  receipts : ∀ receipt ∈ s.receipts, ∃ offer ∈ s.offers, ∃ key, receipt = offer.stageReceipt key ∧
    For key offer ∧ (Holds (s.target key).party offer ∨ Released s.source offer)
  /-- The target of a committed offer holds it. -/
  committed : ∀ record, s.source.Has record → Fixed (some record) →
    ∃ key, For key record.offer ∧ Holds (s.target key).party record.offer

variable {s s' : System S}

theorem Kept.sourceStep (h : Kept cfg s) (hsource : SourceKept cfg s'.source s'.offers)
    (hoffers : ∀ offer ∈ s.offers, offer ∈ s'.offers)
    (hreleased : ∀ offer ∈ s.offers, Released s.source offer → Released s'.source offer)
    (hcommitted : ∀ record, s'.source.Has record → Fixed (some record) →
      ∃ key, For key record.offer ∧ Holds (s.target key).party record.offer)
    (htarget : s'.target = s.target) (hreceipts : s'.receipts = s.receipts) : Kept cfg s' where
  source := hsource
  target := by
    intro key
    rw [htarget]
    exact (h.target key).mono hoffers
  live := by
    intro key record hmem hlive
    rw [htarget] at hmem ⊢
    refine (h.live key record hmem hlive).imp_right fun hrecord => ?_
    obtain ⟨offer, hoffer, hface⟩ := (h.target key).known record (.inl hmem)
    exact (hreleased offer hoffer (hrecord.congr hface.symm)).congr hface
  receipts := by
    intro receipt hreceipt
    rw [hreceipts] at hreceipt
    obtain ⟨offer, hoffer, key, heq, hkey, hholds⟩ := h.receipts receipt hreceipt
    refine ⟨offer, hoffers offer hoffer, key, heq, hkey, ?_⟩
    rw [htarget]
    exact hholds.imp_right (hreleased offer hoffer)
  committed := by
    rw [htarget]
    exact hcommitted

theorem Kept.targetStep (h : Kept cfg s) {key : TargetKey} {target : Target S}
    (htarget : TargetKept cfg key s.offers target)
    (hholds : ∀ offer, Holds (s.target key).party offer →
      Holds target.party offer ∨ Released s.source offer)
    (hlive : ∀ record, target.party.memory = some record → Live record →
      Holds target.party record.offer ∨ Released s.source record.offer)
    (hreceipts : ∀ receipt ∈ s'.receipts, receipt ∈ s.receipts ∨ ∃ offer ∈ s.offers,
      receipt = offer.stageReceipt key ∧ For key offer ∧
        (Holds target.party offer ∨ Released s.source offer))
    (hsource : s'.source = s.source) (hoffers : s'.offers = s.offers)
    (hupdate : s'.target = update s.target key target) : Kept cfg s' := by
  have hothers : ∀ other offer, Holds (s.target other).party offer →
      Holds (s'.target other).party offer ∨ Released s.source offer := by
    intro other offer hoffer
    rw [hupdate]
    by_cases hother : other = key
    · obtain rfl := hother
      rw [update_self]
      exact hholds offer hoffer
    rw [update_of_ne hother]
    exact .inl hoffer
  refine ⟨by rw [hsource, hoffers]; exact h.source, fun other => ?_,
    fun other record hmem hrecord => ?_,
    fun receipt hreceipt => ?_, fun record hrecord hfixed => ?_⟩
  · rw [hupdate, hoffers]
    by_cases hother : other = key
    · obtain rfl := hother
      rw [update_self]
      exact htarget
    rw [update_of_ne hother]
    exact h.target other
  · rw [hupdate] at hmem ⊢
    rw [hsource]
    by_cases hother : other = key
    · obtain rfl := hother
      rw [update_self] at hmem ⊢
      exact hlive record hmem hrecord
    rw [update_of_ne hother] at hmem ⊢
    exact h.live other record hmem hrecord
  · rw [hsource, hoffers]
    rcases hreceipts receipt hreceipt with hbefore | ⟨offer, hoffer, heq, hkey, hnew⟩
    · obtain ⟨offer, hoffer, other, heq, hkey, hholds | hreleased⟩ := h.receipts receipt hbefore
      · exact ⟨offer, hoffer, other, heq, hkey, hothers other offer hholds⟩
      · exact ⟨offer, hoffer, other, heq, hkey, .inr hreleased⟩
    refine ⟨offer, hoffer, key, heq, hkey, ?_⟩
    rw [hupdate, update_self]
    exact hnew
  rw [hsource] at hrecord
  obtain ⟨other, hkey, hbefore⟩ := h.committed record hrecord hfixed
  refine ⟨other, hkey, (hothers other _ hbefore).resolve_right ?_⟩
  exact not_released hrecord (ne_aborted_of_fixed hfixed) rfl

/-- What is asked of a step: a new offer has an id that no offer had and texts that a file gives
back, and a target aborts a staged offer only after the source has released it. -/
def Orderly : Step S → System S → Prop
  | .prepare _ _ request _, s =>
    jsonText request.targetID = request.targetID ∧
      jsonText request.targetFingerprint = request.targetFingerprint ∧
      (Idle s.source.memory → ∀ offer ∈ s.offers, offer.id ≠ request.id)
  | .abortTarget key _ _ _, s =>
    ∀ offer, (s.target key).party.memory = some ⟨.staged, offer⟩ → Released s.source offer
  | _, _ => True

/-- A step of the source that goes on with its offer, sends nothing, and commits nothing that was
not committed. -/
theorem Kept.advance (h : Kept cfg s) {source : Party S} (hwritten : s.source.Written edge source)
    (hedge : ∀ record, edge s.source.memory record → Continues s.source.memory record ∧
      (Fixed (some record) → ∃ key, For key record.offer ∧ Holds (s.target key).party record.offer))
    (hsource : s'.source = source) (hoffers : s'.offers = s.offers)
    (htarget : s'.target = s.target) (hreceipts : s'.receipts = s.receipts) : Kept cfg s' := by
  refine h.sourceStep ?_ ?_ ?_ ?_ htarget hreceipts
  · rw [hsource, hoffers]
    exact h.source.written hwritten fun record along => .inl (hedge record along).1
  · rw [hoffers]
    exact fun _ => id
  · rw [hsource]
    intro offer hoffer
    have hcontinues : ∀ record, edge s.source.memory record →
        Continues s.source.memory record ∨ Begins cfg s.offers s.source.memory record :=
      fun record along => .inl (hedge record along).1
    exact released_of_written hwritten hcontinues hoffer
  rw [hsource]
  intro record hrecord hfixed
  rcases hwritten.has hrecord with hbefore | ⟨along, -⟩
  · exact h.committed record hbefore hfixed
  · exact (hedge record along).2 hfixed

/-- `Commit` keeps it: the receipt is for the offer that is prepared, and its target holds it. -/
theorem Kept.commit (h : Kept cfg s) {receipt : StageReceipt} (hreceipt : receipt ∈ s.receipts)
    {record : Record S} (along : CommitEdge receipt s.source.memory record) :
    Continues s.source.memory record ∧
      ∃ key, For key record.offer ∧ Holds (s.target key).party record.offer := by
  obtain ⟨offer, hmem, rfl, hmatches⟩ := along
  refine ⟨⟨by simp [Live], _, hmem, rfl, nofun⟩, ?_⟩
  obtain ⟨sent, hsent, key, rfl, hkey, hholds⟩ := h.receipts receipt hreceipt
  have hid : sent.id = offer.id := by
    simp only [StageReceipt.matches, and_eq_true] at hmatches
    exact of_decide_eq_true hmatches.1.1
  have hface : offer.face = sent.face := h.source.agree sent hsent _ (.inl hmem) hid.symm
  have hwanted : ¬ Released s.source sent := not_released (.inl hmem) nofun hface
  exact ⟨key, hkey.congr hface.symm, (hholds.resolve_right hwanted).congr hface.symm⟩

/-- `Activate` keeps it: it goes on with the offer that is staged. -/
theorem Kept.activate (h : Kept cfg s) (key : TargetKey) (call : Call) (offer : Offer S)
    (outside : Activating S) (hsource : s'.source = s.source) (hoffers : s'.offers = s.offers)
    (hreceipts : s'.receipts = s.receipts)
    (hupdate : s'.target = update s.target key
      (CoordinatorTransfer.activate call offer outside (s.target key)).2) : Kept cfg s' := by
  have hwritten : (s.target key).party.Written (ActivateEdge offer)
      (CoordinatorTransfer.activate call offer outside (s.target key)).2.party := by
    rcases activate_spec call offer outside (s.target key) with hsame | ⟨_, -, -, -, hparty⟩
    · rw [hsame]
      exact .same
    rcases hparty with hsame | ⟨-, hwritten⟩
    · rw [hsame]
      exact .same
    · exact hwritten
  have hedge : ∀ held record, (s.target key).party.memory = some held → Live held →
      ActivateEdge offer (s.target key).party.memory record →
      Live record ∧ record.offer = held.offer := by
    rintro held record hmem - ⟨current, hcurrent, rfl, -⟩
    obtain rfl := mem_unique hmem hcurrent
    exact ⟨.inr rfl, rfl⟩
  refine h.targetStep ((h.target key).activate call offer outside)
    (fun other hother => .inl (hother.written hwritten hedge))
    (fun record => live_of_written hwritten hedge (h.live key)) ?_ hsource hoffers hupdate
  rw [hreceipts]
  exact fun receipt hreceipt => .inl hreceipt

/-- Before the first transfer there is nothing to keep but the fences. -/
theorem kept_initial {fence : TargetKey → FenceFile}
    (hfence : ∀ key, (fence key).reopen = .ok (fence key)) : Kept cfg (initial fence (S := S)) := by
  have hnone : ∀ record : Record S, ¬ Party.Has ⟨true, none, none⟩ record := by
    rintro record (h | h) <;> cases h
  refine ⟨⟨rfl, fun record h => (hnone record h).elim, fun record h => (hnone record h).elim, nofun,
    nofun, nofun⟩, fun key => ?_, nofun,
    nofun, fun record h => (hnone record h).elim⟩
  exact ⟨rfl, fun record h => (hnone record h).elim, fun record h => (hnone record h).elim,
    .inl (hfence key), fun record h => (hnone record h).elim,
    fun ⟨record, h, _⟩ => (hnone record h).elim⟩

/-- A source that is not committed coordinates, or can reclaim its offer once it has expired. -/
def Recovers (source : Party S) : Prop :=
  sourceCanCoordinate source ∨
    ∃ offer, source.memory = some ⟨.prepared, offer⟩ ∧
      ∀ call : Call, call.cancelled = false → call.write = .done →
        offer.quiesceUntil.nanos ≤ call.now.nanos →
        (reclaimExpired call true source).1 = .ok () ∧
          sourceCanCoordinate (reclaimExpired call true source).2

/-- A source that is not committed recovers. -/
theorem SourceKept.recovers (h : SourceKept cfg source offers) (hfixed : ¬ Fixed source.memory) :
    Recovers source := by
  rcases hmem : source.memory with _ | record
  · exact .inl (by simp [sourceCanCoordinate, h.up, hmem])
  obtain ⟨phase, offer⟩ := record
  have hown := h.own _ (.inl hmem)
  have hproper := h.proper _ (.inl hmem)
  cases phase with
  | aborted => exact .inl (by simp [sourceCanCoordinate, h.up, hmem])
  | staged => exact absurd (.inl rfl) hown
  | activated => exact absurd (.inr rfl) hown
  | committed => exact absurd ⟨_, hmem, .inl rfl⟩ hfixed
  | finalized => exact absurd ⟨_, hmem, .inr rfl⟩ hfixed
  | prepared =>
    refine .inr ⟨offer, hmem, fun call hcancelled hwrite hexpired => ?_⟩
    have hlate : ¬ call.now.nanos < offer.quiesceUntil.nanos := by omega
    have hreclaim : reclaimExpired call true source =
        source.writeThen .done ⟨.aborted, offer⟩ () := by
      simp only [reclaimExpired, h.up, hcancelled, hmem, hlate, hwrite, Bool.not_true,
        Bool.or_self, false_eq_true, decide_false, ↓reduceIte]
    have hvalid : validOffer (Record.mk .aborted offer).offer := hproper.valid
    rw [hreclaim, writeThen_done hvalid]
    exact ⟨rfl, by simp [sourceCanCoordinate, h.up]⟩

variable [LawfulBundle S]

/-- `Prepare` keeps it: its offer is new, or the one that is prepared. -/
theorem Kept.prepare (hcoordinator : jsonText cfg.term.coordinatorID = cfg.term.coordinatorID)
    (h : Kept cfg s) (call : Call) (authorized : Bool) (request : Request S) (live : LiveReceipt)
    (horderly : Orderly (.prepare call authorized request live) s)
    (hsource : s'.source = (CoordinatorTransfer.prepare cfg call authorized request live s.source).2)
    (hoffers : s'.offers = sends
      (CoordinatorTransfer.prepare cfg call authorized request live s.source).1 s.offers)
    (hreceipts : s'.receipts = s.receipts) (htarget : s'.target = s.target) : Kept cfg s' := by
  obtain ⟨hid, hfingerprint, hfresh⟩ := horderly
  obtain ⟨hwritten, hanswer⟩ := prepare_spec cfg call authorized request live s.source
  rw [← hsource] at hwritten hanswer
  have hbegins : ∀ record, PrepareEdge cfg request call.now s.source.memory record →
      Begins cfg s.offers s.source.memory record := by
    rintro record ⟨hidle, digest, rfl⟩
    exact ⟨by simp [Live], hidle, proper_offer hcoordinator hid hfingerprint, hfresh hidle⟩
  have hkept := h.source.written hwritten fun record along => .inr (hbegins record along)
  refine h.sourceStep ?_ ?_ ?_ ?_ htarget hreceipts
  · rw [hoffers]
    cases hresult : (CoordinatorTransfer.prepare cfg call authorized request live s.source).1 with
    | error e => exact hkept
    | ok offer =>
      obtain ⟨current, hmem, rfl⟩ := hanswer offer hresult
      exact hkept.sends hmem
  · intro offer hoffer
    rw [hoffers]
    cases (CoordinatorTransfer.prepare cfg call authorized request live s.source).1 with
    | error e => exact hoffer
    | ok sent => exact mem_cons_of_mem sent hoffer
  · intro offer hoffer
    exact released_of_written hwritten (fun record along => .inr (hbegins record along)) hoffer
  intro record hrecord hfixed
  rcases hwritten.has hrecord with hbefore | ⟨⟨-, digest, rfl⟩, -⟩
  · exact h.committed record hbefore hfixed
  obtain ⟨record, heq, hphase⟩ := hfixed
  obtain rfl := some.inj heq
  rcases hphase with hphase | hphase <;> cases hphase

/-- `Stage` keeps it: a receipt is sent for an offer that is staged. -/
theorem Kept.stage (h : Kept cfg s) (key : TargetKey) (call : Call)
    (staged : Except Err SnapshotReceipt)
    (hoffer : offer ∈ s.offers) (hsource : s'.source = s.source) (hoffers : s'.offers = s.offers)
    (hreceipts : s'.receipts =
      sends (CoordinatorTransfer.stage call key offer staged (s.target key)).1 s.receipts)
    (hupdate : s'.target = update s.target key
      (CoordinatorTransfer.stage call key offer staged (s.target key)).2) : Kept cfg s' := by
  have hspec := stage_spec call key offer staged (s.target key)
  generalize CoordinatorTransfer.stage call key offer staged (s.target key) = done
    at hreceipts hupdate hspec
  obtain ⟨result, target⟩ := done
  rcases hspec with ⟨rfl, hfails⟩ | ⟨hid, hfingerprint, hwritten, hanswer⟩
  · refine h.targetStep (h.target key) (fun _ => .inl) (h.live key) ?_ hsource hoffers hupdate
    rw [hreceipts]
    cases result with
    | ok sent => exact absurd rfl (hfails sent)
    | error e => exact fun receipt hreceipt => .inl hreceipt
  have hproper := h.source.sent offer hoffer
  have hkey : For key offer := ⟨hid, hfingerprint⟩
  have hkept : TargetKept cfg key s.offers target := by
    refine (h.target key).written hwritten hoffer hproper hkey ?_
    rintro record ⟨⟨-, rfl⟩, hfence⟩
    refine ⟨rfl, .inr ⟨rfl, ?_⟩⟩
    -- The fence holds the term of the source when the offer is staged.
    rw [hproper.source] at hfence
    rcases (h.target key).fence with hopened | ⟨hwithin, -⟩
    · exact FenceFile.within_of_validate hopened hfence
    · exact hwithin
  have hedge : ∀ held record, (s.target key).party.memory = some held → Live held →
      (StageEdge offer (s.target key).party.memory record ∧
        (s.target key).fence.validate offer.source = .ok ()) →
      Live record ∧ record.offer = held.offer := by
    rintro held record hmem hlive ⟨⟨hidle, -⟩, -⟩
    exact absurd hidle (not_idle_of_live hmem hlive)
  have hlive : ∀ record, target.party.memory = some record → Live record →
      Holds target.party record.offer ∨ Released s.source record.offer :=
    fun record => live_of_written hwritten.1 hedge (h.live key)
  refine h.targetStep hkept (fun other hother => .inl (hother.written hwritten.1 hedge)) hlive ?_
    hsource hoffers hupdate
  intro receipt hreceipt
  rw [hreceipts] at hreceipt
  rcases result with e | sent
  · exact .inl hreceipt
  obtain ⟨rfl, current, hmem, hsame⟩ := hanswer sent rfl
  rcases mem_cons.mp hreceipt with rfl | hreceipt
  · have hface : current.face = offer.face := sameOffer_iff.mp hsame
    refine .inr ⟨offer, hoffer, rfl, hkey, ?_⟩
    exact (hlive _ hmem (.inl rfl)).imp (·.congr hface) (·.congr hface)
  · exact .inl hreceipt

/-- `Abort` of a target keeps it, if the source has released what is staged. -/
theorem Kept.abortTarget (h : Kept cfg s) (key : TargetKey) (call : Call)
    (identity : ChannelIdentity) (hoffer : offer ∈ s.offers)
    (horderly : Orderly (.abortTarget key call offer identity) s)
    (hsource : s'.source = s.source) (hoffers : s'.offers = s.offers)
    (hreceipts : s'.receipts = s.receipts)
    (hupdate : s'.target = update s.target key
      (CoordinatorTransfer.abortTarget call key offer identity (s.target key)).2) : Kept cfg s' := by
  have hspec := abortTarget_spec call key offer identity (s.target key)
  generalize (CoordinatorTransfer.abortTarget call key offer identity (s.target key)).2 = target
    at hupdate hspec
  have hsame : ∀ receipt ∈ s'.receipts, receipt ∈ s.receipts ∨ ∃ offer ∈ s.offers,
      receipt = offer.stageReceipt key ∧ For key offer ∧
        (Holds target.party offer ∨ Released s.source offer) := by
    rw [hreceipts]
    exact fun receipt hreceipt => .inl hreceipt
  rcases hspec with rfl | ⟨hid, hfingerprint, hwritten⟩
  · exact h.targetStep (h.target key) (fun _ => .inl) (h.live key) hsame hsource hoffers hupdate
  have hkept : TargetKept cfg key s.offers target := by
    refine (h.target key).written hwritten hoffer (h.source.sent offer hoffer)
      ⟨hid, hfingerprint⟩ ?_
    rintro record ⟨-, rfl⟩
    exact ⟨rfl, .inl rfl⟩
  by_cases hstaged : ∃ current, (s.target key).party.memory = some ⟨.staged, current⟩
  · -- What the target may lose is released.
    obtain ⟨current, hmem⟩ := hstaged
    have hreleased := horderly current hmem
    refine h.targetStep hkept (fun other hother => .inr ?_) (fun record hrecord hlive => .inr ?_)
      hsame hsource hoffers hupdate
    · obtain ⟨held, -, hheld, -, -, -, hface, -⟩ := hother
      obtain rfl := mem_unique hmem hheld
      exact hreleased.congr hface
    rcases hwritten.1.memory hrecord with hbefore | ⟨-, rfl⟩
    · obtain rfl := mem_unique hmem hbefore
      exact hreleased
    · rcases hlive with hlive | hlive <;> cases hlive
  · have hedge : ∀ held record, (s.target key).party.memory = some held → Live held →
        AbortEdge offer (s.target key).party.memory record →
        Live record ∧ record.offer = held.offer := by
      rintro ⟨phase, current⟩ record hmem - ⟨honly, -⟩
      obtain rfl : phase = .staged := honly _ hmem
      exact absurd ⟨current, hmem⟩ hstaged
    exact h.targetStep hkept (fun other hother => .inl (hother.written hwritten.1 hedge))
      (fun record => live_of_written hwritten.1 hedge (h.live key)) hsame hsource hoffers hupdate

theorem Kept.reopenTarget (h : Kept cfg s) (key : TargetKey) (hsource : s'.source = s.source)
    (hoffers : s'.offers = s.offers) (hreceipts : s'.receipts = s.receipts)
    (hupdate : s'.target = update s.target key
      (CoordinatorTransfer.reopenTarget key (s.target key))) : Kept cfg s' := by
  have hkept := (h.target key).reopen
  obtain ⟨fence, heq, -⟩ := (h.target key).reopenTarget_eq
  rw [heq] at hupdate hkept
  refine h.targetStep hkept (fun other hother => .inl hother.opened)
    (fun record hmem hlive => .inl (holds_of_opened hmem hlive)) ?_ hsource hoffers hupdate
  rw [hreceipts]
  exact fun receipt hreceipt => .inl hreceipt

variable [DecidableEq S]

theorem Kept.step (hcoordinator : jsonText cfg.term.coordinatorID = cfg.term.coordinatorID)
    {i : Step S} (horderly : Orderly i s) (hstep : step cfg i s = some s')
    (h : Kept cfg s) : Kept cfg s' := by
  cases i with
  | prepare call authorized request live =>
    obtain rfl := some.inj hstep
    exact h.prepare hcoordinator call authorized request live horderly rfl rfl rfl rfl
  | commit call receipt =>
    obtain ⟨hreceipt, rfl⟩ := ite_some_none_eq_some.mp hstep
    exact h.advance (commit_spec call receipt s.source).1
      (fun record along => (h.commit hreceipt along).imp_right fun hheld _ => hheld) rfl rfl rfl rfl
  | abort call receipt fenceValid =>
    obtain ⟨-, rfl⟩ := ite_some_none_eq_some.mp hstep
    exact h.advance (abort_spec call receipt fenceValid s.source) (fun _ => release_edge) rfl rfl rfl
      rfl
  | reclaimExpired call fenceValid =>
    obtain rfl := some.inj hstep
    exact h.advance (reclaimExpired_spec call fenceValid s.source) (fun _ => release_edge) rfl rfl rfl
      rfl
  | finalize call activation =>
    obtain ⟨-, rfl⟩ := ite_some_none_eq_some.mp hstep
    refine h.advance (finalize_spec call activation s.source) ?_ rfl rfl rfl rfl
    rintro record ⟨offer, hmem, rfl⟩
    exact ⟨⟨by simp [Live], _, hmem, rfl, nofun⟩,
      fun _ => h.committed ⟨.committed, offer⟩ (.inl hmem) ⟨_, rfl, .inl rfl⟩⟩
  | reopenSource =>
    obtain rfl := some.inj hstep
    refine h.sourceStep h.source.reopen (fun _ => id)
      (fun offer _ => h.source.released_reopen) ?_ rfl rfl
    intro record hrecord hfixed
    rw [h.source.reopenSource_eq] at hrecord
    obtain ⟨kept, hkept, hphase, hface, -⟩ := has_of_opened hrecord
    have hkeptFixed : Fixed (some kept) := by
      obtain ⟨record', heq, hrecord'⟩ := hfixed
      obtain rfl := some.inj heq
      exact ⟨kept, rfl, by rwa [← hphase]⟩
    obtain ⟨key, hkey, hholds⟩ := h.committed kept (.inr hkept) hkeptFixed
    exact ⟨key, hkey.congr hface.symm, hholds.congr hface.symm⟩
  | stage key call offer staged =>
    obtain ⟨hoffer, rfl⟩ := ite_some_none_eq_some.mp hstep
    exact h.stage key call staged hoffer rfl rfl rfl rfl
  | activate key call offer outside =>
    obtain ⟨-, rfl⟩ := ite_some_none_eq_some.mp hstep
    exact h.activate key call offer outside rfl rfl rfl rfl
  | abortTarget key call offer identity =>
    obtain ⟨hoffer, rfl⟩ := ite_some_none_eq_some.mp hstep
    exact h.abortTarget key call identity hoffer horderly rfl rfl rfl rfl
  | reopenTarget key =>
    obtain rfl := some.inj hstep
    exact h.reopenTarget key rfl rfl rfl rfl

/-- In a run of orderly steps, the target of an offer that the source has committed or finalized has
it staged or activated, and if it is given the commit and nothing outside fails, it activates the
offer and coordinates. As long as
nothing is committed, the source coordinates, or can reclaim its offer. -/
theorem committed_completes (cfg : SourceConfig) (fence : TargetKey → FenceFile)
    (hcoordinator : jsonText cfg.term.coordinatorID = cfg.term.coordinatorID)
    (hfence : ∀ key, (fence key).reopen = .ok (fence key)) (run : List (Step S)) (s : System S)
    (horderly : Along (step cfg) Orderly run (initial fence))
    (hrun : exec (step cfg) run (initial fence) = some s) :
    (∀ phase offer, s.source.memory = some ⟨phase, offer⟩ → Fixed s.source.memory →
      ∃ key current, For key offer ∧ sameOffer current offer ∧
        ((s.target key).party.memory = some ⟨.staged, current⟩ ∨
          (s.target key).party.memory = some ⟨.activated, current⟩) ∧
        ∀ call outside, Unhindered offer call outside →
          (activate call (cloneOffer offer) outside (s.target key)).1 =
              .ok ⟨offer.id, offer.target⟩ ∧
            targetCanCoordinate (activate call (cloneOffer offer) outside (s.target key)).2) ∧
      (¬ Fixed s.source.memory → Recovers s.source) := by
  have hkept : Kept cfg s :=
    exec_keeps (fun i s s' hi hstep h => h.step hcoordinator hi hstep) horderly hrun
      (kept_initial hfence)
  refine ⟨fun phase offer hmem hfixed => ?_, hkept.source.recovers⟩
  obtain ⟨key, hkey, hholds⟩ := hkept.committed _ (.inl hmem) (hmem ▸ hfixed)
  obtain ⟨⟨phase, current⟩, -, hcurrent, -, hlive, -, hface, -⟩ := id hholds
  refine ⟨key, current, hkey, sameOffer_iff.mpr hface, ?_, fun call outside houtside =>
    (hkept.target key).activates hholds houtside⟩
  rcases hlive with hphase | hphase
  · obtain rfl : phase = .staged := hphase
    exact .inl hcurrent
  obtain rfl : phase = .activated := hphase
  exact .inr hcurrent

instance : LawfulBundle Nat where
  digest_clone := fun _ => rfl
  digest_text := by
    intro n d h
    obtain rfl := ok.inj h
    exact (jsonText_eq_self_iff _).mpr (validString_of_ascii fun _ => ascii_formatInt_natCast)

/-- The target of the committed offer in the handover has it staged. -/
theorem handover_completes :
    ∃ s, exec (step home) (handover.take 3) (initial fenced) = some s ∧
      s.source.memory = some ⟨.committed, offered⟩ ∧
      ∃ key current, For key offered ∧ sameOffer current offered ∧
        ((s.target key).party.memory = some ⟨.staged, current⟩ ∨
          (s.target key).party.memory = some ⟨.activated, current⟩) := by
  have horderly : Along (step home) Orderly (handover.take 3) (initial fenced) :=
    along_intro ⟨by decide, by decide, nofun⟩ fun _ _ =>
      along_intro trivial fun _ _ => along_intro trivial fun _ _ => trivial
  refine ⟨_, rfl, rfl, ?_⟩
  obtain ⟨key, current, hkey, hsame, hphase, -⟩ :=
    (committed_completes home fenced (by decide) (fun _ => rfl) (handover.take 3) _ horderly rfl).1
      .committed offered rfl ⟨_, rfl, .inl rfl⟩
  exact ⟨key, current, hkey, hsame, hphase⟩

/-! ## A transfer that is lost -/

/-- The target aborts the offer while its stage receipt is on the way to the source. -/
def lost : List (Step Nat) :=
  [preparing,
    .stage spare onTime offered (.ok ⟨ofText "t", ofText "7"⟩),
    .abortTarget spare onTime offered channel,
    .commit onTime (offered.stageReceipt spare)]

/-- The source is committed to an offer that its target has aborted: no activation succeeds, and
neither can coordinate. -/
theorem abandoned :
    ∃ s, exec (step home) lost (initial fenced) = some s ∧
      s.source.memory = some ⟨.committed, offered⟩ ∧
      (s.target spare).party.memory = some ⟨.aborted, offered⟩ ∧
      (∀ call outside, ∃ e, (activate call offered outside (s.target spare)).1 = .error e) ∧
      sourceCanCoordinate s.source = false ∧ targetCanCoordinate (s.target spare) = false := by
  refine ⟨_, rfl, rfl, rfl, ?_, rfl, rfl⟩
  rintro ⟨_ | _, now, write⟩ outside <;> exact ⟨_, rfl⟩

end Bria.CoordinatorTransfer
