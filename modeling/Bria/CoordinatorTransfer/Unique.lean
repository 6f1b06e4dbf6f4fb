import Bria.CoordinatorTransfer.Moves

/-!
# There are never two coordinators

A target activates an offer only for a commit, and a source that has sent a commit holds a committed
record, in memory and in its file, from which no method leads back. So a source that can coordinate
has sent no commit, and then no target is activated.
-/

namespace Bria.CoordinatorTransfer

open Go Computer NodeLink Machine

variable {S : Type} {party party' : Party S} {edge : Option (Record S) → Record S → Prop}
  {check : Record S → Bool} {s s' : System S} {key : TargetKey}

/-! ## One party -/

/-- No write along the edge leaves a committed record for another. -/
def KeepsFixed (edge : Option (Record S) → Record S → Prop) : Prop :=
  ∀ memory record, edge memory record → Fixed memory → Fixed (some record)

/-- `Prepare` writes over no committed record. -/
theorem keepsFixed_prepare [Bundle S] (cfg : SourceConfig) (request : Request S) (now : Time) :
    KeepsFixed (PrepareEdge cfg request now) := by
  rintro memory record ⟨hidle, -⟩ ⟨current, hmem, hphase⟩
  have haborted := hidle current hmem
  rcases hphase with hphase | hphase <;> exact absurd (hphase.symm.trans haborted) (by decide)

/-- `Commit` writes over a prepared record. -/
theorem keepsFixed_commit (receipt : StageReceipt) : KeepsFixed (CommitEdge receipt (S := S)) := by
  rintro memory record ⟨offer, -, rfl, -⟩ -
  exact ⟨_, rfl, .inl rfl⟩

/-- `Abort` and `ReclaimExpired` write over a prepared record. -/
theorem keepsFixed_release : KeepsFixed (ReleaseEdge (S := S)) := by
  rintro memory record ⟨offer, rfl, -⟩ ⟨current, hmem, hphase⟩
  obtain rfl := some.inj hmem
  rcases hphase with hphase | hphase <;> cases hphase

/-- `Finalize` keeps a committed record committed. -/
theorem keepsFixed_finalize : KeepsFixed (FinalizeEdge (S := S)) := by
  rintro memory record ⟨offer, -, rfl⟩ -
  exact ⟨_, rfl, .inr rfl⟩

/-- A committed record stays one through every write, and is in the file. -/
theorem Party.Written.fixed [Bundle S] (h : party.Written edge party') (hkeeps : KeepsFixed edge)
    (hfile : Fixed party.memory → Fixed party.file) :
    (Fixed party.memory → Fixed party'.memory) ∧ (Fixed party'.memory → Fixed party'.file) := by
  cases h with
  | same => exact ⟨id, hfile⟩
  | late along => exact ⟨id, hkeeps _ _ along⟩
  | done along => exact ⟨hkeeps _ _ along, id⟩

/-- A committed record stays one when the party is opened again. -/
theorem fixed_reopen [Bundle S] (hfile : Fixed party.memory → Fixed party.file) :
    (Fixed party.memory → Fixed (party.reopen check).memory) ∧
      (Fixed (party.reopen check).memory → Fixed (party.reopen check).file) := by
  rcases reopen_cases party check with heq | ⟨hnone, heq⟩ | ⟨record, hrecord, heq⟩ <;> rw [heq]
  · exact ⟨id, hfile⟩
  · refine ⟨fun hfixed => ?_, fun hfixed => ?_⟩
    · obtain ⟨record, hrecord, -⟩ := hfile hfixed
      simp [hnone] at hrecord
    obtain ⟨record, hrecord, -⟩ := hfixed
    cases hrecord
  refine ⟨fun hfixed => ?_, fun hfixed => ?_⟩
  · obtain ⟨record', hrecord', hphase⟩ := hfile hfixed
    obtain rfl : record = record' := mem_unique hrecord hrecord'
    exact ⟨_, rfl, hphase⟩
  obtain ⟨record', hrecord', hphase⟩ := hfixed
  obtain rfl := some.inj hrecord'
  exact ⟨record, hrecord, hphase⟩

/-- The party has an activated record, in memory or in its file. -/
def Activated (party : Party S) : Prop := ∃ record, party.Has record ∧ record.phase = .activated

/-- Only a write of an activated record makes a party activated. -/
theorem Party.Written.activated [Bundle S] (h : party.Written edge party')
    (hactivated : Activated party') :
    Activated party ∨ ∃ record, edge party.memory record ∧ record.phase = .activated := by
  obtain ⟨record, hrecord, hphase⟩ := hactivated
  rcases h.has hrecord with hbefore | ⟨along, -⟩
  · exact .inl ⟨record, hbefore, hphase⟩
  · exact .inr ⟨record, along, hphase⟩

/-- Opening a party again makes nothing activated. -/
theorem activated_of_reopen [Bundle S] (h : Activated (party.reopen check)) : Activated party := by
  obtain ⟨record, hrecord, hphase⟩ := h
  rcases has_of_reopen hrecord with hbefore | ⟨kept, hkept, rfl⟩
  · exact ⟨record, hbefore, hphase⟩
  · exact ⟨kept, .inr hkept, hphase⟩

/-! ## A handover -/

/-- A snapshot of one number, by which it is known. -/
instance : Bundle Nat where
  digest := fun n => .ok (formatInt n)
  clone := id
  telegramScope := fun _ => ⟨1, 2, 3⟩
  callbackVerificationKeyID := fun _ => ofText "k"

/-- A source in its first generation. -/
def home : SourceConfig where
  term := { coordinatorID := ofText "a", generation := 1 }
  quiesce := 10 * second
  atLeast := by decide
  atMost := by decide
  whole := by decide
  generation := by decide
  bounded := by decide
  named := by decide

/-- A target. -/
def spare : TargetKey := ⟨ofText "b", ofText "c", by decide, by decide⟩

/-- Every fence holds the term of the source. -/
def fenced (_ : TargetKey) : FenceFile := ⟨home.term, home.term⟩

/-- The clock of every call. -/
def onTime : Call := { now := ⟨5 * second⟩ }

/-- The channel between the two computers. -/
def channel : ChannelIdentity := ⟨ofText "a", ofText "b", ofText "b", ofText "c", true⟩

/-- The preparation of a transfer to the target. -/
def preparing : Step Nat :=
  .prepare onTime true ⟨ofText "t", spare.id, spare.fingerprint, 7⟩
    { term := home.term, identity := channel, readinessID := ofText "r", protocolVersion := 1
      stateDigest := ofText "7", telegramReady := true, stateStorageReady := true
      telegramScope := ⟨1, 2, 3⟩, callbackVerificationKeyID := ofText "k" }

/-- The offer of the transfer. -/
def offered : Offer Nat :=
  home.offer ⟨ofText "t", spare.id, spare.fingerprint, 7⟩ (ofText "7") onTime.now

/-- A transfer from its preparation to the activation of the target. -/
def handover : List (Step Nat) :=
  [preparing,
    .stage spare onTime offered (.ok ⟨ofText "t", ofText "7"⟩),
    .commit onTime (offered.stageReceipt spare),
    .activate spare onTime offered { read := .ok (7, ⟨ofText "t", ofText "7"⟩) }]

/-! ## The system -/

/-- What relates the source to the commits that it sent, and the commits to the targets. -/
structure Single (s : System S) : Prop where
  /-- A source that has sent a commit holds a committed record. -/
  fixed : s.commits ≠ [] → Fixed s.source.memory
  /-- What is committed in memory is committed in the file. -/
  durable : Fixed s.source.memory → Fixed s.source.file
  /-- A target is activated for a commit. -/
  caused : ∀ key, Activated (s.target key).party → s.commits ≠ []

/-- A step of the source that sends no commit. -/
theorem Single.source (h : Single s)
    (hsource : (Fixed s.source.memory → Fixed s'.source.memory) ∧
      (Fixed s'.source.memory → Fixed s'.source.file)) (htarget : s'.target = s.target)
    (hcommits : s'.commits = s.commits) : Single s' where
  fixed := fun hsent => hsource.1 (h.fixed (by rwa [hcommits] at hsent))
  durable := hsource.2
  caused := by
    intro key hactivated
    rw [htarget] at hactivated
    rw [hcommits]
    exact h.caused key hactivated

/-- A step of a target that makes it activated only if there is a commit. -/
theorem Single.target (h : Single s) {target : Target S}
    (hcaused : Activated target.party → Activated (s.target key).party ∨ s.commits ≠ [])
    (hsource : s'.source = s.source) (hcommits : s'.commits = s.commits)
    (htarget : s'.target = Function.update s.target key target) : Single s' where
  fixed := by rw [hsource, hcommits]; exact h.fixed
  durable := by rw [hsource]; exact h.durable
  caused := by
    intro other hactivated
    rw [hcommits]
    rw [htarget] at hactivated
    by_cases hother : other = key
    · obtain rfl := hother
      rw [Function.update_self] at hactivated
      exact (hcaused hactivated).elim (h.caused other) id
    rw [Function.update_of_ne hother] at hactivated
    exact h.caused other hactivated

/-- Opening a target again makes nothing activated. -/
theorem activated_of_reopenTarget [Bundle S] {target : Target S}
    (h : Activated (reopenTarget key target).party) : Activated target.party := by
  unfold reopenTarget at h
  split at h
  · exact h
  · exact activated_of_reopen h

/-- Nothing is committed or activated before the first transfer. -/
theorem single_initial (fence : TargetKey → FenceFile) : Single (System.initial fence (S := S)) where
  fixed := fun h => absurd rfl h
  durable := by rintro ⟨record, hmem, -⟩; cases hmem
  caused := by rintro key ⟨record, hmem | hfile, -⟩ <;> contradiction

/-- A source with a committed record cannot coordinate. -/
theorem not_sourceCanCoordinate (h : Fixed party.memory) : sourceCanCoordinate party = false := by
  obtain ⟨⟨phase, offer⟩, hmem, hphase⟩ := h
  simp only [sourceCanCoordinate, hmem]
  rcases hphase with rfl | rfl <;> simp

/-- A target that can coordinate is activated. -/
theorem activated_of_targetCanCoordinate {target : Target S}
    (h : targetCanCoordinate target) : Activated target.party := by
  unfold targetCanCoordinate at h
  split at h
  · rename_i offer hmem
    exact ⟨_, .inl hmem, rfl⟩
  · simp at h

variable [Bundle S] [DecidableEq S]

/-- Every step keeps the relation. -/
theorem Single.step {cfg : SourceConfig} {i : Step S} (hstep : System.step cfg i s = some s')
    (h : Single s) : Single s' := by
  cases i with
  | prepare call authorized request live =>
    obtain rfl := some.inj hstep
    have hspec := (prepare_spec cfg call authorized request live s.source).1
    exact h.source (hspec.fixed (keepsFixed_prepare _ _ _) h.durable) rfl rfl
  | commit call receipt =>
    obtain ⟨-, rfl⟩ := ite_some_none_eq_some.mp hstep
    obtain ⟨hspec, hanswer⟩ := commit_spec call receipt s.source
    have hfixed := hspec.fixed (keepsFixed_commit receipt) h.durable
    refine ⟨fun hsent => ?_, hfixed.2, fun key hactivated => ?_⟩
    · -- Either this call has answered with a commit, or an earlier one has.
      cases hresult : (commit call receipt s.source).1 with
      | ok offer =>
        obtain ⟨record, hmem, hphase, -⟩ := hanswer offer hresult
        exact ⟨record, hmem, hphase⟩
      | error e =>
        simp only [hresult, sends] at hsent
        exact hfixed.1 (h.fixed hsent)
    have hsent := h.caused key hactivated
    cases hresult : (commit call receipt s.source).1 with
    | ok offer => simp [sends]
    | error e => simpa only [sends, hresult] using hsent
  | abort call receipt fenceValid =>
    obtain ⟨-, rfl⟩ := ite_some_none_eq_some.mp hstep
    have hspec := abort_spec call receipt fenceValid s.source
    exact h.source (hspec.fixed keepsFixed_release h.durable) rfl rfl
  | reclaimExpired call fenceValid =>
    obtain rfl := some.inj hstep
    have hspec := reclaimExpired_spec call fenceValid s.source
    exact h.source (hspec.fixed keepsFixed_release h.durable) rfl rfl
  | finalize call activation =>
    obtain ⟨-, rfl⟩ := ite_some_none_eq_some.mp hstep
    have hspec := finalize_spec call activation s.source
    exact h.source (hspec.fixed keepsFixed_finalize h.durable) rfl rfl
  | reopenSource =>
    obtain rfl := some.inj hstep
    exact h.source (fixed_reopen h.durable) rfl rfl
  | stage key call offer staged =>
    obtain ⟨-, rfl⟩ := ite_some_none_eq_some.mp hstep
    refine h.target (fun hactivated => .inl ?_) rfl rfl rfl
    rcases stage_spec call key offer staged (s.target key) with ⟨hsame, -⟩ | ⟨-, -, hspec, -⟩
    · rwa [hsame] at hactivated
    rcases hspec.1.activated hactivated with hbefore | ⟨record, ⟨⟨-, rfl⟩, -⟩, hphase⟩
    · exact hbefore
    · cases hphase
  | activate key call offer outside =>
    obtain ⟨hsent, rfl⟩ := ite_some_none_eq_some.mp hstep
    exact h.target (fun _ => .inr (List.ne_nil_of_mem hsent)) rfl rfl rfl
  | abortTarget key call offer identity =>
    obtain ⟨-, rfl⟩ := ite_some_none_eq_some.mp hstep
    refine h.target (fun hactivated => .inl ?_) rfl rfl rfl
    rcases abortTarget_spec call key offer identity (s.target key) with hsame | ⟨-, -, hspec⟩
    · rwa [hsame] at hactivated
    rcases hspec.1.activated hactivated with hbefore | ⟨record, ⟨-, rfl⟩, hphase⟩
    · exact hbefore
    · cases hphase
  | reopenTarget key =>
    obtain rfl := some.inj hstep
    exact h.target (fun hactivated => .inl (activated_of_reopenTarget hactivated)) rfl rfl rfl

/-! ## The theorem -/

/-- At no moment of any run can both the source and one of its targets coordinate. -/
theorem no_two_coordinators (cfg : SourceConfig) (fence : TargetKey → FenceFile)
    (run : List (Step S)) (s : System S)
    (hrun : exec (System.step cfg) run (System.initial fence) = some s) (key : TargetKey) :
    ¬ (sourceCanCoordinate s.source ∧ targetCanCoordinate (s.target key)) := by
  have hsingle : Single s :=
    exec_invariant (fun i s s' hstep h => h.step hstep) hrun (single_initial fence)
  rintro ⟨hsource, htarget⟩
  have hsent := hsingle.caused key (activated_of_targetCanCoordinate htarget)
  have hfixed := hsingle.fixed hsent
  rw [not_sourceCanCoordinate hfixed] at hsource
  cases hsource

/-- After the transfer the target coordinates, and the source does not. -/
theorem handover_single :
    ∃ s, exec (System.step home) handover (System.initial fenced) = some s ∧
      targetCanCoordinate (s.target spare) ∧
      ¬ (sourceCanCoordinate s.source ∧ targetCanCoordinate (s.target spare)) :=
  ⟨_, rfl, by decide, no_two_coordinators home fenced handover _ rfl spare⟩

end Bria.CoordinatorTransfer
