import Bria.Base.Machine
import Bria.Domain.Moves

/-!
# Sessions that can be restored

`RestoreSession` checks a snapshot: the texts, the instants and the deadline (`Timed`), and what the
status requires of binding and recovery target. Not every state that a transition produces passes:

* a session with legacy timestamps has no creation time, and `RestoreSession` wants one as soon as
  a transition has set the time of the last change;
* an archived session has no deadline and a resuming one neither, but `AwaitRecoveryAt` takes the
  session from there to a status in which the deadline is checked;
* `BeginClose` closes a session that awaits its first start and has no binding, and a closing
  session must have one.

These are the only cases (`restorable_iff_admissible`).
-/

namespace Bria.Domain

open Go Machine Session SessionStatus

/-! ## What `RestoreSession` checks -/

/-- The fields that no transition at an instant changes, but for the creation time. -/
def Session.face (s : Session) :
    GoString × GoString × GoString × Provider × GoString × GoString × SessionNameSource × GoString ×
      GoString :=
  (s.id, s.intentID, s.computerID, s.provider, s.workdir, s.name, s.nameSource, s.model, s.effort)

/-- A session that `RestoreSession` gives back as it is. -/
def Sound (s : Session) : Prop := restoreSession s.snapshot = .ok s

/-- A session whose snapshot is restored to an equal session. -/
def Restorable (s : Session) : Prop :=
  ∃ restored, restoreSession s.snapshot = .ok restored ∧ restored.equal s

variable {s next : Session} {at_ : Time}

theorem restoreSession_eq_ok {restored : Session} :
    restoreSession s = .ok restored ↔
      validateModelPreferences s.model s.effort = .ok () ∧ blank s.id = false ∧
      validateSessionIntent s.intentID s.computerID s.provider s.workdir = .ok () ∧
      ∃ source, restoreName s = .ok source ∧
        restored = { s with nameSource := source, recoveryTarget := restoreTarget s } ∧
        validateLifecycleSnapshot restored = .ok () ∧ validateStatus restored = .ok () := by
  constructor
  · intro h
    obtain ⟨hpreferences, h⟩ := check_eq_ok.mp h
    obtain ⟨hid, h⟩ := check_eq_ok.mp h
    obtain ⟨hintent, h⟩ := check_eq_ok.mp h
    obtain ⟨source, hsource, h⟩ := bind_eq_ok.mp h
    obtain ⟨hlifecycle, h⟩ := check_eq_ok.mp h
    obtain ⟨hstatus, h⟩ := check_eq_ok.mp h
    obtain rfl := ok.inj h
    exact ⟨hpreferences, refuse_eq_ok.mp hid, hintent, source, hsource, rfl, hlifecycle, hstatus⟩
  · rintro ⟨hpreferences, hid, hintent, source, hsource, rfl, hlifecycle, hstatus⟩
    exact check_eq_ok.mpr ⟨hpreferences, check_eq_ok.mpr ⟨refuse_eq_ok.mpr hid,
      check_eq_ok.mpr ⟨hintent, bind_eq_ok.mpr ⟨source, hsource,
        check_eq_ok.mpr ⟨hlifecycle, check_eq_ok.mpr ⟨hstatus, rfl⟩⟩⟩⟩⟩⟩

/-- A name that is accepted is accepted again with the source it was given. -/
theorem restoreName_again {source : SessionNameSource} (h : restoreName s = .ok source)
    (hname : next.name = s.name) (hsource : next.nameSource = source) :
    restoreName next = .ok source := by
  unfold restoreName at h ⊢
  rw [hname, hsource]
  split at h
  · rename_i hnamed
    rw [if_pos hnamed]
    obtain ⟨hcontrol, h⟩ := check_eq_ok.mp h
    obtain ⟨hwords, h⟩ := check_eq_ok.mp h
    obtain ⟨hknown, h⟩ := check_eq_ok.mp h
    obtain rfl := ok.inj h
    have hset : (if s.nameSource = .unset then SessionNameSource.directory else s.nameSource) ≠
        .unset := by
      split
      · decide
      · assumption
    simp only [refuse_eq_ok] at hcontrol hwords hknown
    simp only [check_eq_ok, refuse_eq_ok, hcontrol, hwords, if_neg hset, hknown, and_self]
  · rename_i hunnamed
    rw [if_neg hunnamed]
    obtain ⟨hunset, h⟩ := check_eq_ok.mp h
    obtain rfl := ok.inj h
    simp only [refuse_eq_ok] at hunset
    simp only [check_eq_ok, refuse_eq_ok, hunset, and_self]

/-- The recovery target of a session that awaits recovery is set. -/
theorem restoreTarget_eq_self (h : s.status = .awaitingRecovery → s.recoveryTarget ≠ none) :
    restoreTarget s = s.recoveryTarget := by
  unfold restoreTarget
  split
  · rename_i hcase
    simp only [and_eq_true, decide_eq_true_eq] at hcase
    exact absurd hcase.2 (h hcase.1)
  · rfl

/-- `RestoreSession` gives back what it has returned. -/
theorem sound_of_restoreSession {snapshot : Session} (h : restoreSession snapshot = .ok s) :
    Sound s := by
  obtain ⟨hpreferences, hid, hintent, source, hsource, rfl, hlifecycle, hstatus⟩ :=
    restoreSession_eq_ok.mp h
  have htarget : snapshot.status = .awaitingRecovery → restoreTarget snapshot ≠ none := by
    intro hawaiting
    unfold restoreTarget
    split
    · simp
    rename_i hcase
    simpa [hawaiting] using hcase
  have hself : restoreTarget
      { snapshot with nameSource := source, recoveryTarget := restoreTarget snapshot } =
      restoreTarget snapshot := restoreTarget_eq_self htarget
  refine restoreSession_eq_ok.mpr ⟨hpreferences, hid, hintent, source,
    restoreName_again hsource rfl rfl, ?_, hlifecycle, hstatus⟩
  simp only [Session.snapshot, hself]

/-- A session that is given back as it is can be restored. -/
theorem Sound.restorable (h : Sound s) : Restorable s := ⟨s, h, by simp [equal]⟩

section

variable (h : Sound s) (hface : next.face = s.face)
include h hface

/-- A session with the face of a sound one keeps its name source. -/
theorem restoreName_of_face : restoreName next = .ok next.nameSource := by
  obtain ⟨-, -, -, source, hsource, hs, -, -⟩ := restoreSession_eq_ok.mp h
  simp only [face, Prod.mk.injEq] at hface
  obtain ⟨-, -, -, -, -, hname, hnameSource, -, -⟩ := hface
  have hsourceEq : s.nameSource = source := congrArg nameSource hs
  rw [hnameSource, hsourceEq]
  exact restoreName_again hsource hname (hnameSource.trans hsourceEq)

/-- A session with the face of a sound one is given back as it is, or not at all. -/
theorem restorable_iff_sound : Restorable next ↔ Sound next := by
  refine ⟨fun ⟨restored, hrestored, hequal⟩ => ?_, Sound.restorable⟩
  obtain ⟨-, -, -, source, hsource, hfields, -, -⟩ := restoreSession_eq_ok.mp hrestored
  obtain rfl : next.nameSource = source := ok.inj ((restoreName_of_face h hface).symm.trans hsource)
  have htarget : restored.recoveryTarget = next.recoveryTarget := by
    simp only [equal, decide_eq_true_eq, mk.injEq] at hequal
    exact hequal.2.2.2.2.2.2.2.2.2.2.2.2.2.2.2.2
  have hsame : restored = next := by
    rw [hfields] at htarget ⊢
    simp only [snapshot] at htarget ⊢
    rw [htarget]
  rw [hsame] at hrestored
  exact hrestored

/-- A session with the face of a sound one is sound exactly if it passes the checks of its instants
and of its status. -/
theorem sound_iff_checks (htarget : next.status = .awaitingRecovery → next.recoveryTarget ≠ none) :
    Sound next ↔ validateLifecycleSnapshot next = .ok () ∧ validateStatus next = .ok () := by
  have hname := restoreName_of_face h hface
  obtain ⟨hpreferences, hid, hintent, -⟩ := restoreSession_eq_ok.mp h
  simp only [face, Prod.mk.injEq] at hface
  obtain ⟨hid', hintentID, hcomputer, hprovider, hworkdir, -, -, hmodel, heffort⟩ := hface
  have hself : next =
      { next with nameSource := next.nameSource, recoveryTarget := restoreTarget next } := by
    rw [restoreTarget_eq_self htarget]
  constructor
  · intro hsound
    obtain ⟨-, -, -, -, -, -, hlifecycle, hstatus⟩ := restoreSession_eq_ok.mp hsound
    exact ⟨hlifecycle, hstatus⟩
  rintro ⟨hlifecycle, hstatus⟩
  refine restoreSession_eq_ok.mpr ⟨?_, ?_, ?_, next.nameSource, hname, hself, hlifecycle, hstatus⟩
  · rw [snapshot, hmodel, heffort]
    exact hpreferences
  · rw [snapshot, hid']
    exact hid
  rw [snapshot, hintentID, hcomputer, hprovider, hworkdir]
  exact hintent

end

/-! ## Instants -/

/-- The deadline is the one that the lifetime gives. -/
def DueOnTime (s : Session) : Prop := deadlineFrom s.anchor s.lifetime = .ok s.deadlineAt

/-- What the check of the instants requires of a session that is not a legacy one. -/
structure Timed (s : Session) : Prop where
  created : s.createdAt.isZero = false
  changed : s.stateChangedAt.isZero = false
  order : s.createdAt.nanos ≤ s.stateChangedAt.nanos
  lifetime : s.lifetime = lifetimeNever ∨ s.lifetime ∈ lifetimes
  resumed : ∀ at_, s.lastResumedAt = some at_ →
    s.createdAt.nanos ≤ at_.nanos ∧ at_.nanos ≤ s.stateChangedAt.nanos
  deadline : s.status.hasFreeDeadline ∨ DueOnTime s

/-- A lifetime has a deadline if it is one of the supported ones. -/
theorem deadlineFrom_isOk {anchor : Time} {lifetime : SessionLifetime} :
    (∃ deadline, deadlineFrom anchor lifetime = .ok deadline) ↔
      lifetime = lifetimeNever ∨ lifetime ∈ lifetimes := by
  unfold deadlineFrom
  split
  · simp [*]
  split
  · simp_all
  · simp_all

/-- The check of the instants of a session with a creation time. -/
theorem lifecycle_iff_timed (hcreated : s.createdAt.isZero = false) :
    validateLifecycleSnapshot s = .ok () ↔ Timed s := by
  unfold validateLifecycleSnapshot
  rw [if_neg (by simp [hcreated])]
  constructor
  · intro h
    replace h := of_check h
    obtain ⟨hchanged, h⟩ := check_eq_ok.mp h
    obtain ⟨horder, h⟩ := check_eq_ok.mp h
    obtain ⟨deadline, hdeadline, h⟩ := bind_eq_ok.mp h
    obtain ⟨hafter, h⟩ := check_eq_ok.mp h
    obtain ⟨hbefore, h⟩ := check_eq_ok.mp h
    obtain ⟨want, hwant, hdue⟩ := bind_eq_ok.mp h
    simp only [validateLifecycleTime, refuse_eq_ok, decide_eq_false_iff_not, Int.not_lt]
      at hchanged horder hafter hbefore hdue
    refine ⟨hcreated, hchanged, horder, deadlineFrom_isOk.mp ⟨deadline, hdeadline⟩, ?_, ?_⟩
    · intro at_ hat
      simp only [hat, any_some, decide_eq_false_iff_not, Int.not_lt] at hafter hbefore
      exact ⟨hafter, hbefore⟩
    cases hfree : s.status.hasFreeDeadline with
    | true => exact .inl rfl
    | false =>
      simp only [hfree, Bool.not_false, Bool.and_true, decide_eq_false_iff_not, not_not] at hdue
      rw [← hdue] at hwant
      exact .inr hwant
  · intro h
    obtain ⟨deadline, hdeadline⟩ := deadlineFrom_isOk.mpr h.lifetime
    obtain ⟨want, hwant⟩ := deadlineFrom_isOk.mpr h.lifetime
    have hafter : s.lastResumedAt.any (·.nanos < s.createdAt.nanos) = false := by
      cases hat : s.lastResumedAt with
      | none => rfl
      | some at_ =>
        have horder := (h.resumed at_ hat).1
        simpa using horder
    have hbefore : s.lastResumedAt.any (s.stateChangedAt.nanos < ·.nanos) = false := by
      cases hat : s.lastResumedAt with
      | none => rfl
      | some at_ =>
        have horder := (h.resumed at_ hat).2
        simpa using horder
    have hdue : (s.deadlineAt ≠ want && !s.status.hasFreeDeadline) = false := by
      rcases h.deadline with hfree | hdue
      · simp [hfree]
      have heq : s.deadlineAt = want := ok.inj (hdue.symm.trans hwant)
      simp [heq]
    have horder : (decide (s.stateChangedAt.nanos < s.createdAt.nanos)) = false := by
      have horder := h.order
      simpa using horder
    exact check_eq_ok.mpr ⟨refuse_eq_ok.mpr hcreated,
      check_eq_ok.mpr ⟨refuse_eq_ok.mpr h.changed,
        check_eq_ok.mpr ⟨refuse_eq_ok.mpr horder, bind_eq_ok.mpr ⟨deadline, hdeadline,
          check_eq_ok.mpr ⟨refuse_eq_ok.mpr hafter,
            check_eq_ok.mpr ⟨refuse_eq_ok.mpr hbefore,
              bind_eq_ok.mpr ⟨want, hwant, refuse_eq_ok.mpr hdue⟩⟩⟩⟩⟩⟩⟩

/-- A session without a creation time that was changed fails the check. -/
theorem lifecycle_legacy (hcreated : s.createdAt.isZero)
    (hchanged : s.stateChangedAt.isZero = false) : validateLifecycleSnapshot s ≠ .ok () := by
  unfold validateLifecycleSnapshot
  rw [if_neg (by simp [hchanged])]
  intro h
  obtain ⟨hzero, -⟩ := check_eq_ok.mp h
  simp [validateLifecycleTime, hcreated] at hzero

/-- A change of status at a later instant leaves the instants right, if the deadline is. -/
theorem Timed.moves (h : Timed s) (hin : InTime s at_) (hcreated : next.createdAt = s.createdAt)
    (hresumed : next.lastResumedAt = s.lastResumedAt) (hlifetime : next.lifetime = s.lifetime)
    (hchanged : next.stateChangedAt = at_)
    (hdeadline : next.status.hasFreeDeadline ∨ DueOnTime next) : Timed next := by
  have hlater := hin.order h.changed
  have horder := h.order
  refine ⟨by rw [hcreated]; exact h.created, by rw [hchanged]; exact hin.nonzero, ?_, ?_, ?_,
    hdeadline⟩
  · rw [hcreated, hchanged]
    omega
  · rw [hlifetime]
    exact h.lifetime
  intro instant hinstant
  rw [hresumed] at hinstant
  have hbetween := h.resumed instant hinstant
  rw [hcreated, hchanged]
  exact ⟨hbetween.1, by omega⟩

/-- A resumption at a later instant leaves the instants right. -/
theorem Timed.resumes (h : Timed s) (hin : InTime s at_) (hcreated : next.createdAt = s.createdAt)
    (hresumed : next.lastResumedAt = some at_) (hchanged : next.stateChangedAt = at_)
    (hdeadline : deadlineFrom at_ next.lifetime = .ok next.deadlineAt) : Timed next := by
  have hlater := hin.order h.changed
  have horder := h.order
  refine ⟨by rw [hcreated]; exact h.created, by rw [hchanged]; exact hin.nonzero, ?_,
    deadlineFrom_isOk.mp ⟨_, hdeadline⟩, ?_, .inr ?_⟩
  · rw [hcreated, hchanged]
    omega
  · intro instant hinstant
    obtain rfl := mem_unique hresumed hinstant
    rw [hcreated, hchanged]
    omega
  rw [DueOnTime, anchor, hresumed]
  exact hdeadline

/-! ## Binding and recovery target -/

/-- A status in which a session must have a binding and cannot have a recovery target. -/
def SessionStatus.bound : SessionStatus → Bool
  | .starting | .awaitingRecovery | .other _ => false
  | _ => true

theorem validateStatus_bound (hbound : s.status.bound) :
    validateStatus s = .ok () ↔
      validateBinding s.provider s.binding = .ok () ∧ s.recoveryTarget = none := by
  have hstatus : validateForStatus s = validateBinding s.provider s.binding := by
    unfold validateForStatus
    cases hs : s.status <;> simp_all [bound]
  have hother : s.status ≠ .awaitingRecovery := by
    rintro hs
    simp [hs, bound] at hbound
  simp [validateStatus, check_eq_ok, hstatus, refuse_eq_ok, hother]

theorem validateStatus_starting (hs : s.status = .starting) :
    validateStatus s = .ok () ↔ s.binding = none ∧ s.recoveryTarget = none := by
  simp [validateStatus, validateForStatus, check_eq_ok, hs, refuse_eq_ok]

theorem validateStatus_awaiting (hs : s.status = .awaitingRecovery) :
    validateStatus s = .ok () ↔
      (s.binding ≠ none → validateBinding s.provider s.binding = .ok ()) ∧
      ∃ target, s.recoveryTarget = some target ∧ isRecoveryTarget target ∧
        (target = .starting ↔ s.binding = none) := by
  simp only [validateStatus, validateForStatus, validateAwaiting, validateTarget, hs,
    check_eq_ok, refuse_eq_ok]
  cases hbinding : s.binding <;> cases htarget : s.recoveryTarget <;>
    simp [check_eq_ok, refuse_eq_ok]

/-! ## Sound sessions -/

/-- A sound session passes the checks of its status. -/
theorem Sound.status (h : Sound s) : validateStatus s = .ok () := by
  obtain ⟨-, -, -, source, -, -, -, hstatus⟩ := restoreSession_eq_ok.mp h
  exact hstatus

/-- A sound session with a creation time passes the check of its instants. -/
theorem Sound.timed (h : Sound s) (hcreated : s.createdAt.isZero = false) : Timed s := by
  obtain ⟨-, -, -, source, -, -, hlifecycle, -⟩ := restoreSession_eq_ok.mp h
  exact (lifecycle_iff_timed hcreated).mp hlifecycle

/-- The deadline of a sound session is right, unless it is free. -/
theorem Sound.due (h : Sound s) (hcreated : s.createdAt.isZero = false)
    (hfree : s.status.hasFreeDeadline = false) : DueOnTime s := by
  refine (h.timed hcreated).deadline.resolve_left ?_
  rw [hfree]
  decide

/-- A sound session has a binding in every status that requires one. -/
theorem Sound.bound (h : Sound s) (hbound : s.status.bound) :
    validateBinding s.provider s.binding = .ok () :=
  ((validateStatus_bound hbound).mp h.status).1

theorem binding_ne_none {provider : Provider} {binding : Option ProviderBinding}
    (h : validateBinding provider binding = .ok ()) : binding ≠ none := by
  rintro rfl
  cases h

/-- A sound session that can be awaited has a binding, unless it starts. -/
theorem Sound.binding_iff (h : Sound s) (htarget : isRecoveryTarget s.status) :
    s.status = .starting ↔ s.binding = none := by
  constructor
  · intro hs
    exact ((validateStatus_starting hs).mp h.status).1
  intro hnone
  by_contra hs
  have hbound : s.status.bound := by
    cases hstatus : s.status <;> simp_all [SessionStatus.bound, isRecoveryTarget]
  exact binding_ne_none (h.bound hbound) hnone

/-- What a sound session that awaits recovery recovers to. -/
theorem Sound.target (h : Sound s) (hs : s.status = .awaitingRecovery) {target : SessionStatus}
    (htarget : s.recoveryTarget = some target) :
    isRecoveryTarget target ∧ (recoveredStatus target).bound ∧
      (recoveredStatus target).hasFreeDeadline = false := by
  obtain ⟨-, target', htarget', hvalid, -⟩ := (validateStatus_awaiting hs).mp h.status
  obtain rfl : target' = target := mem_unique htarget' htarget
  refine ⟨hvalid, ?_⟩
  cases target' <;>
    simp_all [isRecoveryTarget, recoveredStatus, SessionStatus.bound, SessionStatus.hasFreeDeadline]

/-! ## One transition -/

/-- A transition after which the session can be restored: it has a creation time; it does not await
the recovery of a resumption unless its deadline is the one that is checked then; and it does not
close without a binding. -/
def Admissible (t : Transition) (s : Session) : Prop :=
  (t.moment ≠ none → s.createdAt.isZero = false) ∧
    match t with
    | .awaitRecoveryAt _ => s.status = .resuming → DueOnTime s
    | .beginClose _ => s.binding ≠ none
    | _ => True

variable {t : Transition}

/-- What every effect leaves. -/
theorem Effect.kept (h : Effect s at_ t next) :
    next.face = s.face ∧ next.createdAt = s.createdAt ∧ next.stateChangedAt = at_ := by
  cases h <;> exact ⟨rfl, rfl, rfl⟩

/-- A sound session that awaits recovery afterwards has a recovery target. -/
theorem Effect.target_ne_none (h : Effect s at_ t next) (hsound : Sound s)
    (hawaiting : next.status = .awaitingRecovery) : next.recoveryTarget ≠ none := by
  cases h with
  | awaits => simp
  | works before after => rcases after with h | h | h | h <;> simp [h] at hawaiting
  | rests before after => rcases after with h | h | h <;> simp [h] at hawaiting
  | recovers before wanted =>
    have hbound := (hsound.target before wanted).2.1
    simp only at hawaiting
    simp [hawaiting, bound] at hbound
  | ready | closes | archives | resumes | recoversResume => cases hawaiting

/-- A change between two statuses that require a binding, which keeps the deadline. -/
theorem Sound.moves (h : Sound s) (hcreated : s.createdAt.isZero = false) (hin : InTime s at_)
    {status : SessionStatus} (hbefore : s.status.bound) (hafter : status.bound)
    (hdeadline : status.hasFreeDeadline ∨ s.status.hasFreeDeadline = false) :
    Timed { s with status, stateChangedAt := at_, recoveryTarget := none } ∧
      validateStatus { s with status, stateChangedAt := at_, recoveryTarget := none } = .ok () := by
  refine ⟨(h.timed hcreated).moves hin rfl rfl rfl rfl ?_, ?_⟩
  · exact hdeadline.imp_right fun hfree => h.due hcreated hfree
  · exact (validateStatus_bound hafter).mpr ⟨h.bound hbefore, rfl⟩

/-- An admissible transition leads from a sound session to one that passes the checks. -/
theorem Effect.checked (heffect : Effect s at_ t next) (h : Sound s) (hin : InTime s at_)
    (hcreated : s.createdAt.isZero = false) (hadmissible : Admissible t s) :
    Timed next ∧ validateStatus next = .ok () := by
  cases heffect with
  | ready before bound =>
    refine ⟨(h.timed hcreated).moves hin rfl rfl rfl rfl (.inr ?_), ?_⟩
    · exact h.due hcreated (by rw [before]; rfl)
    · exact (validateStatus_bound rfl).mpr ⟨bound, rfl⟩
  | awaits before =>
    refine ⟨(h.timed hcreated).moves hin rfl rfl rfl rfl (.inr ?_), ?_⟩
    · by_cases hresuming : s.status = .resuming
      · exact hadmissible.2 hresuming
      refine h.due hcreated ?_
      cases hs : s.status <;> simp_all [hasFreeDeadline, isRecoveryTarget]
    refine (validateStatus_awaiting rfl).mpr ⟨fun hbinding => ?_, s.status, rfl, before,
      h.binding_iff before⟩
    have hstarting : s.status ≠ .starting := fun hs => hbinding ((h.binding_iff before).mp hs)
    refine h.bound ?_
    cases hs : s.status <;> simp_all [bound, isRecoveryTarget]
  | works before after =>
    refine h.moves hcreated hin ?_ ?_ (.inr ?_)
    · rcases before with hs | hs | hs <;> rw [hs] <;> rfl
    · rcases after with rfl | rfl | rfl | rfl <;> rfl
    · rcases before with hs | hs | hs <;> rw [hs] <;> rfl
  | closes before =>
    refine ⟨(h.timed hcreated).moves hin rfl rfl rfl rfl (.inr ?_), ?_⟩
    · exact h.due hcreated (by rcases before with hs | hs | hs <;> rw [hs] <;> rfl)
    refine (validateStatus_bound rfl).mpr ⟨?_, rfl⟩
    by_cases hawaiting : s.status = .awaitingRecovery
    · exact ((validateStatus_awaiting hawaiting).mp h.status).1 hadmissible.2
    refine h.bound ?_
    rcases before with hs | hs | hs
    · rw [hs]; rfl
    · rw [hs]; rfl
    · exact absurd hs hawaiting
  | archives before =>
    refine ⟨(h.timed hcreated).moves hin rfl rfl rfl rfl (.inl rfl), ?_⟩
    exact (validateStatus_bound rfl).mpr ⟨h.bound (by rw [before]; rfl), rfl⟩
  | rests before after =>
    refine h.moves hcreated hin ?_ ?_ (.inl ?_)
    · rcases before with hs | hs | hs <;> rw [hs] <;> rfl
    · rcases after with rfl | rfl | rfl <;> rfl
    · rcases after with rfl | rfl | rfl <;> rfl
  | resumes before had bound same newer due | recoversResume before wanted bound same due =>
    exact ⟨(h.timed hcreated).resumes hin rfl rfl rfl due,
      (validateStatus_bound rfl).mpr ⟨bound, rfl⟩⟩
  | recovers before wanted other bound =>
    obtain ⟨-, hbound, -⟩ := h.target before wanted
    refine ⟨(h.timed hcreated).moves hin rfl rfl rfl rfl (.inr ?_), ?_⟩
    · exact h.due hcreated (by rw [before]; rfl)
    · exact (validateStatus_bound hbound).mpr ⟨bound, rfl⟩

/-- From a sound session, a transition leads to a sound one exactly if it is admissible. -/
theorem sound_step_iff (h : Sound s) (hnext : t.apply s = .ok next) :
    Sound next ↔ Admissible t s := by
  rcases apply_cases hnext with ⟨at_, hmoment, hin, heffect⟩ | ⟨name, source, model, effort, hmoment,
    hrestored⟩
  · obtain ⟨hface, hcreatedAt, hchanged⟩ := heffect.kept
    rw [sound_iff_checks h hface (heffect.target_ne_none h)]
    cases hcreated : s.createdAt.isZero with
    | true =>
      -- A legacy session is changed, and then has a time of change but no creation time.
      refine iff_of_false (fun hchecks => ?_) (fun hadmissible => ?_)
      · refine lifecycle_legacy (hcreatedAt ▸ hcreated) ?_ hchecks.1
        rw [hchanged]
        exact hin.nonzero
      have hcontra := hadmissible.1 (by simp [hmoment])
      rw [hcreated] at hcontra
      cases hcontra
    | false =>
      have hcreated' : next.createdAt.isZero = false := by rw [hcreatedAt]; exact hcreated
      rw [lifecycle_iff_timed hcreated']
      refine ⟨fun ⟨htimed, hstatus⟩ => ⟨fun _ => hcreated, ?_⟩, heffect.checked h hin hcreated⟩
      cases t with
      | awaitRecoveryAt at' =>
        obtain ⟨-, -, rfl⟩ := awaitRecoveryAt_eq_ok hnext
        exact fun _ => htimed.deadline.resolve_left (by simp [hasFreeDeadline])
      | beginClose at' =>
        obtain ⟨-, -, rfl⟩ := move_eq_ok.mp hnext
        exact binding_ne_none ((validateStatus_bound rfl).mp hstatus).1
      | _ => trivial
  · refine iff_of_true (sound_of_restoreSession hrestored) ⟨by simp [hmoment], ?_⟩
    cases t <;> trivial

/-- After a transition from a sound session, a session that can be restored is sound. -/
theorem restorable_step_iff (h : Sound s) (hnext : t.apply s = .ok next) :
    Restorable next ↔ Sound next := by
  rcases apply_cases hnext with ⟨at_, -, -, heffect⟩ | ⟨name, source, model, effort, -, hrestored⟩
  · exact restorable_iff_sound h heffect.kept.1
  have hsound := sound_of_restoreSession hrestored
  exact iff_of_true hsound.restorable hsound

/-! ## Runs -/

/-- A session as the domain makes it: started, or restored. -/
def Built (s : Session) : Prop :=
  (∃ id intentID computerID provider workdir createdAt lifetime,
    newStartingSessionAt id intentID computerID provider workdir createdAt lifetime = .ok s) ∨
  ∃ snapshot, restoreSession snapshot = .ok s

/-- A session that the domain makes is sound. -/
theorem Built.sound (h : Built s) : Sound s := by
  rcases h with ⟨id, intentID, computerID, provider, workdir, createdAt, lifetime, h⟩ | ⟨_, h⟩
  · replace h := of_check h
    replace h := of_check h
    obtain ⟨deadline, -, h⟩ := bind_eq_ok.mp h
    exact sound_of_restoreSession h
  · exact sound_of_restoreSession h

/-- What a step is. -/
theorem step_eq_some : step t s = some next ↔ t.apply s = .ok next := by
  unfold step
  cases t.apply s <;> simp [Except.toOption]

/-- A run of successful transitions goes through sessions that can be restored exactly if all its
steps are admissible. -/
theorem restorable_iff_admissible {start last : Session} {run : List Transition}
    (hstart : Built start) (hrun : exec step run start = some last) :
    (∀ front back s, run = front ++ back → exec step front start = some s → Restorable s) ↔
      Along step Admissible run start := by
  refine forall_prefixes_iff_along (fun i s s' hs hstep => ?_) (fun s => Sound.restorable)
    hstart.sound hrun
  have hnext := step_eq_some.mp hstep
  rw [restorable_step_iff hs hnext]
  exact ⟨sound_step_iff hs hnext, id⟩

/-- A session that starts, to be closed after six hours. -/
def draft : Session where
  id := ofText "s"
  intentID := ofText "i"
  computerID := ofText "c"
  provider := .codex
  workdir := ofText "/w"
  status := .starting
  createdAt := ⟨0⟩
  stateChangedAt := ⟨0⟩
  lifetime := 6 * hour
  deadlineAt := some ⟨6 * hour⟩

/-- The same with legacy timestamps. -/
def legacyDraft : Session :=
  { draft with
    createdAt := ⟨-62135596800000000000⟩, stateChangedAt := ⟨-62135596800000000000⟩
    lifetime := lifetimeNever, deadlineAt := none }

/-- Its binding. -/
def launched : ProviderBinding := ⟨.codex, ofText "p", 1⟩

/-- The session works. -/
theorem work_restorable :
    exec step [.readyAt launched ⟨1⟩, .startWork ⟨2⟩, .finishWork ⟨3⟩] draft =
        some { draft with status := .ready, binding := some launched, stateChangedAt := ⟨3⟩ } ∧
      ∀ front back s, [.readyAt launched ⟨1⟩, .startWork ⟨2⟩, .finishWork ⟨3⟩] = front ++ back →
        exec step front draft = some s → Restorable s := by
  have hstart : Built draft := .inr ⟨draft, rfl⟩
  have hrun : exec step
      [.readyAt launched ⟨1⟩, .startWork ⟨2⟩, .finishWork ⟨3⟩] draft =
      some { draft with status := .ready, binding := some launched, stateChangedAt := ⟨3⟩ } := rfl
  refine ⟨hrun, (restorable_iff_admissible hstart hrun).mpr ?_⟩
  exact ⟨⟨fun _ => rfl, trivial⟩, ⟨fun _ => rfl, trivial⟩, ⟨fun _ => rfl, trivial⟩, trivial⟩

/-- A session whose snapshot is refused cannot be restored. -/
theorem not_restorable {e : Err} (h : restoreSession s = .error e) : ¬Restorable s := by
  rintro ⟨restored, hrestored, -⟩
  cases h.symm.trans hrestored

/-- The three ways to a session that cannot be restored: a close before the first start, a
resumption that has to be recovered, and any change of a session with legacy timestamps. -/
theorem unrestorable :
    (Built draft ∧ ∃ last, exec step [.awaitRecoveryAt ⟨1⟩, .beginClose ⟨2⟩] draft =
        some last ∧ ¬Restorable last) ∧
      (Built draft ∧ ∃ last, exec step [.readyAt launched ⟨1⟩, .beginClose ⟨2⟩, .archive ⟨3⟩,
        .beginResume ⟨4⟩, .awaitRecoveryAt ⟨5⟩] draft = some last ∧ ¬Restorable last) ∧
      (Built legacyDraft ∧ ∃ last, exec step [.readyAt launched ⟨1⟩] legacyDraft =
        some last ∧ ¬Restorable last) := by
  refine ⟨⟨.inr ⟨draft, rfl⟩, _, rfl, ?_⟩, ⟨.inr ⟨draft, rfl⟩, _, rfl, ?_⟩,
    ⟨.inr ⟨legacyDraft, rfl⟩, _, rfl, ?_⟩⟩
  · exact not_restorable (e := .message "ready session requires a provider binding") rfl
  · exact not_restorable rfl
  · exact not_restorable (e := .message "created at is required") rfl

end Bria.Domain
