import Bria.Domain.Session

/-!
# What a transition can do

`Effect s at_ t next` lists what a transition at an instant makes of a session, with what is known of
the session when it succeeds. `Rename` and `WithModelPreferences` have no instant: they restore a
changed snapshot. `apply_cases` says that every successful transition is one of the two.
-/

namespace Bria.Domain

open Go

/-- What a transition at an instant makes of a session. -/
inductive Effect (s : Session) (at_ : Time) : Transition → Session → Prop where
  /-- `ReadyAt`. -/
  | ready {t : Transition} {binding : ProviderBinding} (before : s.status = .starting)
      (bound : validateBinding s.provider (some binding) = .ok ()) :
      Effect s at_ t { s with
        status := .ready, binding := some binding, stateChangedAt := at_, recoveryTarget := none }
  /-- `AwaitRecoveryAt`. -/
  | awaits (before : isRecoveryTarget s.status) :
      Effect s at_ (.awaitRecoveryAt at_) { s with
        status := .awaitingRecovery, stateChangedAt := at_, recoveryTarget := some s.status }
  /-- `StartWork`, `BeginStop`, `FinishWork` and `CloseAfterWork`. -/
  | works {t : Transition} {status : SessionStatus}
      (before : s.status = .ready ∨ s.status = .running ∨ s.status = .stopping)
      (after : status = .ready ∨ status = .running ∨ status = .stopping ∨
        status = .closingAfterWork) :
      Effect s at_ t { s with status, stateChangedAt := at_, recoveryTarget := none }
  /-- `BeginClose`. -/
  | closes (before : s.status = .ready ∨ s.status = .closingAfterWork ∨
        s.status = .awaitingRecovery) :
      Effect s at_ (.beginClose at_)
        { s with status := .closing, stateChangedAt := at_, recoveryTarget := none }
  /-- `Archive`. -/
  | archives {t : Transition} (before : s.status = .closing) :
      Effect s at_ t { s with
        status := .archived, stateChangedAt := at_, deadlineAt := none, recoveryTarget := none }
  /-- `BeginResume`, `FailResume` and `ReturnToArchive`. -/
  | rests {t : Transition} {status : SessionStatus}
      (before : s.status = .archived ∨ s.status = .resuming ∨ s.status = .resumeFailed)
      (after : status = .archived ∨ status = .resuming ∨ status = .resumeFailed) :
      Effect s at_ t { s with status, stateChangedAt := at_, recoveryTarget := none }
  /-- `ResumeReady`. -/
  | resumes {t : Transition} {prior binding : ProviderBinding} {lifetime : SessionLifetime}
      {deadline : Option Time}
      (before : s.status = .resuming) (had : s.binding = some prior)
      (bound : validateBinding s.provider (some binding) = .ok ())
      (same : binding.sessionID = prior.sessionID) (newer : prior.generation < binding.generation)
      (due : deadlineFrom at_ lifetime = .ok deadline) :
      Effect s at_ t { s with
        status := .ready, binding := some binding, lastResumedAt := some at_
        stateChangedAt := at_, lifetime, deadlineAt := deadline
        recoveryTarget := none }
  /-- `Recovered` of a session that was not resuming. -/
  | recovers {t : Transition} {target : SessionStatus} {binding : ProviderBinding}
      (before : s.status = .awaitingRecovery) (wanted : s.recoveryTarget = some target)
      (other : target ≠ .resuming) (bound : validateBinding s.provider (some binding) = .ok ())
      (same : ∀ prior, s.binding = some prior →
        binding.sessionID = prior.sessionID ∧ prior.generation < binding.generation) :
      Effect s at_ t { s with
        status := Session.recoveredStatus target, binding := some binding, stateChangedAt := at_
        recoveryTarget := none }
  /-- `Recovered` of a session that was resuming. -/
  | recoversResume {t : Transition} {binding : ProviderBinding} {deadline : Option Time}
      (before : s.status = .awaitingRecovery) (wanted : s.recoveryTarget = some .resuming)
      (bound : validateBinding s.provider (some binding) = .ok ())
      (same : ∀ prior, s.binding = some prior →
        binding.sessionID = prior.sessionID ∧ prior.generation < binding.generation)
      (due : deadlineFrom at_ s.lifetime = .ok deadline) :
      Effect s at_ t { s with
        status := .ready, binding := some binding, lastResumedAt := some at_
        stateChangedAt := at_, deadlineAt := deadline, recoveryTarget := none }

/-- The instant of a transition. -/
def Transition.moment : Transition → Option Time
  | .readyAt _ at_ | .awaitRecoveryAt at_ | .startWork at_ | .beginStop at_ | .finishWork at_
  | .closeAfterWork at_ | .beginClose at_ | .archive at_ | .beginResume at_ | .resumeReady _ at_ _
  | .failResume at_ | .returnToArchive at_ | .recovered _ at_ => some at_
  | .rename _ _ | .withModelPreferences _ _ => none

/-- The instant of a successful transition: not the zero one, and not before the last change. -/
structure InTime (s : Session) (at_ : Time) : Prop where
  nonzero : at_.isZero = false
  order : s.stateChangedAt.isZero = false → s.stateChangedAt.nanos ≤ at_.nanos

variable {s next : Session} {at_ : Time} {status : SessionStatus}

theorem transition_eq_ok :
    s.transition status at_ = .ok next ↔ InTime s at_ ∧
      next = { s with status, stateChangedAt := at_, recoveryTarget := none } := by
  simp only [Session.transition, validateLifecycleTime, check_eq_ok, refuse_eq_ok, ok.injEq]
  constructor
  · rintro ⟨hzero, horder, rfl⟩
    refine ⟨⟨hzero, fun hset => ?_⟩, rfl⟩
    simp only [hset, Bool.not_false, Bool.true_and, decide_eq_false_iff_not] at horder
    omega
  rintro ⟨hin, rfl⟩
  refine ⟨hin.nonzero, ?_, rfl⟩
  cases hset : s.stateChangedAt.isZero with
  | true => rfl
  | false =>
    have horder := hin.order hset
    simp only [Bool.not_false, Bool.true_and, decide_eq_false_iff_not]
    omega

theorem move_eq_ok {allowed : List SessionStatus} {e : Err} :
    s.move allowed e status at_ = .ok next ↔ s.status ∈ allowed ∧ InTime s at_ ∧
      next = { s with status, stateChangedAt := at_, recoveryTarget := none } := by
  simp only [Session.move, check_eq_ok, refuse_eq_ok, transition_eq_ok, not_eq_false',
    List.contains_iff_mem]

theorem awaitRecoveryAt_eq_ok (h : s.awaitRecoveryAt at_ = .ok next) :
    isRecoveryTarget s.status ∧ InTime s at_ ∧
      next = { s with
        status := .awaitingRecovery, stateChangedAt := at_, recoveryTarget := some s.status } := by
  obtain ⟨hstatus, h⟩ := check_eq_ok.mp h
  obtain ⟨moved, hmoved, h⟩ := bind_eq_ok.mp h
  obtain ⟨hin, rfl⟩ := transition_eq_ok.mp hmoved
  obtain rfl := ok.inj h
  simp only [refuse_eq_ok, not_eq_false'] at hstatus
  exact ⟨hstatus, hin, rfl⟩

variable {binding : ProviderBinding}

theorem validateResumedBinding_eq_ok {provider : Provider} {had : Option ProviderBinding}
    (h : Session.validateResumedBinding provider had binding = .ok ()) :
    validateBinding provider (some binding) = .ok () ∧
      ∃ prior, had = some prior ∧ binding.sessionID = prior.sessionID ∧
        prior.generation < binding.generation := by
  obtain ⟨hbound, h⟩ := check_eq_ok.mp h
  refine ⟨hbound, ?_⟩
  rcases had with _ | prior
  · cases h
  obtain ⟨hsame, hnewer⟩ := check_eq_ok.mp h
  simp only [refuse_eq_ok, decide_eq_false_iff_not, not_not, Nat.not_le] at hsame hnewer
  exact ⟨prior, rfl, hsame, hnewer⟩

theorem validateRecoveredBinding_eq_ok {target : SessionStatus}
    (h : s.validateRecoveredBinding target binding = .ok ()) :
    validateBinding s.provider (some binding) = .ok () ∧
      ∀ prior, s.binding = some prior →
        binding.sessionID = prior.sessionID ∧ prior.generation < binding.generation := by
  unfold Session.validateRecoveredBinding at h
  split at h
  · rename_i hnone
    have hbound := of_check h
    refine ⟨hbound, fun prior hprior => ?_⟩
    simp [hprior] at hnone
  obtain ⟨hbound, prior, hprior, hsame⟩ := validateResumedBinding_eq_ok h
  refine ⟨hbound, fun other hother => ?_⟩
  obtain rfl : prior = other := mem_unique hprior hother
  exact hsame

/-- A session is bound anew: to the same session of the provider, in a later generation. -/
def Rebound (s next : Session) : Prop :=
  ∃ binding, next.binding = some binding ∧ ∀ prior, s.binding = some prior →
    binding.sessionID = prior.sessionID ∧ prior.generation < binding.generation

variable {t : Transition}

theorem recovered_effect (h : s.recovered binding at_ = .ok next) :
    InTime s at_ ∧ Effect s at_ t next ∧ Rebound s next := by
  unfold Session.recovered at h
  split at h
  · rename_i target hstatus htarget
    obtain ⟨hbinding, h⟩ := check_eq_ok.mp h
    obtain ⟨hbound, hsame⟩ := validateRecoveredBinding_eq_ok hbinding
    obtain ⟨moved, hmoved, h⟩ := bind_eq_ok.mp h
    obtain ⟨hin, rfl⟩ := transition_eq_ok.mp hmoved
    refine ⟨hin, ?_⟩
    split at h
    · rename_i hresuming
      obtain rfl := hresuming
      obtain ⟨deadline, hdeadline, h⟩ := bind_eq_ok.mp h
      obtain rfl := ok.inj h
      exact ⟨.recoversResume hstatus htarget hbound hsame hdeadline, binding, rfl, hsame⟩
    rename_i hother
    obtain rfl := ok.inj h
    exact ⟨.recovers hstatus htarget hother hbound hsame, binding, rfl, hsame⟩
  · cases h

theorem resumeReady_effect {lifetime : SessionLifetime}
    (h : s.resumeReady binding at_ lifetime = .ok next) :
    InTime s at_ ∧ Effect s at_ t next ∧ Rebound s next := by
  obtain ⟨hstatus, h⟩ := check_eq_ok.mp h
  obtain ⟨hbinding, h⟩ := check_eq_ok.mp h
  replace h := of_check h
  obtain ⟨deadline, hdeadline, h⟩ := bind_eq_ok.mp h
  obtain ⟨moved, hmoved, h⟩ := bind_eq_ok.mp h
  obtain ⟨hin, rfl⟩ := transition_eq_ok.mp hmoved
  obtain ⟨hbound, prior, hprior, hsame, hnewer⟩ := validateResumedBinding_eq_ok hbinding
  obtain rfl := ok.inj h
  simp only [refuse_eq_ok, decide_eq_false_iff_not, not_not] at hstatus
  refine ⟨hin, .resumes hstatus hprior hbound hsame hnewer hdeadline, binding, rfl, ?_⟩
  intro other hother
  obtain rfl : prior = other := mem_unique hprior hother
  exact ⟨hsame, hnewer⟩

/-- A successful transition has an effect at its instant, or restores a snapshot that differs from
the session in its name or in its preferences. -/
theorem apply_cases (h : t.apply s = .ok next) :
    (∃ at_, t.moment = some at_ ∧ InTime s at_ ∧ Effect s at_ t next) ∨
      ∃ name nameSource model effort, t.moment = none ∧
        restoreSession { s with name, nameSource, model, effort } = .ok next := by
  cases t with
  | readyAt binding at_ =>
    refine .inl ⟨at_, rfl, ?_⟩
    simp only [Transition.apply, Session.readyAt] at h
    obtain ⟨hstatus, h⟩ := check_eq_ok.mp h
    obtain ⟨hbound, h⟩ := check_eq_ok.mp h
    obtain ⟨moved, hmoved, h⟩ := bind_eq_ok.mp h
    obtain ⟨hin, rfl⟩ := transition_eq_ok.mp hmoved
    obtain rfl := ok.inj h
    simp only [refuse_eq_ok, decide_eq_false_iff_not, not_not] at hstatus
    exact ⟨hin, .ready hstatus hbound⟩
  | awaitRecoveryAt at_ =>
    obtain ⟨hstatus, hin, rfl⟩ := awaitRecoveryAt_eq_ok h
    exact .inl ⟨at_, rfl, hin, .awaits hstatus⟩
  | startWork at_ | beginStop at_ | finishWork at_ | closeAfterWork at_ =>
    obtain ⟨hstatus, hin, rfl⟩ := move_eq_ok.mp h
    exact .inl ⟨at_, rfl, hin, .works (by simp_all) (by simp)⟩
  | beginClose at_ =>
    obtain ⟨hstatus, hin, rfl⟩ := move_eq_ok.mp h
    exact .inl ⟨at_, rfl, hin, .closes (by simp_all)⟩
  | archive at_ =>
    simp only [Transition.apply, Session.archive] at h
    obtain ⟨moved, hmoved, h⟩ := bind_eq_ok.mp h
    obtain ⟨hstatus, hin, rfl⟩ := move_eq_ok.mp hmoved
    obtain rfl := ok.inj h
    exact .inl ⟨at_, rfl, hin, .archives (by simp_all)⟩
  | beginResume at_ | failResume at_ | returnToArchive at_ =>
    obtain ⟨hstatus, hin, rfl⟩ := move_eq_ok.mp h
    exact .inl ⟨at_, rfl, hin, .rests (by simp_all) (by simp)⟩
  | resumeReady binding at_ lifetime =>
    obtain ⟨hin, heffect, -⟩ := resumeReady_effect h
    exact .inl ⟨at_, rfl, hin, heffect⟩
  | recovered binding at_ =>
    obtain ⟨hin, heffect, -⟩ := recovered_effect h
    exact .inl ⟨at_, rfl, hin, heffect⟩
  | rename name source => exact .inr ⟨name, source, s.model, s.effort, rfl, h⟩
  | withModelPreferences model effort =>
    replace h := of_check h
    exact .inr ⟨s.name, s.nameSource, model, effort, rfl, h⟩

end Bria.Domain
