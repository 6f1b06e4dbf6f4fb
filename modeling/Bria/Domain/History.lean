import Bria.Domain.Closure

/-!
# What sessions keep

A session keeps its identity through all transitions, the time of its last change once it has one,
and the session of the provider that it was bound to; a new binding is of a later generation
(`Follows`). That the session has a recovery target exactly while it awaits recovery, and no binding
while it starts, holds of every session that the transitions reach (`Settled`), also of those that
`RestoreSession` refuses.

The time of the last change of a session with legacy timestamps is the zero instant. Its first
transition is not compared with it, and may be at an instant before it.
-/

namespace Bria.Domain

open Go Machine Session

variable {s s1 s2 next : Session} {at_ : Time} {t : Transition}

/-- The fields that no transition changes. -/
def Session.identity (s : Session) : GoString × GoString × GoString × Provider × GoString × Time :=
  (s.id, s.intentID, s.computerID, s.provider, s.workdir, s.createdAt)

/-- A later session of the same history. -/
structure Follows (s later : Session) : Prop where
  identity : later.identity = s.identity
  changed : s.stateChangedAt.isZero = false →
    later.stateChangedAt.isZero = false ∧ s.stateChangedAt.nanos ≤ later.stateChangedAt.nanos
  bound : ∀ binding, s.binding = some binding → ∃ binding', later.binding = some binding' ∧
    binding'.sessionID = binding.sessionID ∧ binding.generation ≤ binding'.generation

/-- The recovery target is there exactly while recovery is awaited. -/
structure Settled (s : Session) : Prop where
  target : s.recoveryTarget.isSome ↔ s.status = .awaitingRecovery
  valid : ∀ target, s.recoveryTarget = some target → isRecoveryTarget target
  unbound : s.status = .starting → s.binding = none

theorem Follows.refl (s : Session) : Follows s s :=
  ⟨rfl, fun hset => ⟨hset, Int.le_refl _⟩, fun binding h => ⟨binding, h, rfl, Nat.le_refl _⟩⟩

theorem Follows.trans (h1 : Follows s s1) (h2 : Follows s1 s2) : Follows s s2 where
  identity := h2.identity.trans h1.identity
  changed hset := by
    obtain ⟨hset1, hle1⟩ := h1.changed hset
    obtain ⟨hset2, hle2⟩ := h2.changed hset1
    exact ⟨hset2, Int.le_trans hle1 hle2⟩
  bound binding h := by
    obtain ⟨binding1, hbinding1, hsame1, hle1⟩ := h1.bound binding h
    obtain ⟨binding2, hbinding2, hsame2, hle2⟩ := h2.bound binding1 hbinding1
    exact ⟨binding2, hbinding2, hsame2.trans hsame1, Nat.le_trans hle1 hle2⟩

/-- A session that `RestoreSession` gives back is settled. -/
theorem Sound.settled (h : Sound s) : Settled s := by
  have hother : s.status ≠ .awaitingRecovery → s.recoveryTarget = none := by
    intro hs
    have hstatus := h.status
    simp only [validateStatus, check_eq_ok, refuse_eq_ok] at hstatus
    simpa [hs] using hstatus.2
  refine ⟨⟨fun hsome => ?_, fun hs => ?_⟩, fun target htarget => ?_, fun hs => ?_⟩
  · by_contra hs
    simp [hother hs] at hsome
  · obtain ⟨-, target, htarget, -⟩ := (validateStatus_awaiting hs).mp h.status
    simp [htarget]
  · by_cases hs : s.status = .awaitingRecovery
    · exact (h.target hs htarget).1
    · simp [hother hs] at htarget
  · exact ((validateStatus_starting hs).mp h.status).1

/-! ## One transition -/

/-- The session stays bound to the session of its provider. -/
abbrev StaysBound (s next : Session) : Prop :=
  ∀ binding, s.binding = some binding → ∃ binding', next.binding = some binding' ∧
    binding'.sessionID = binding.sessionID ∧ binding.generation ≤ binding'.generation

/-- A binding that is kept. -/
theorem bound_of_eq (h : next.binding = s.binding) : StaysBound s next :=
  fun binding hbinding => ⟨binding, h.trans hbinding, rfl, Nat.le_refl _⟩

/-- A session that is bound anew. -/
theorem Rebound.bound (h : Rebound s next) : StaysBound s next := by
  intro prior hprior
  obtain ⟨binding, hbinding, hnewer⟩ := h
  obtain ⟨hsame, hlt⟩ := hnewer prior hprior
  exact ⟨binding, hbinding, hsame, Nat.le_of_lt hlt⟩

/-- What an effect does to the binding of a settled session. -/
theorem Effect.bound (h : Effect s at_ t next) (hs : Settled s) : StaysBound s next := by
  cases h with
  | ready before _ =>
    intro binding hbinding
    rw [hs.unbound before] at hbinding
    cases hbinding
  | resumes _ had _ same newer _ =>
    refine Rebound.bound ⟨_, rfl, fun prior hprior => ?_⟩
    obtain rfl := mem_unique had hprior
    exact ⟨same, newer⟩
  | recovers _ _ _ _ same | recoversResume _ _ _ same _ => exact Rebound.bound ⟨_, rfl, same⟩
  | awaits | works | closes | archives | rests => exact bound_of_eq rfl

/-- A session without a recovery target, in a status in which it needs none and may be bound. -/
theorem settled_of_none (htarget : s.recoveryTarget = none) (hawaiting : s.status ≠ .awaitingRecovery)
    (hstarting : s.status ≠ .starting) : Settled s := by
  refine ⟨iff_of_false (by simp [htarget]) hawaiting, fun target h => ?_,
    fun hs => absurd hs hstarting⟩
  rw [htarget] at h
  cases h

/-- An effect leaves a settled session settled. -/
theorem Effect.settled (h : Effect s at_ t next) (hs : Settled s) : Settled next := by
  cases h with
  | awaits before =>
    refine ⟨by simp, fun target htarget => ?_, fun hstarting => by cases hstarting⟩
    obtain rfl := some.inj htarget
    exact before
  | works _ after =>
    rcases after with rfl | rfl | rfl | rfl <;> exact settled_of_none rfl (by simp) (by simp)
  | rests _ after => rcases after with rfl | rfl | rfl <;> exact settled_of_none rfl (by simp) (by simp)
  | @recovers _ target _ _ wanted _ _ _ =>
    -- A recovery target is neither a start after recovery nor another recovery.
    have hvalid := hs.valid target wanted
    refine settled_of_none rfl ?_ ?_ <;>
      cases target <;> simp_all [recoveredStatus, isRecoveryTarget]
  | ready | closes | archives | resumes => exact settled_of_none rfl (by simp) (by simp)
  | recoversResume => exact settled_of_none rfl (by simp) (by simp)

/-- A transition leaves a settled session settled, in the same history. -/
theorem Settled.step (hs : Settled s) (hstep : step t s = some next) :
    Settled next ∧ Follows s next := by
  rcases apply_cases (step_eq_some.mp hstep) with ⟨at_, -, hin, heffect⟩ |
    ⟨name, source, model, effort, -, hrestored⟩
  · obtain ⟨hface, hcreated, hchanged⟩ := heffect.kept
    refine ⟨heffect.settled hs, ?_, fun hset => ?_, heffect.bound hs⟩
    · simp only [face, Prod.mk.injEq] at hface
      obtain ⟨hid, hintent, hcomputer, hprovider, hworkdir, -⟩ := hface
      simp only [identity, hid, hintent, hcomputer, hprovider, hworkdir, hcreated]
    rw [hchanged]
    exact ⟨hin.nonzero, hin.order hset⟩
  have hsound := sound_of_restoreSession hrestored
  obtain ⟨-, -, -, source', -, rfl, -, -⟩ := restoreSession_eq_ok.mp hrestored
  exact ⟨hsound.settled, rfl, fun hset => ⟨hset, Int.le_refl _⟩, bound_of_eq rfl⟩

/-- The transitions that bind a session anew. -/
def Transition.rebinds : Transition → Bool
  | .resumeReady _ _ _ | .recovered _ _ => true
  | _ => false

theorem rebound_of_step (hstep : step t s = some next) (ht : t.rebinds) : Rebound s next := by
  have happly := step_eq_some.mp hstep
  cases t with
  | resumeReady binding at_ lifetime =>
    exact (resumeReady_effect (t := .resumeReady binding at_ lifetime) happly).2.2
  | recovered binding at_ => exact (recovered_effect (t := .recovered binding at_) happly).2.2
  | _ => cases ht

/-! ## Runs -/

/-- Between any two points of a run from a session that the domain makes: the identity of the
session and its creation time are the same, the time of the last change is not earlier once it is
set, and the binding is to the same session of the provider, in no earlier generation; at each point
there is a recovery target exactly while recovery is awaited, and a transition that binds the session
anew does so in a later generation. -/
theorem history_kept {start s later : Session} {front middle : List Transition}
    (hstart : Built start) (hfront : exec step front start = some s)
    (hmiddle : exec step middle s = some later) :
    Follows s later ∧ (later.recoveryTarget.isSome ↔ later.status = .awaitingRecovery) ∧
      ∀ t next, step t later = some next → t.rebinds →
        ∀ prior, later.binding = some prior →
          ∃ binding, next.binding = some binding ∧ prior.generation < binding.generation := by
  have hsettled : Settled s :=
    exec_invariant (fun t x x' hstep hx => (hx.step hstep).1) hfront hstart.sound.settled
  obtain ⟨hlater, hfollows⟩ : Settled later ∧ Follows s later := by
    refine exec_invariant (P := fun x => Settled x ∧ Follows s x) (fun t x x' hstep hx => ?_)
      hmiddle ⟨hsettled, .refl s⟩
    obtain ⟨hsettled', hfollows'⟩ := hx.1.step hstep
    exact ⟨hsettled', hx.2.trans hfollows'⟩
  refine ⟨hfollows, hlater.target, fun t next hstep ht prior hprior => ?_⟩
  obtain ⟨binding, hbinding, hnewer⟩ := rebound_of_step hstep ht
  exact ⟨binding, hbinding, (hnewer prior hprior).2⟩

/-- A session that is lost while it works and recovers. -/
theorem recovery_history :
    ∃ s later, exec step [.readyAt launched ⟨1⟩, .startWork ⟨2⟩] draft = some s ∧
      exec step [.awaitRecoveryAt ⟨3⟩, .recovered { launched with generation := 2 } ⟨4⟩] s =
        some later ∧ Follows s later := by
  have hstart : Built draft := .inr ⟨draft, rfl⟩
  obtain ⟨s, hs⟩ : ∃ s, exec step [.readyAt launched ⟨1⟩, .startWork ⟨2⟩] draft = some s := ⟨_, rfl⟩
  obtain ⟨later, hlater⟩ : ∃ later, exec step
      [.awaitRecoveryAt ⟨3⟩, .recovered { launched with generation := 2 } ⟨4⟩] s = some later := by
    obtain rfl := some.inj hs
    exact ⟨_, rfl⟩
  exact ⟨s, later, hs, hlater, (history_kept hstart hs hlater).1⟩

/-- The first transition of a session with legacy timestamps, before the year 1. -/
theorem changed_before :
    Built legacyDraft ∧ ∃ last,
      exec step [.readyAt launched ⟨-62135596800000000001⟩] legacyDraft = some last ∧
        last.stateChangedAt.nanos < legacyDraft.stateChangedAt.nanos :=
  ⟨.inr ⟨legacyDraft, rfl⟩, _, rfl, by decide⟩

end Bria.Domain
