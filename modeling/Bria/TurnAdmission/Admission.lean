import Bria.Base.Machine

/-!
# The admission of turns

`internal/turnadmission`: a new root waits until the admission before it is sealed and all commits
that were registered with it have finished. Every method holds the mutex, so it is one step. `Wait`
does not: it sees the channel closed in one step and reads the result in a later one.

Tickets are numbered in the order of their registration, and the first is the root's. Closing a
channel twice panics, so the model counts how often it is closed.
-/

namespace Bria.TurnAdmission

open Machine List Option

/-- `Admission`: for each ticket whether it is finished. -/
structure Admission where
  closes : Nat := 0
  pending : Int := 1
  sealed : Bool := false
  failed : Bool := false
  tickets : List Bool := [false]

/-- `settleLocked`. -/
def settleLocked (a : Admission) : Admission :=
  if a.sealed && a.pending = 0 then { a with closes := a.closes + 1 } else a

/-- `RegisterSteer`: the number of the ticket, none if there is none. -/
def registerSteer (a : Admission) : Option Nat × Admission :=
  if a.sealed then (none, a)
  else (some a.tickets.length,
    { a with pending := a.pending + 1, tickets := a.tickets ++ [false] })

/-- `Seal`. -/
def sealAdmission (a : Admission) : Admission :=
  if a.sealed then a else settleLocked { a with sealed := true }

/-- `Finish` of a ticket, with an error or without; that of the first is `FinishRoot`. -/
def finish (ticket : Nat) (err : Bool) (a : Admission) : Option Admission :=
  (a.tickets[ticket]?).map fun finished =>
    if finished then a
    else settleLocked { a with
      tickets := a.tickets.set ticket true
      failed := a.failed || err
      pending := a.pending - 1 }

/-- Where a call of `Wait` is. -/
inductive Waiter where
  /-- Before the first `select`. -/
  | polling
  /-- In the second `select`. -/
  | blocked
  /-- The context has ended, before the last `select`. -/
  | canceled
  /-- The channel was closed, before `result`. -/
  | settled
  /-- Whether `result` was `ErrCommitFailed`; none is the context's error. -/
  | returned (failure : Option Bool)

/-- One step of `Wait`. The second `select` may take the context's branch whenever the context has
ended. -/
def Waiter.advance (closed failed ended : Bool) : Waiter → Option Waiter
  | .polling => some (if closed then .settled else .blocked)
  | .blocked => if ended then some .canceled else if closed then some .settled else none
  | .canceled => some (if closed then .settled else .returned none)
  | .settled => some (.returned (some failed))
  | .returned _ => none

/-- An admission and the calls of `Wait`. -/
structure System where
  admission : Admission := {}
  waiters : List Waiter := []

/-- What happens to an admission. -/
inductive Event where
  | registerSteer
  | sealAdmission
  | finish (ticket : Nat) (err : Bool)
  | wait
  | advance (waiter : Nat) (ended : Bool)

/-- An event, none if there is no such ticket or waiter, or if the waiter blocks. -/
def step (e : Event) (s : System) : Option System :=
  match e with
  | .registerSteer => some { s with admission := (registerSteer s.admission).2 }
  | .sealAdmission => some { s with admission := sealAdmission s.admission }
  | .finish ticket err => (finish ticket err s.admission).map fun a => { s with admission := a }
  | .wait => some { s with waiters := s.waiters ++ [.polling] }
  | .advance waiter ended =>
    (s.waiters[waiter]?).bind fun w =>
      (w.advance (0 < s.admission.closes) s.admission.failed ended).map fun w' =>
        { s with waiters := s.waiters.set waiter w' }

/-- The error that an event finishes a ticket with. -/
def Event.finishes (ticket : Nat) : Event → Option Bool
  | .finish finished err => if finished = ticket then some err else none
  | _ => none

/-- Whether the first `Finish` of a ticket carried an error, none if there was no `Finish`. -/
def firstFinish (ticket : Nat) (events : List Event) : Option Bool :=
  events.findSome? (Event.finishes ticket)

variable {a a' : Admission} {s s' : System} {e : Event} {events : List Event} {ticket : Nat}

theorem firstFinish_append :
    firstFinish ticket (events ++ [e]) = (firstFinish ticket events).or (e.finishes ticket) := by
  simp only [firstFinish, findSome?_append, findSome?_cons, findSome?_nil]
  cases e.finishes ticket <;> rfl

/-- What the fields of the admission say of the events so far. -/
structure Counts (events : List Event) (a : Admission) : Prop where
  pending : a.pending = a.tickets.count false
  sealed : a.sealed ↔ .sealAdmission ∈ events
  finished : ∀ ticket, (firstFinish ticket events).isSome ↔ a.tickets[ticket]? = some true
  failed : a.failed ↔ ∃ ticket, firstFinish ticket events = some true

/-- What the channel and the calls of `Wait` say besides. -/
structure Tracks (events : List Event) (s : System) : Prop extends Counts events s.admission where
  closes : s.admission.closes = if s.admission.sealed && s.admission.pending = 0 then 1 else 0
  settled : .settled ∈ s.waiters → 0 < s.admission.closes
  returned : ∀ failure, .returned (some failure) ∈ s.waiters →
    0 < s.admission.closes ∧ failure = s.admission.failed

/-- No ticket is pending exactly if every ticket has its first `Finish`. -/
theorem Counts.pending_eq_zero_iff (h : Counts events a) :
    a.pending = 0 ↔ ∀ ticket < a.tickets.length, (firstFinish ticket events).isSome := by
  simp only [h.pending, h.finished, Int.natCast_eq_zero, count_eq_zero]
  constructor
  · intro hmem ticket hlt
    rw [getElem?_eq_getElem hlt]
    cases hcase : a.tickets[ticket] with
    | false => exact absurd (hcase ▸ getElem_mem hlt) hmem
    | true => rfl
  intro hall hmem
  obtain ⟨ticket, hlt, hcase⟩ := getElem_of_mem hmem
  have htrue := hall ticket hlt
  rw [getElem?_eq_getElem hlt, hcase] at htrue
  cases htrue

theorem Tracks.closed_iff (h : Tracks events s) :
    0 < s.admission.closes ↔ s.admission.sealed ∧ s.admission.pending = 0 := by
  rw [h.closes]
  split <;> simp_all

/-- While the channel is open no call of `Wait` has seen it closed, so the fields may change and be
settled again. -/
theorem Tracks.settle (h : Tracks events s) (hopen : ¬0 < s.admission.closes)
    {after : List Event} (hcounts : Counts after a) (hcloses : a.closes = s.admission.closes) :
    Tracks after { s with admission := settleLocked a } := by
  have hzero : a.closes = 0 := by omega
  have hsettled : .settled ∉ s.waiters := fun hw => hopen (h.settled hw)
  have hreturned : ∀ failure, .returned (some failure) ∉ s.waiters :=
    fun failure hw => hopen (h.returned failure hw).1
  unfold settleLocked
  split
  next hall =>
    refine ⟨{ hcounts with }, ?_, fun hw => absurd hw hsettled,
      fun failure hw => absurd hw (hreturned failure)⟩
    simp only [hall, hzero, if_true]
  next hall =>
    refine ⟨hcounts, ?_, fun hw => absurd hw hsettled,
      fun failure hw => absurd hw (hreturned failure)⟩
    rw [if_neg hall]
    exact hzero

/-- An event that changes no first `Finish`. -/
theorem Tracks.idle (h : Tracks events s)
    (hfirst : ∀ ticket, e.finishes ticket = none ∨ (firstFinish ticket events).isSome)
    (hseal : e = .sealAdmission → s.admission.sealed) : Tracks (events ++ [e]) s := by
  have hsame : ∀ ticket, firstFinish ticket (events ++ [e]) = firstFinish ticket events := by
    intro ticket
    rw [firstFinish_append]
    rcases hfirst ticket with hnone | hsome
    · rw [hnone, or_none]
    · rw [or_of_isSome hsome]
  refine { h with sealed := ?_, finished := ?_, failed := ?_ }
  · rw [mem_append, mem_singleton, h.sealed]
    exact ⟨Or.inl, fun hmem => hmem.elim id fun he => h.sealed.mp (hseal he.symm)⟩
  · simpa only [hsame] using h.finished
  · simpa only [hsame] using h.failed

theorem Tracks.registerSteer (h : Tracks events s) :
    Tracks (events ++ [.registerSteer]) { s with admission := (registerSteer s.admission).2 } := by
  have hidle : Tracks (events ++ [.registerSteer]) s := h.idle (fun _ => .inl rfl) (by simp)
  unfold TurnAdmission.registerSteer
  split
  next => exact hidle
  next hsealed =>
    have hcounts : Counts (events ++ [.registerSteer]) { s.admission with
        pending := s.admission.pending + 1, tickets := s.admission.tickets ++ [false] } := by
      refine ⟨?_, hidle.sealed, fun ticket => ?_, hidle.failed⟩
      · simp only [h.pending, count_append, count_singleton_self, Int.natCast_add]
        rfl
      rw [hidle.finished]
      grind
    have hsettle := h.settle (fun hc => hsealed (h.closed_iff.mp hc).1) hcounts rfl
    rwa [settleLocked, if_neg (by simp [hsealed])] at hsettle

theorem Tracks.sealAdmission (h : Tracks events s) :
    Tracks (events ++ [.sealAdmission]) { s with admission := sealAdmission s.admission } := by
  unfold TurnAdmission.sealAdmission
  split
  next hsealed => exact h.idle (fun _ => .inl rfl) fun _ => hsealed
  next hsealed =>
    refine h.settle (fun hc => hsealed (h.closed_iff.mp hc).1) ⟨h.pending, by simp, ?_, ?_⟩ rfl
    · simpa only [firstFinish_append, Event.finishes, or_none] using h.finished
    · simpa only [firstFinish_append, Event.finishes, or_none] using h.failed

/-- Only the first `Finish` of a ticket counts. A ticket that is not finished keeps the channel
open. -/
theorem Tracks.finish {err : Bool} (h : Tracks events s)
    (hfinish : finish ticket err s.admission = some a) :
    Tracks (events ++ [.finish ticket err]) { s with admission := a } := by
  obtain ⟨finished, hticket, rfl⟩ := map_eq_some_iff.mp hfinish
  have hlt := (List.getElem?_eq_some_iff.mp hticket).1
  split
  next hdone =>
    refine h.idle (fun other => ?_) (by simp)
    by_cases hother : ticket = other
    · exact .inr (hother ▸ (h.finished ticket).mpr (hdone ▸ hticket))
    · exact .inl (if_neg hother)
  next hdone =>
    obtain rfl := Bool.eq_false_iff.mpr hdone
    have hnone : firstFinish ticket events = none := by
      have hsome := h.finished ticket
      simpa [hticket] using hsome
    -- The ticket itself is still pending, so the channel cannot have been closed.
    have hopen : ¬0 < s.admission.closes := fun hc => by
      have hsome := h.pending_eq_zero_iff.mp (h.closed_iff.mp hc).2 ticket hlt
      simp [hnone] at hsome
    refine h.settle hopen ⟨?_, by simp [h.sealed], fun other => ?_, ?_⟩ rfl
    · have hcount := count_set (a := true) (b := false) hlt
      have hpos := count_pos_iff.mpr (mem_of_getElem? hticket)
      rw [getElem?_eq_getElem hlt, some_inj] at hticket
      simp only [h.pending, hcount, hticket]
      grind
    · rw [firstFinish_append, isSome_or, Bool.or_eq_true, h.finished]
      grind [Event.finishes]
    rw [Bool.or_eq_true, h.failed]
    simp only [firstFinish_append, Event.finishes]
    grind

/-- A call of `Wait` goes on. It reads the result only when the channel is closed. -/
theorem Tracks.advance {w w' : Waiter} {waiter : Nat} {ended : Bool} (h : Tracks events s)
    (hw : s.waiters[waiter]? = some w)
    (hadvance : w.advance (0 < s.admission.closes) s.admission.failed ended = some w') :
    Tracks (events ++ [.advance waiter ended]) { s with waiters := s.waiters.set waiter w' } := by
  refine ⟨(h.idle (fun _ => .inl rfl) (by simp)).toCounts, h.closes, fun hmem => ?_,
    fun failure hmem => ?_⟩
  · rcases mem_or_eq_of_mem_set hmem with hmem | rfl
    · exact h.settled hmem
    · cases w <;> grind [Waiter.advance]
  rcases mem_or_eq_of_mem_set hmem with hmem | rfl
  · exact h.returned failure hmem
  -- The result is read in a later step, but nothing changes it once the channel is closed.
  have hsettled : w = .settled → 0 < s.admission.closes :=
    fun hcase => h.settled (hcase ▸ mem_of_getElem? hw)
  cases w <;> grind [Waiter.advance]

/-- One event. -/
theorem Tracks.step (h : Tracks events s) (hstep : step e s = some s') :
    Tracks (events ++ [e]) s' := by
  cases e with
  | registerSteer => exact some.inj hstep ▸ h.registerSteer
  | sealAdmission => exact some.inj hstep ▸ h.sealAdmission
  | finish ticket err =>
    obtain ⟨a, hfinish, rfl⟩ := map_eq_some_iff.mp hstep
    exact h.finish hfinish
  | wait =>
    obtain rfl := some.inj hstep
    exact ⟨(h.idle (fun _ => .inl rfl) (by simp)).toCounts, h.closes, by simpa using h.settled,
      by simpa using h.returned⟩
  | advance waiter ended =>
    obtain ⟨w, hw, hmap⟩ := bind_eq_some_iff.mp hstep
    obtain ⟨w', hadvance, rfl⟩ := map_eq_some_iff.mp hmap
    exact h.advance hw hadvance

/-- A run of events. -/
theorem Tracks.run {more : List Event} (h : Tracks events s)
    (hrun : exec TurnAdmission.step more s = some s') : Tracks (events ++ more) s' := by
  -- The events so far grow at their end, as the invariant speaks of first finishes.
  induction more generalizing events s with
  | nil =>
    obtain rfl := some.inj hrun
    rwa [append_nil]
  | cons e more ih =>
    obtain ⟨s1, hstep, hrest⟩ := exec_cons.mp hrun
    rw [append_cons]
    exact ih (h.step hstep) hrest

/-- A new admission. -/
theorem tracks_new : Tracks [] {} := by
  refine ⟨⟨rfl, by simp, fun ticket => ?_, by simp [firstFinish]⟩, rfl, by simp, by simp⟩
  cases ticket <;> simp [firstFinish]

/-- However the calls interleave, the channel is closed at most once, and it is closed exactly when
the admission is sealed and each ticket, the root's included, has finished. A sealed admission
registers nothing, and a `Wait` that saw the channel closed reports a failure exactly if the first
`Finish` of some ticket carried an error. -/
theorem wait_reports_first_finishes (h : exec step events {} = some s) :
    s.admission.closes ≤ 1 ∧
    (0 < s.admission.closes ↔ .sealAdmission ∈ events ∧
      ∀ ticket < s.admission.tickets.length, (firstFinish ticket events).isSome) ∧
    (.sealAdmission ∈ events → registerSteer s.admission = (none, s.admission)) ∧
    ∀ failure, .returned (some failure) ∈ s.waiters →
      (failure = true ↔ ∃ ticket, firstFinish ticket events = some true) := by
  have htracks : Tracks events s := tracks_new.run h
  refine ⟨?_, ?_, fun hseal => ?_, fun failure hw => ?_⟩
  · rw [htracks.closes]
    split <;> omega
  · rw [htracks.closed_iff, htracks.sealed, htracks.pending_eq_zero_iff]
  · rw [registerSteer, if_pos (htracks.sealed.mpr hseal)]
  · rw [(htracks.returned failure hw).2, htracks.failed]

/-- A steer fails after the root has finished, and its second `Finish` does not count. -/
theorem wait_reports_failed_steer :
    ∃ events s, exec step events {} = some s ∧ .returned (some true) ∈ s.waiters ∧
      ∃ ticket, firstFinish ticket events = some true := by
  have hrun : exec step [.wait, .registerSteer, .finish 0 false, .finish 1 true, .finish 1 false,
      .sealAdmission, .advance 0 false, .advance 0 false] {} =
        some ⟨⟨1, 0, true, true, [true, true]⟩, [.returned (some true)]⟩ := rfl
  have hw : .returned (some true) ∈ [Waiter.returned (some true)] := mem_singleton_self _
  exact ⟨_, _, hrun, hw, ((wait_reports_first_finishes hrun).2.2.2 true hw).mp rfl⟩

end Bria.TurnAdmission
