import Bria.Base.Window
import Bria.MutationScheduler.Scheduler

/-!
# The rate of mutations

The starts in every second are bounded (`starts_bounded`). A process keeps the starts of the last
second and lets a mutation start only if fewer than the limit are among them. When it starts anew it
knows no starts but the last one, from the file. It keeps the distance of 40 milliseconds to that, and
25 of these distances are a second.

A last start at the zero instant counts as none, so the clock is to be after that
(`started_at_zero`).
-/

namespace Bria.MutationScheduler

open Go Machine MutationScheduler.System List GlobalStart Window

variable {sys sys' : System} {e : Event} {m : Mutation} {now : Time}

/-! ## What a section does to the starts -/

/-- A section that records no start. -/
structure Quiet (sys sys' : System) : Prop where
  path : sys'.path = sys.path
  clock : sys.clock.nanos ≤ sys'.clock.nanos
  granted : sys'.granted = sys.granted
  last : sys'.scheduler.state.lastMutationAt = sys.scheduler.state.lastMutationAt
  starts : sys'.scheduler.globalStarts = sys.scheduler.globalStarts ∨
    sys'.scheduler.globalStarts = pruneGlobal sys'.clock sys.scheduler.globalStarts
  file : sys'.file = sys.file ∨ ∃ state, sys'.file = some state ∧
    state.lastMutationAt = sys.scheduler.state.lastMutationAt

/-- A section that records the start of a mutation, for which the waiting time is over. A lease is
returned only if the start is in the file. -/
structure Started (m : Mutation) (sys sys' : System) : Prop where
  path : sys'.path = sys.path
  clock : sys.clock.nanos ≤ sys'.clock.nanos
  due : delay sys'.clock m { sys.scheduler with
    globalStarts := pruneGlobal sys'.clock sys.scheduler.globalStarts } ≤ 0
  last : sys'.scheduler.state.lastMutationAt = sys'.clock
  starts : sys'.scheduler.globalStarts =
    pruneGlobal sys'.clock sys.scheduler.globalStarts ++ [⟨sys'.clock, m.priority⟩]
  file : sys'.file = sys.file ∨ ∃ state, sys'.file = some state ∧ state.lastMutationAt = sys'.clock
  granted : sys'.granted = sys.granted ∨
    sys'.granted = sys.granted ++ [⟨sys'.clock, m.priority⟩] ∧
      (sys.path → ∃ state, sys'.file = some state ∧ state.lastMutationAt = sys'.clock)

/-- Nothing happens to the starts. -/
theorem Quiet.refl (sys : System) : Quiet sys sys := ⟨rfl, le_rfl, rfl, rfl, .inl rfl, .inl rfl⟩

theorem persist_file (w : Write) (sys : System) :
    (sys.persist w).file = sys.file ∨ (sys.persist w).file = some sys.scheduler.state := by
  unfold persist
  split
  · exact .inr rfl
  · exact .inl rfl

theorem complete_starts (now : Time) (jitter : Int) (lease : Lease) (o : Outcome) (s : Scheduler) :
    (complete now jitter lease o s).globalStarts = s.globalStarts ∧
      (complete now jitter lease o s).state.lastMutationAt = s.state.lastMutationAt := by
  unfold complete resolve
  cases o.verdict with
  | definitive =>
    dsimp only
    split <;> exact ⟨rfl, rfl⟩
  | _ => exact ⟨rfl, rfl⟩

theorem finish_quiet (id : Nat) (lease : Lease) (o : Outcome) (w : World) (sys : System) :
    Quiet sys (sys.finish id lease o w) := by
  obtain ⟨hstarts, hlast⟩ := complete_starts w.now w.jitter lease o sys.scheduler
  unfold finish
  dsimp only
  split
  · refine ⟨rfl, le_rfl, rfl, hlast, .inl hstarts, ?_⟩
    rcases persist_file w.write { sys with
      scheduler := complete w.now w.jitter lease o sys.scheduler
      leases := sys.leases.erase id } with hfile | hfile
    · exact .inl hfile
    · exact .inr ⟨_, hfile, hlast⟩
  · exact ⟨rfl, le_rfl, rfl, hlast, .inl hstarts, .inl rfl⟩

/-- A pass that prunes, and does nothing else to the starts. -/
theorem pruned_quiet (call : Call) (calls : Map Nat Call) (sys : System) :
    Quiet sys { sys with scheduler := pruned sys.clock call sys.scheduler, calls } := by
  have hpruned : pruned sys.clock call sys.scheduler = sys.scheduler ∨
      pruned sys.clock call sys.scheduler = { sys.scheduler with
        globalStarts := pruneGlobal sys.clock sys.scheduler.globalStarts } := by
    unfold pruned
    split
    · exact .inl rfl
    split
    · exact .inl rfl
    · exact .inr rfl
  rcases hpruned with hpruned | hpruned
  · rw [hpruned]
    exact ⟨rfl, le_rfl, rfl, rfl, .inl rfl, .inl rfl⟩
  rw [hpruned]
  exact ⟨rfl, le_rfl, rfl, rfl, .inr rfl, .inl rfl⟩

variable {s : Scheduler}

/-- A pass comes to a start only when the waiting time is over. -/
theorem pass_eq_start {call : Call} {probe : Bool} (h : pass now call s = .start probe) :
    delay now call.mutation { s with globalStarts := pruneGlobal now s.globalStarts } ≤ 0 ∧
      pruned now call s = { s with globalStarts := pruneGlobal now s.globalStarts } := by
  have hpruned : pruned now call s = if call.mutation.priority ≠ .interactive && s.interactive ≠ 0
      then s else { s with globalStarts := pruneGlobal now s.globalStarts } := by
    unfold pruned
    rw [h]
  rw [hpruned]
  unfold pass at h
  dsimp only at h
  split at h
  · cases h
  split at h
  · cases h
  split at h
  · cases h
  rename_i hlock
  rw [if_neg hlock]
  split at h
  · cases h
  split at h
  · cases h
  rename_i hdelay
  exact ⟨not_lt.mp hdelay, rfl⟩

/-- The start of a mutation. -/
theorem start_started (id : Nat) (probe : Bool) (w : World) (hw : w.now = sys.clock)
    (hdue : delay sys.clock m { sys.scheduler with
      globalStarts := pruneGlobal sys.clock sys.scheduler.globalStarts } ≤ 0) :
    Started m sys (start id m probe w { sys with
      scheduler := { sys.scheduler with
        globalStarts := pruneGlobal sys.clock sys.scheduler.globalStarts } }) := by
  unfold start persists
  rw [hw]
  -- The start is in the state that is written.
  have hfile : ∀ {state : DiskState}, state.lastMutationAt = sys.clock →
      (if sys.path && w.write.lands then some state else sys.file) = sys.file ∨
        ∃ state', (if sys.path && w.write.lands then some state else sys.file) = some state' ∧
          state'.lastMutationAt = sys.clock := by
    intro state hstate
    split
    · exact .inr ⟨state, rfl, hstate⟩
    · exact .inl rfl
  split
  · rename_i hpersists
    refine ⟨rfl, le_rfl, hdue, rfl, rfl, hfile rfl, .inr ⟨rfl, fun hpath => ?_⟩⟩
    have hdone : w.write = .done := by simpa [hpath] using hpersists
    simp only [persist, hpath, hdone, Write.lands, Bool.and_self, if_true]
    exact ⟨_, rfl, rfl⟩
  · exact ⟨rfl, le_rfl, hdue, rfl, rfl, hfile rfl, .inl rfl⟩

/-- A pass of the loop records a start or nothing. -/
theorem attempt_cases (id : Nat) (call : Call) (w : World) (sys : System) (hw : w.now = sys.clock) :
    Quiet sys (sys.attempt id call w) ∨ Started call.mutation sys (sys.attempt id call w) := by
  unfold attempt
  rw [hw]
  cases hpass : pass sys.clock call sys.scheduler with
  | error e => exact .inl (pruned_quiet call _ sys)
  | wait => exact .inl (pruned_quiet call sys.calls sys)
  | start probe =>
    obtain ⟨hdue, hpruned⟩ := pass_eq_start hpass
    rw [hpruned]
    exact .inr (start_started id probe w hw hdue)

theorem timed_eq_some {next : System → System} (h : sys.timed now next = some sys') :
    sys.clock.nanos ≤ now.nanos ∧ sys' = next { sys with clock := now } := by
  unfold timed at h
  split at h
  · rename_i hclock
    exact ⟨hclock, (some.inj h).symm⟩
  · cases h

theorem Quiet.timed (hclock : sys.clock.nanos ≤ now.nanos)
    (h : Quiet { sys with clock := now } sys') : Quiet sys sys' :=
  ⟨h.path, le_trans hclock h.clock, h.granted, h.last, h.starts, h.file⟩

theorem Started.timed (hclock : sys.clock.nanos ≤ now.nanos)
    (h : Started m { sys with clock := now } sys') : Started m sys sys' :=
  ⟨h.path, le_trans hclock h.clock, h.due, h.last, h.starts, h.file, h.granted⟩

/-- Every event is a restart, records a start, or is quiet. -/
theorem step_starts (h : step e sys = some sys') :
    e = .restart ∨ Quiet sys sys' ∨ ∃ m, Started m sys sys' := by
  cases e with
  | restart => exact .inl rfl
  | enter m =>
    right; left
    simp only [step] at h
    split at h
    · cases h
    obtain rfl := some.inj h
    unfold enter
    split <;> exact ⟨rfl, le_rfl, rfl, rfl, .inl rfl, .inl rfl⟩
  | attempt id w =>
    obtain ⟨call, -, htimed⟩ := bind_eq_some_iff.mp h
    obtain ⟨hclock, rfl⟩ := timed_eq_some htimed
    rcases attempt_cases id call w { sys with clock := w.now } rfl with hquiet | hstarted
    · exact .inr (.inl (hquiet.timed hclock))
    · exact .inr (.inr ⟨_, hstarted.timed hclock⟩)
  | cancel id =>
    obtain ⟨call, -, rfl⟩ := map_eq_some_iff.mp h
    exact .inr (.inl ⟨rfl, le_rfl, rfl, rfl, .inl rfl, .inl rfl⟩)
  | release id =>
    obtain ⟨lease, -, h⟩ := bind_eq_some_iff.mp h
    split at h
    · obtain rfl := some.inj h
      exact .inr (.inl ⟨rfl, le_rfl, rfl, rfl, .inl rfl, .inl rfl⟩)
    · cases h
  | finish id o w =>
    obtain ⟨lease, -, h⟩ := bind_eq_some_iff.mp h
    split at h
    · cases h
    obtain ⟨hclock, rfl⟩ := timed_eq_some h
    exact .inr (.inl ((finish_quiet id lease o w _).timed hclock))
  | activity chatID updateID w =>
    obtain ⟨hclock, rfl⟩ := timed_eq_some h
    have hquiet : Quiet { sys with clock := w.now }
        (activity chatID updateID w.now { sys with clock := w.now }) := by
      unfold activity
      dsimp only
      split
      · exact .refl _
      · exact ⟨rfl, le_rfl, rfl, rfl, .inl rfl, .inl rfl⟩
    exact .inr (.inl (hquiet.timed hclock))
  | confirmAuthorization w =>
    obtain rfl := some.inj h
    right; left
    unfold confirmAuthorization
    split
    · refine ⟨rfl, le_rfl, rfl, rfl, .inl rfl, ?_⟩
      rcases persist_file w.write { sys with scheduler := { sys.scheduler with
        state := { sys.scheduler.state with blockedAll := false } } } with hfile | hfile
      · exact .inl hfile
      · exact .inr ⟨_, hfile, rfl⟩
    · exact .refl sys

/-! ## The starts of the last second -/

/-- The instant of a start. -/
def GlobalStart.time (g : GlobalStart) : Int := g.at_.nanos

/-- In every window of a second there are at most so many of the starts. -/
def Bounded (limit : Nat) (starts : List GlobalStart) : Prop :=
  ∀ start, count time start second starts ≤ limit

/-- Whether the pruning drops a start. -/
theorem after_cutoff (g : GlobalStart) :
    g.at_.after (now.add (-second)) ↔ now.nanos < g.time + second := by
  have hafter : g.at_.after (now.add (-second)) ↔ now.nanos + -second < g.at_.nanos :=
    decide_eq_true_iff
  rw [hafter, time]
  omega

/-- A start is kept only while it is less than a second ago. -/
theorem mem_pruneGlobal {starts : List GlobalStart}
    (hsorted : starts.Pairwise fun a b => a.time ≤ b.time) {g : GlobalStart}
    (hg : g ∈ pruneGlobal now starts) : now.nanos < g.time + second := by
  induction starts with
  | nil => cases hg
  | cons a rest ih =>
    obtain ⟨ha, hrest⟩ := pairwise_cons.mp hsorted
    unfold pruneGlobal at hg ih
    rw [dropWhile_cons] at hg
    split at hg
    · exact ih hrest hg
    -- The first start that is kept is the earliest of them.
    rename_i hkept
    have hfirst : now.nanos < a.time + second := (after_cutoff a).mp (by simpa using hkept)
    rcases mem_cons.mp hg with rfl | hg
    · exact hfirst
    have hlater := ha g hg
    omega

/-- The recent starts are among those that are kept. -/
theorem recent_pruneGlobal (now : Time) (starts : List GlobalStart) (p : GlobalStart → Bool) :
    recent time second now.nanos (starts.filter p) ≤
      ((pruneGlobal now starts).filter p).length := by
  unfold recent
  induction starts with
  | nil => exact Nat.zero_le _
  | cons a rest ih =>
    unfold pruneGlobal at ih ⊢
    rw [dropWhile_cons]
    split
    · -- A start that is dropped is not recent.
      rename_i hdropped
      have hold : ¬now.nanos < a.time + second := by
        rw [← after_cutoff]
        simpa using hdropped
      have hnot : ¬now.nanos - second < a.time := by omega
      rw [filter_cons]
      split
      · rw [countP_cons_of_neg (by simpa using hnot)]
        exact ih
      · exact ih
    · exact countP_le_length

/-- The waiting time is over when each of its parts is. -/
theorem delay_le_zero (h : delay now m s ≤ 0) :
    spacing now s.state.lastMutationAt ≤ 0 ∧ globalDelay now s.globalStarts ≤ 0 ∧
      classDelay now m.priority (classLimit m.priority) s.globalStarts ≤ 0 := by
  unfold delay at h
  simp only [max_le_iff] at h
  exact ⟨h.2.2.1, h.2.2.2.1, h.2.2.2.2.1⟩

/-- When the waiting time is over, fewer starts than the limits are kept. -/
theorem length_of_delay (hsorted : s.globalStarts.Pairwise fun a b => a.time ≤ b.time)
    (hdue : delay now m { s with globalStarts := pruneGlobal now s.globalStarts } ≤ 0) :
    (pruneGlobal now s.globalStarts).length < globalMutationLimit ∧
      ((pruneGlobal now s.globalStarts).filter fun g => g.priority = m.priority).length <
        classLimit m.priority := by
  obtain ⟨-, hglobal, hclass⟩ := delay_le_zero hdue
  -- A start that is kept is less than a second ago, so that it would have to be waited for.
  have hkept : ∀ g ∈ pruneGlobal now s.globalStarts, ¬(g.at_.add second).sub now ≤ 0 := by
    intro g hg hover
    have hrecent := mem_pruneGlobal hsorted hg
    have hover : g.time + second ≤ now.nanos := Time.sub_le_zero.mp hover
    omega
  generalize pruneGlobal now s.globalStarts = kept at hkept hglobal hclass ⊢
  refine ⟨not_le.mp fun hfull => ?_, not_le.mp fun hfull => ?_⟩
  · unfold globalDelay at hglobal
    rw [if_pos hfull] at hglobal
    have hlt : kept.length - globalMutationLimit < kept.length := by
      have hpos : 0 < globalMutationLimit := by decide
      omega
    rw [getElem?_eq_getElem hlt] at hglobal
    exact hkept _ (getElem_mem hlt) hglobal
  unfold classDelay at hclass
  have hlt : classLimit m.priority - 1 <
      (kept.reverse.filter fun g => g.priority = m.priority).length := by
    have hpos : 0 < classLimit m.priority := by
      unfold classLimit
      split <;> decide
    rw [filter_reverse, length_reverse]
    omega
  rw [getElem?_eq_getElem hlt] at hclass
  have hmem := getElem_mem hlt
  exact hkept _ (mem_reverse.mp (mem_filter.mp hmem).1) hclass

/-- All starts that were recorded while the process runs: those that are kept, after older ones. -/
structure Records (sys : System) (recorded : List GlobalStart) : Prop where
  granted : sys.granted.Sublist recorded
  kept : ∃ old, recorded = old ++ sys.scheduler.globalStarts ∧
    ∀ g ∈ old, g.time + second ≤ sys.clock.nanos
  sorted : recorded.Pairwise fun a b => a.time ≤ b.time
  past : ∀ g ∈ recorded, g.time ≤ sys.clock.nanos
  total : Bounded globalMutationLimit recorded
  class_ : ∀ p, Bounded (classLimit p) (recorded.filter fun g => g.priority = p)

variable {recorded : List GlobalStart}

section

variable (h : Records sys recorded)
include h

/-- The recent ones of all starts that were recorded are kept. -/
theorem Records.recent (hclock : sys.clock.nanos ≤ now.nanos) (p : GlobalStart → Bool) :
    recent time second now.nanos (recorded.filter p) ≤
      ((pruneGlobal now sys.scheduler.globalStarts).filter p).length := by
  obtain ⟨old, hrecorded, hold⟩ := h.kept
  have hnone : Window.recent time second now.nanos (old.filter p) = 0 := by
    refine countP_eq_zero.mpr fun g hg => ?_
    have hsecond := hold g (mem_filter.mp hg).1
    simp only [decide_eq_true_eq, not_lt]
    omega
  have hsplit : Window.recent time second now.nanos (recorded.filter p) =
      Window.recent time second now.nanos (old.filter p) +
        Window.recent time second now.nanos (sys.scheduler.globalStarts.filter p) := by
    rw [hrecorded, filter_append]
    exact countP_append
  have hrest := recent_pruneGlobal now sys.scheduler.globalStarts p
  omega

/-- The starts that are pruned away are older than a second. -/
theorem Records.prune (hclock : sys.clock.nanos ≤ now.nanos) :
    ∃ old, recorded = old ++ pruneGlobal now sys.scheduler.globalStarts ∧
      ∀ g ∈ old, g.time + second ≤ now.nanos := by
  obtain ⟨old, hrecorded, hold⟩ := h.kept
  refine ⟨old ++ sys.scheduler.globalStarts.takeWhile
    fun g => !g.at_.after (now.add (-second)), ?_, fun g hg => ?_⟩
  · rw [append_assoc, pruneGlobal, takeWhile_append_dropWhile]
    exact hrecorded
  rcases mem_append.mp hg with hg | hg
  · exact le_trans (hold g hg) hclock
  have hdropped := all_eq_true.mp all_takeWhile g hg
  rw [← not_lt, ← after_cutoff]
  simpa using hdropped

/-- A quiet section. -/
theorem Records.quiet (hquiet : Quiet sys sys') : Records sys' recorded := by
  refine ⟨hquiet.granted ▸ h.granted, ?_, h.sorted, fun g hg => le_trans (h.past g hg) hquiet.clock,
    h.total, h.class_⟩
  rcases hquiet.starts with hstarts | hstarts
  · obtain ⟨old, hrecorded, hold⟩ := h.kept
    exact ⟨old, hstarts ▸ hrecorded, fun g hg => le_trans (hold g hg) hquiet.clock⟩
  rw [hstarts]
  exact h.prune hquiet.clock

/-- A section that records a start. -/
theorem Records.started (hstarted : Started m sys sys') :
    Records sys' (recorded ++ [⟨sys'.clock, m.priority⟩]) := by
  have hsorted : sys.scheduler.globalStarts.Pairwise fun a b => a.time ≤ b.time := by
    obtain ⟨old, hrecorded, -⟩ := h.kept
    exact h.sorted.sublist (hrecorded ▸ sublist_append_right old _)
  obtain ⟨htotal, hclass⟩ := length_of_delay hsorted hstarted.due
  have hpast : ∀ g ∈ recorded, g.time ≤ sys'.clock.nanos :=
    fun g hg => le_trans (h.past g hg) hstarted.clock
  refine ⟨?_, ?_, ?_, ?_, fun start => ?_, fun p start => ?_⟩
  · rcases hstarted.granted with hgranted | ⟨hgranted, -⟩
    · rw [hgranted]
      exact h.granted.trans (sublist_append_left _ _)
    rw [hgranted]
    exact h.granted.append (List.Sublist.refl _)
  · obtain ⟨old, hrecorded, hold⟩ := h.prune hstarted.clock
    exact ⟨old, by rw [hstarted.starts, ← append_assoc, ← hrecorded], hold⟩
  · refine pairwise_append.mpr ⟨h.sorted, pairwise_singleton _ _, fun a ha b hb => ?_⟩
    rw [mem_singleton.mp hb]
    exact hpast a ha
  · intro g hg
    rcases mem_append.mp hg with hg | hg
    · exact hpast g hg
    rw [mem_singleton.mp hg]
    exact le_rfl
  · have hrecent := h.recent hstarted.clock fun _ => true
    rw [filter_true, filter_true] at hrecent
    exact count_append_le (h.total start) (lt_of_le_of_lt hrecent htotal)
  rw [filter_append]
  by_cases hp : m.priority = p
  · subst hp
    have hrecent := h.recent hstarted.clock fun g => g.priority = m.priority
    rw [filter_cons_of_pos (by simp), filter_nil]
    exact count_append_le (h.class_ _ start) (lt_of_le_of_lt hrecent hclass)
  rw [filter_cons_of_neg (by simpa using hp), filter_nil, append_nil]
  exact h.class_ p start

end

/-! ## The distance between starts -/

/-- Any two starts are 40 milliseconds apart, and the latest one is in memory and in the file. -/
structure Spaced (sys : System) : Prop where
  path : sys.path
  clock : Time.zero.nanos < sys.clock.nanos
  apart : sys.granted.Pairwise fun a b => a.time + globalStartInterval ≤ b.time
  set : ∀ g ∈ sys.granted, Time.zero.nanos < g.time
  past : ∀ g ∈ sys.granted, g.time ≤ sys.clock.nanos
  memory : ∀ g ∈ sys.granted, g.time ≤ sys.scheduler.state.lastMutationAt.nanos
  file : ∀ g ∈ sys.granted, ∃ state, sys.file = some state ∧ g.time ≤ state.lastMutationAt.nanos

/-- A quiet section. -/
theorem Spaced.quiet (h : Spaced sys) (hquiet : Quiet sys sys') : Spaced sys' := by
  refine ⟨hquiet.path.trans h.path, lt_of_lt_of_le h.clock hquiet.clock, ?_, ?_, ?_, ?_, ?_⟩
  all_goals rw [hquiet.granted]
  · exact h.apart
  · exact h.set
  · exact fun g hg => le_trans (h.past g hg) hquiet.clock
  · rw [hquiet.last]
    exact h.memory
  intro g hg
  rcases hquiet.file with hfile | ⟨state, hfile, hlast⟩
  · rw [hfile]
    exact h.file g hg
  · exact ⟨state, hfile, by rw [hlast]; exact h.memory g hg⟩

/-- A section that records a start. -/
theorem Spaced.started (h : Spaced sys) (hstarted : Started m sys sys') : Spaced sys' := by
  have hclock : Time.zero.nanos < sys'.clock.nanos := lt_of_lt_of_le h.clock hstarted.clock
  have hpast : ∀ g ∈ sys.granted, g.time ≤ sys'.clock.nanos :=
    fun g hg => le_trans (h.past g hg) hstarted.clock
  have hfile : ∀ g ∈ sys.granted, ∃ state, sys'.file = some state ∧
      g.time ≤ state.lastMutationAt.nanos := by
    intro g hg
    rcases hstarted.file with hfile | ⟨state, hfile, hlast⟩
    · rw [hfile]
      exact h.file g hg
    · exact ⟨state, hfile, by rw [hlast]; exact hpast g hg⟩
  rcases hstarted.granted with hgranted | ⟨hgranted, hwritten⟩
  · -- The start is not granted, because it could not be written.
    refine ⟨hstarted.path.trans h.path, hclock, ?_, ?_, ?_, ?_, ?_⟩
    all_goals rw [hgranted]
    · exact h.apart
    · exact h.set
    · exact hpast
    · rw [hstarted.last]
      exact hpast
    · exact hfile
  have happart : ∀ g ∈ sys.granted, g.time + globalStartInterval ≤ sys'.clock.nanos := by
    intro g hg
    -- The last start is not before this one, so that it is not the zero instant.
    have hlast := h.memory g hg
    have hset := h.set g hg
    obtain ⟨hspacing, -, -⟩ := delay_le_zero hstarted.due
    have hnonzero : sys.scheduler.state.lastMutationAt.isZero = false := by
      simp only [Time.isZero, decide_eq_false_iff_not]
      simp only [Time.zero] at hset
      omega
    simp only [spacing, hnonzero, false_eq_true, if_false] at hspacing
    have hover := Time.sub_le_zero.mp hspacing
    simp only [Time.add] at hover
    omega
  have hall : ∀ {P : GlobalStart → Prop}, (∀ g ∈ sys.granted, P g) →
      P ⟨sys'.clock, m.priority⟩ → ∀ g ∈ sys.granted ++ [⟨sys'.clock, m.priority⟩], P g := by
    intro P hbefore hnew g hg
    rcases mem_append.mp hg with hg | hg
    · exact hbefore g hg
    rw [mem_singleton.mp hg]
    exact hnew
  refine ⟨hstarted.path.trans h.path, hclock, ?_, ?_, ?_, ?_, ?_⟩
  all_goals rw [hgranted]
  · refine pairwise_append.mpr ⟨h.apart, pairwise_singleton _ _, fun a ha b hb => ?_⟩
    rw [mem_singleton.mp hb]
    exact happart a ha
  · exact hall h.set hclock
  · exact hall hpast le_rfl
  · rw [hstarted.last]
    exact hall hpast le_rfl
  obtain ⟨state, hstate, hlast⟩ := hwritten h.path
  exact hall hfile ⟨state, hstate, by rw [hlast]; exact le_rfl⟩

/-- A new process reads the last start from the file. -/
theorem Spaced.restart (h : Spaced sys)
    (hopen : openScheduler sys.path sys.file sys.clock sys.granted = some sys') : Spaced sys' := by
  obtain ⟨state, hload, rfl⟩ := map_eq_some_iff.mp hopen
  refine ⟨h.path, h.clock, h.apart, h.set, h.past, fun g hg => ?_, h.file⟩
  obtain ⟨stored, hstored, hlast⟩ := h.file g hg
  rw [h.path, if_pos rfl, hstored, load] at hload
  split at hload
  · cases hload
  obtain rfl := some.inj hload
  exact hlast

/-! ## Runs -/

/-- The starts that are granted, in every half-open window of a second. In a run of one process: at
most 25, of which at most 23 are routine and at most 24 interactive. In a run with restarts, if the
state is written to a file and the clock is after the zero instant: at most 25. -/
theorem starts_bounded {path : Bool} {file : Option DiskState} {clock : Time} {s t : System}
    {run : List Event} (hopen : openScheduler path file clock [] = some s)
    (hrun : exec step run s = some t) :
    (Event.restart ∉ run → Bounded 25 t.granted ∧
        Bounded 23 (t.granted.filter fun g => g.priority = .routine) ∧
        Bounded 24 (t.granted.filter fun g => g.priority = .interactive)) ∧
      (path → Time.zero.nanos < clock.nanos → Bounded 25 t.granted) := by
  obtain ⟨state, hload, hs⟩ := map_eq_some_iff.mp hopen
  have hgranted : s.granted = [] := by rw [← hs]
  constructor
  · intro hone
    have hstart : ∃ recorded, Records s recorded := by
      refine ⟨[], ?_, ⟨[], ?_, by simp⟩, List.Pairwise.nil, by simp, ?_, ?_⟩
      · rw [hgranted]
      · rw [← hs]
        rfl
      · exact fun start => Nat.zero_le _
      · exact fun p start => Nat.zero_le _
    obtain ⟨recorded, hrecords⟩ : ∃ recorded, Records t recorded := by
      refine exec_keeps (P := fun sys => ∃ recorded, Records sys recorded) ?_
        (along_of_forall (p := fun e => e ≠ .restart) ?_ s) hrun hstart
      · rintro e sys sys' hone hstep ⟨recorded, hrecords⟩
        rcases step_starts hstep with hrestart | hquiet | ⟨m, hstarted⟩
        · exact absurd hrestart hone
        · exact ⟨recorded, hrecords.quiet hquiet⟩
        · exact ⟨_, hrecords.started hstarted⟩
      rintro e he rfl
      exact hone he
    refine ⟨fun start => ?_, fun start => ?_, fun start => ?_⟩
    · exact le_trans (count_le_of_sublist hrecords.granted) (hrecords.total start)
    · exact le_trans (count_le_of_sublist (hrecords.granted.filter _))
        (hrecords.class_ .routine start)
    exact le_trans (count_le_of_sublist (hrecords.granted.filter _))
      (hrecords.class_ .interactive start)
  · intro hpath hclock
    have hstart : Spaced s := by
      have hnone : ∀ {P : GlobalStart → Prop}, ∀ g ∈ s.granted, P g := by simp [hgranted]
      refine ⟨by rw [← hs]; exact hpath, by rw [← hs]; exact hclock, ?_, hnone, hnone, hnone, hnone⟩
      rw [hgranted]
      exact .nil
    have hspaced : Spaced t := by
      refine exec_invariant (fun e sys sys' hstep hsys => ?_) hrun hstart
      rcases step_starts hstep with rfl | hquiet | ⟨m, hstarted⟩
      · exact hsys.restart hstep
      · exact hsys.quiet hquiet
      · exact hsys.started hstarted
    intro start
    have hgap : 0 < globalStartInterval := by decide
    -- A second is 25 of the distances.
    have hsecond : second = (25 : Nat) * globalStartInterval := by decide
    rw [hsecond]
    exact count_le_of_gap hgap hspaced.apart

/-- A routine mutation. -/
def routine : Mutation := { method := ofText "sendMessage" }

/-- An interactive mutation. -/
def tapped : Mutation := { method := ofText "sendMessage", priority := .interactive }

/-- A call of `Acquire` with this number, whose first pass is at an instant. -/
def acquire (m : Mutation) (id : Nat) (now : Time) : List Event := [.enter m, .attempt id { now }]

/-- A routine mutation, and an interactive one 40 milliseconds later, before or after a restart. -/
theorem two_starts_bounded :
    (∃ s t, openScheduler true none ⟨0⟩ [] = some s ∧
        exec step (acquire routine 1 ⟨0⟩ ++ acquire tapped 2 ⟨40000000⟩) s = some t ∧
        t.granted.length = 2 ∧ Bounded 25 t.granted ∧
        Bounded 23 (t.granted.filter fun g => g.priority = .routine) ∧
        Bounded 24 (t.granted.filter fun g => g.priority = .interactive)) ∧
      ∃ s t, openScheduler true none ⟨0⟩ [] = some s ∧
        exec step (acquire routine 1 ⟨0⟩ ++ .restart :: acquire tapped 1 ⟨40000000⟩) s =
          some t ∧ t.granted.length = 2 ∧ Bounded 25 t.granted := by
  have hopen : openScheduler true none ⟨0⟩ [] =
      some { path := true, scheduler := { state := {} }, clock := ⟨0⟩ } := rfl
  obtain ⟨t, hrun, hlength⟩ : ∃ t, exec step
      (acquire routine 1 ⟨0⟩ ++ acquire tapped 2 ⟨40000000⟩)
      { path := true, scheduler := { state := {} }, clock := ⟨0⟩ } = some t ∧ t.granted.length = 2 :=
    ⟨_, rfl, rfl⟩
  obtain ⟨t', hrun', hlength'⟩ : ∃ t, exec step
      (acquire routine 1 ⟨0⟩ ++ .restart :: acquire tapped 1 ⟨40000000⟩)
      { path := true, scheduler := { state := {} }, clock := ⟨0⟩ } = some t ∧ t.granted.length = 2 :=
    ⟨_, rfl, rfl⟩
  exact ⟨⟨_, t, hopen, hrun, hlength, (starts_bounded hopen hrun).1 (by simp [acquire])⟩,
    _, t', hopen, hrun', hlength', (starts_bounded hopen hrun').2 rfl (by decide)⟩

/-- A routine mutation and 24 interactive ones, all at once. -/
def burst (now : Time) : List Event :=
  acquire routine 1 now ++ (List.range 24).flatMap fun i => acquire tapped (i + 2) now

/-- At the zero instant one more mutation starts after a restart. -/
theorem started_at_zero :
    ∃ s t, openScheduler true none .zero [] = some s ∧
      exec step (burst .zero ++ .restart :: acquire routine 1 .zero) s = some t ∧
      count time Time.zero.nanos second t.granted = 26 := by
  refine ⟨_, _, rfl, rfl, ?_⟩
  decide +kernel

end Bria.MutationScheduler
