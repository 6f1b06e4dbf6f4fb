import Bria.MutationScheduler.Rate

/-!
# Cooldowns and older leases

A definitive answer clears a cooldown if the epoch is still the one in which the lease was acquired.
Every cooldown that is entered or extended begins another epoch, so a lease from before it leaves it
alone. A probe is the exception: its answer clears whatever cooldown there is, also one that another
lease entered while the probe was out (`cooldown_kept_iff`, `probe_clears_later_cooldown`).
-/

namespace Bria.MutationScheduler

open Go Machine MutationScheduler.System

variable {sys sys' s t : System} {e : Event} {id : Nat} {lease : Lease} {w : World}
  {run : List Event}

/-! ## Epochs -/

/-- The verdicts for which `complete` enters or extends a cooldown. -/
def Verdict.limits : Verdict → Bool
  | .rateLimited | .serverError | .transportError => true
  | _ => false

/-- The event is a completion that enters or extends a cooldown. -/
def Event.EntersCooldown : Event → Prop
  | .finish _ o _ => o.verdict.limits
  | _ => False

/-- What `complete` does to the epoch and the numbers of calls. -/
theorem complete_same (now : Time) (jitter : Int) (lease : Lease) (o : Outcome) (s : Scheduler) :
    ((complete now jitter lease o s).epoch = s.epoch + 1 ∨
      (complete now jitter lease o s).epoch = s.epoch ∧ o.verdict.limits = false) ∧
    (complete now jitter lease o s).nextWaiterID = s.nextWaiterID := by
  unfold complete resolve
  cases hverdict : o.verdict with
  | definitive =>
    dsimp only
    split <;> exact ⟨.inr ⟨rfl, rfl⟩, rfl⟩
  | canceled => exact ⟨.inr ⟨rfl, rfl⟩, rfl⟩
  | _ => exact ⟨.inl rfl, rfl⟩

/-- What the section of `Complete` does to the scheduler. -/
theorem finish_scheduler (id : Nat) (lease : Lease) (o : Outcome) (w : World) (sys : System) :
    (sys.finish id lease o w).scheduler = complete w.now w.jitter lease o sys.scheduler ∧
      (sys.finish id lease o w).leases = sys.leases.erase id ∧
      (sys.finish id lease o w).calls = sys.calls := by
  unfold finish
  dsimp only
  split <;> exact ⟨rfl, rfl, rfl⟩

theorem finish_eq_some {o : Outcome} (h : step (.finish id o w) sys = some sys') :
    ∃ lease, sys.leases.lookup id = some lease ∧
      sys' = finish id lease o w { sys with clock := w.now } := by
  obtain ⟨lease, hlease, h⟩ := bind_eq_some_iff.mp h
  split at h
  · cases h
  · exact ⟨lease, hlease, (timed_eq_some h).2⟩

/-- What a section does to the epoch, the calls and the leases. The epoch stays or is the next one; a
call is an old one or gets a new number; a lease is an old one, or it is that of a call and has the
present epoch. -/
structure Worked (e : Event) (sys sys' : System) : Prop where
  epoch : sys'.scheduler.epoch = sys.scheduler.epoch + 1 ∨
    sys'.scheduler.epoch = sys.scheduler.epoch ∧ ¬e.EntersCooldown
  number : sys.scheduler.nextWaiterID ≤ sys'.scheduler.nextWaiterID
  calls : ∀ id, sys.calls.lookup id = none → sys'.calls.lookup id = none ∨
    sys.scheduler.nextWaiterID < id ∧ id ≤ sys'.scheduler.nextWaiterID
  leases : ∀ id lease', sys'.leases.lookup id = some lease' →
    (sys.calls.lookup id ≠ none ∧ sys'.calls.lookup id = none ∧
      lease'.epoch = sys'.scheduler.epoch) ∨
    ∃ lease, sys.leases.lookup id = some lease ∧ lease'.epoch = lease.epoch ∧
      lease'.probe = lease.probe

/-- A section that has nothing to do with the epoch, and after which there are no other calls and
leases. -/
theorem Worked.of_same (hepoch : sys'.scheduler.epoch = sys.scheduler.epoch)
    (hnumber : sys'.scheduler.nextWaiterID = sys.scheduler.nextWaiterID) (he : ¬e.EntersCooldown)
    (hcalls : ∀ id, sys.calls.lookup id = none → sys'.calls.lookup id = none)
    (hleases : sys'.leases = sys.leases) : Worked e sys sys' :=
  ⟨.inr ⟨hepoch, he⟩, hnumber.ge, fun id hid => .inl (hcalls id hid),
    fun _ lease' h => .inr ⟨lease', hleases ▸ h, rfl, rfl⟩⟩

theorem lookup_erase_none {K V : Type} [DecidableEq K] {m : Map K V} {k : K} (k' : K)
    (h : m.lookup k = none) : (m.erase k').lookup k = none := by
  rw [lookup_erase]
  split
  · rfl
  · exact h

/-- The pruning touches only the starts. -/
theorem pruned_same (now : Time) (call : Call) (s : Scheduler) :
    (pruned now call s).epoch = s.epoch ∧ (pruned now call s).nextWaiterID = s.nextWaiterID := by
  unfold pruned
  split
  · exact ⟨rfl, rfl⟩
  split <;> exact ⟨rfl, rfl⟩

theorem attempt_worked {call : Call} (hcall : sys.calls.lookup id = some call) :
    Worked (.attempt id w) sys (sys.attempt id call w) := by
  obtain ⟨hepoch, hnumber⟩ := pruned_same w.now call sys.scheduler
  have hquiet : ¬(Event.attempt id w).EntersCooldown := fun h => h
  unfold attempt
  cases pass w.now call sys.scheduler with
  | error e => exact .of_same hepoch hnumber hquiet (fun _ => lookup_erase_none id) rfl
  | wait => exact .of_same hepoch hnumber hquiet (fun _ hnone => hnone) rfl
  | start probe =>
    dsimp only
    unfold start
    split
    · refine ⟨.inr ⟨hepoch, hquiet⟩, hnumber.ge, fun _ hnone => .inl (lookup_erase_none id hnone),
        fun id' lease' hlease => ?_⟩
      change (sys.leases.insert id _).lookup id' = some lease' at hlease
      rw [lookup_insert] at hlease
      split at hlease
      · -- The new lease is the one of this call.
        rename_i hid
        subst hid
        obtain rfl := some.inj hlease
        refine .inl ⟨by rw [hcall]; simp, ?_, rfl⟩
        change (sys.calls.erase _).lookup _ = none
        rw [lookup_erase, if_pos rfl]
      · exact .inr ⟨lease', hlease, rfl, rfl⟩
    · exact .of_same hepoch hnumber hquiet (fun _ => lookup_erase_none id) rfl

/-- Every event is a restart or a section of this kind. -/
theorem step_worked (h : step e sys = some sys') : e = .restart ∨ Worked e sys sys' := by
  cases e with
  | restart => exact .inl rfl
  | enter m =>
    simp only [step] at h
    split at h
    · cases h
    obtain rfl := some.inj h
    right
    have hcalls : ∀ (call : Call) (id : Nat), sys.calls.lookup id = none →
        (sys.calls.insert (sys.scheduler.nextWaiterID + 1) call).lookup id = none ∨
          sys.scheduler.nextWaiterID < id ∧ id ≤ sys.scheduler.nextWaiterID + 1 := by
      intro call id hnone
      rw [lookup_insert]
      split
      · exact .inr (by omega)
      · exact .inl hnone
    unfold enter
    split <;> exact ⟨.inr ⟨rfl, fun h => h⟩, le_succ _, hcalls _,
      fun id lease' hlease => .inr ⟨lease', hlease, rfl, rfl⟩⟩
  | attempt id w =>
    obtain ⟨call, hcall, htimed⟩ := bind_eq_some_iff.mp h
    obtain ⟨-, rfl⟩ := timed_eq_some htimed
    have hworked : Worked (.attempt id w) { sys with clock := w.now } _ := attempt_worked hcall
    exact .inr ⟨hworked.epoch, hworked.number, hworked.calls, hworked.leases⟩
  | cancel id =>
    obtain ⟨call, -, rfl⟩ := map_eq_some_iff.mp h
    exact .inr (.of_same rfl rfl (fun h => h) (fun _ => lookup_erase_none id) rfl)
  | release id =>
    obtain ⟨lease, hlease, h⟩ := bind_eq_some_iff.mp h
    split at h
    · obtain rfl := some.inj h
      refine .inr ⟨.inr ⟨rfl, fun h => h⟩, le_rfl, fun _ hnone => .inl hnone, ?_⟩
      intro id' lease' hlease'
      right
      rw [lookup_insert] at hlease'
      split at hlease'
      · rename_i hid
        subst hid
        obtain rfl := some.inj hlease'
        exact ⟨lease, hlease, rfl, rfl⟩
      · exact ⟨lease', hlease', rfl, rfl⟩
    · cases h
  | finish id o w =>
    obtain ⟨lease, -, rfl⟩ := finish_eq_some h
    obtain ⟨hscheduler, hleases, hcalls⟩ :=
      finish_scheduler id lease o w { sys with clock := w.now }
    obtain ⟨hepoch, hnumber⟩ := complete_same w.now w.jitter lease o sys.scheduler
    refine .inr ⟨?_, ?_, fun _ hnone => .inl ?_, fun id' lease' hlease' => .inr ?_⟩
    · rw [hscheduler]
      exact hepoch.imp_right fun h => ⟨h.1, fun henters => by
        simp [Event.EntersCooldown, h.2] at henters⟩
    · rw [hscheduler]
      exact hnumber.ge
    · rw [hcalls]
      exact hnone
    rw [hleases, lookup_erase] at hlease'
    split at hlease'
    · cases hlease'
    · exact ⟨lease', hlease', rfl, rfl⟩
  | activity chatID updateID w =>
    obtain ⟨-, rfl⟩ := timed_eq_some h
    right
    unfold activity
    dsimp only
    split <;> exact .of_same rfl rfl (fun h => h) (fun _ h => h) rfl
  | confirmAuthorization w =>
    obtain rfl := some.inj h
    right
    unfold confirmAuthorization
    split <;> exact .of_same rfl rfl (fun h => h) (fun _ h => h) rfl

/-! ## Runs of one process -/

/-- Every call in its loop has a number that was given out. -/
def Numbered (sys : System) : Prop :=
  ∀ id, sys.scheduler.nextWaiterID < id → sys.calls.lookup id = none

/-- The numbers of calls in every run, also across restarts. -/
theorem numbered_of_exec {path : Bool} {file : Option DiskState} {clock : Time}
    (hopen : openScheduler path file clock [] = some s) (hrun : exec step run s = some t) :
    Numbered t := by
  have hempty : ∀ {path file clock granted} {s : System},
      openScheduler path file clock granted = some s → Numbered s := by
    intro path file clock granted s hopen id _
    obtain ⟨state, -, rfl⟩ := map_eq_some_iff.mp hopen
    rfl
  refine exec_invariant (P := Numbered) (fun e sys sys' hstep hsys => ?_) hrun (hempty hopen)
  rcases step_worked hstep with rfl | hworked
  · exact hempty hstep
  intro id hid
  have hnumber := hworked.number
  rcases hworked.calls id (hsys id (by omega)) with hnone | ⟨-, hold⟩
  · exact hnone
  · omega

/-- The lease under a number, if it is still out, is this one. The number is not given out again. -/
structure Held (id : Nat) (lease : Lease) (sys : System) : Prop where
  number : id ≤ sys.scheduler.nextWaiterID
  call : sys.calls.lookup id = none
  lease : ∀ lease', sys.leases.lookup id = some lease' →
    lease'.epoch = lease.epoch ∧ lease'.probe = lease.probe

theorem Held.worked (h : Held id lease sys) (hworked : Worked e sys sys') : Held id lease sys' := by
  refine ⟨le_trans h.number hworked.number, ?_, fun lease' hlease' => ?_⟩
  · rcases hworked.calls id h.call with hnone | ⟨hnew, -⟩
    · exact hnone
    · exact absurd hnew (not_lt.mpr h.number)
  rcases hworked.leases id lease' hlease' with ⟨hcall, -⟩ | ⟨lease0, hlease0, hepoch, hprobe⟩
  · exact absurd h.call hcall
  obtain ⟨hepoch0, hprobe0⟩ := h.lease lease0 hlease0
  exact ⟨hepoch.trans hepoch0, hprobe.trans hprobe0⟩

/-- A run of one process begins at most one epoch with each section, and one with each cooldown that
it enters. -/
theorem epoch_of_exec (hone : Event.restart ∉ run) (hrun : exec step run s = some t) :
    ∃ k, k ≤ run.length ∧ ((∃ e ∈ run, e.EntersCooldown) → 0 < k) ∧
      t.scheduler.epoch.toNat = (s.scheduler.epoch.toNat + k) % UInt64.size := by
  induction run generalizing s with
  | nil =>
    obtain rfl := some.inj hrun
    exact ⟨0, le_rfl, by simp, (Nat.mod_eq_of_lt s.scheduler.epoch.toNat_lt).symm⟩
  | cons e rest ih =>
    obtain ⟨s1, hfirst, hrest⟩ := exec_cons.mp hrun
    rw [mem_cons, not_or] at hone
    obtain ⟨k, hk, henters, hepoch⟩ := ih hone.2 hrest
    rcases step_worked hfirst with hrestart | hworked
    · exact absurd hrestart.symm hone.1
    rcases hworked.epoch with hnext | ⟨hsame, hquiet⟩
    · refine ⟨k + 1, Nat.succ_le_succ hk, fun _ => Nat.succ_pos k, ?_⟩
      rw [hepoch, hnext, UInt64.toNat_add, UInt64.toNat_one, UInt64.size]
      omega
    refine ⟨k, le_succ_of_le hk, ?_, by rw [hepoch, hsame]⟩
    rintro ⟨e', he', hcooldown⟩
    rcases mem_cons.mp he' with rfl | he'
    · exact absurd hcooldown hquiet
    · exact henters ⟨e', he', hcooldown⟩

/-! ## Completions -/

/-- A cooldown that is neither cleared nor shortened. -/
def CooldownKept (sys sys' : System) : Prop :=
  sys.scheduler.state.cooldownUntil.nanos ≤ sys'.scheduler.state.cooldownUntil.nanos ∧
    (sys.scheduler.state.probeRequired → sys'.scheduler.state.probeRequired)

/-- There is something that can be cleared. -/
def CooldownSet (sys : System) : Prop :=
  Time.zero.nanos < sys.scheduler.state.cooldownUntil.nanos ∨ sys.scheduler.state.probeRequired

/-- A cooldown is entered at the end of the present one or later. -/
theorem enterCooldown_kept (now : Time) (wait : Int) (cause : GoString) (s : Scheduler) :
    s.state.cooldownUntil.nanos ≤ (enterCooldown now wait cause s).state.cooldownUntil.nanos := by
  unfold enterCooldown
  dsimp only
  split
  · rename_i hafter
    exact le_of_lt (of_decide_eq_true hafter)
  · exact le_rfl

/-- The section of `Complete` clears the cooldown if the answer is definitive, and the lease is a probe
or of the present epoch. Otherwise the cooldown is kept. -/
theorem finish_cooldown (id : Nat) (lease : Lease) (o : Outcome) (w : World) (sys : System) :
    (o.verdict = .definitive ∧ (lease.epoch = sys.scheduler.epoch ∨ lease.probe) →
      (sys.finish id lease o w).scheduler.state.cooldownUntil = .zero ∧
        (sys.finish id lease o w).scheduler.state.probeRequired = false) ∧
    (¬(o.verdict = .definitive ∧ (lease.epoch = sys.scheduler.epoch ∨ lease.probe)) →
      CooldownKept sys (sys.finish id lease o w)) := by
  unfold CooldownKept
  rw [(finish_scheduler id lease o w sys).1]
  unfold complete resolve
  cases hverdict : o.verdict with
  | definitive =>
    refine ⟨fun hclears => ?_, fun hkept => ?_⟩
    · dsimp only
      rw [if_pos (by simpa using hclears.2)]
      exact ⟨rfl, rfl⟩
    dsimp only
    rw [if_neg (by simpa using hkept)]
    exact ⟨le_rfl, fun h => h⟩
  | rateLimited => exact ⟨by simp, fun _ => ⟨enterCooldown_kept .., fun _ => rfl⟩⟩
  | serverError =>
    exact ⟨by simp, fun _ => ⟨enterCooldown_kept _ _ (ofText "server_error") _, fun _ => rfl⟩⟩
  | transportError =>
    exact ⟨by simp, fun _ => ⟨enterCooldown_kept _ _ (ofText "transport_error") _, fun _ => rfl⟩⟩
  | unauthorized | forbidden | canceled => exact ⟨by simp, fun _ => ⟨le_rfl, fun h => h⟩⟩

/-- A lease that is acquired in a run, a cooldown that is entered after that in the same process, and
the completion of the lease: the cooldown is kept, unless the lease is a probe and the answer to it
is definitive. The epochs, which are `uint64`, do not come around in between. -/
theorem cooldown_kept_iff {path : Bool} {file : Option DiskState} {clock : Time}
    {s₀ s s₁ s₂ s₃ : System} {front middle : List Event} {id : Nat} {w w' : World} {lease : Lease}
    {o : Outcome} (hopen : openScheduler path file clock [] = some s₀)
    (hfront : exec step front s₀ = some s) (hnew : s.leases.lookup id = none)
    (hacquire : step (.attempt id w) s = some s₁) (hlease : s₁.leases.lookup id = some lease)
    (hmiddle : exec step middle s₁ = some s₂) (hone : Event.restart ∉ middle)
    (hshort : middle.length < UInt64.size) (henters : ∃ e ∈ middle, e.EntersCooldown)
    (hfinish : step (.finish id o w') s₂ = some s₃) :
    CooldownKept s₂ s₃ ↔ ¬(o.verdict = .definitive ∧ lease.probe ∧ CooldownSet s₂) := by
  -- The lease has the epoch in which it was acquired, and its number is not given out again.
  have hacquired : lease.epoch = s₁.scheduler.epoch ∧ Held id lease s₁ := by
    rcases step_worked hacquire with hrestart | hworked
    · cases hrestart
    rcases hworked.leases id lease hlease with ⟨hcall, hgone, hepoch⟩ | ⟨old, hold, -⟩
    · refine ⟨hepoch, ?_, hgone, fun lease' hlease' => ?_⟩
      · have hgiven : id ≤ s.scheduler.nextWaiterID := not_lt.mp fun hlt =>
          hcall (numbered_of_exec hopen hfront id hlt)
        exact le_trans hgiven hworked.number
      obtain rfl := mem_unique hlease hlease'
      exact ⟨rfl, rfl⟩
    rw [hnew] at hold
    cases hold
  have hheld : Held id lease s₂ := by
    refine exec_keeps (P := Held id lease) ?_
      (along_of_forall (p := fun e => e ≠ .restart) ?_ s₁) hmiddle hacquired.2
    · intro e sys sys' hne hstep hsys
      rcases step_worked hstep with hrestart | hworked
      · exact absurd hrestart hne
      · exact hsys.worked hworked
    rintro e he rfl
    exact hone he
  obtain ⟨lease2, hlease2, rfl⟩ := finish_eq_some hfinish
  obtain ⟨hepoch, hprobe⟩ := hheld.lease lease2 hlease2
  -- Since the cooldown the epoch is another one.
  have hother : lease2.epoch ≠ s₂.scheduler.epoch := by
    obtain ⟨k, hk, hpos, hlater⟩ := epoch_of_exec hone hmiddle
    have hpos := hpos henters
    intro hsame
    rw [← hsame, hepoch, hacquired.1] at hlater
    have hlt : s₁.scheduler.epoch.toNat < UInt64.size := s₁.scheduler.epoch.toNat_lt
    simp only [UInt64.size] at hlater hlt hshort
    omega
  obtain ⟨hclears, hkeeps⟩ := finish_cooldown id lease2 o w' { s₂ with clock := w'.now }
  rw [← hprobe]
  constructor
  · rintro ⟨huntil, hrequired⟩ ⟨hdefinitive, hisprobe, hset⟩
    obtain ⟨hzero, hnotrequired⟩ := hclears ⟨hdefinitive, .inr hisprobe⟩
    rcases hset with hset | hset
    · rw [hzero] at huntil
      omega
    rw [hrequired hset] at hnotrequired
    cases hnotrequired
  intro hcond
  by_cases hclear : o.verdict = .definitive ∧ lease2.probe
  · -- There is no cooldown to clear.
    have hunset : ¬CooldownSet s₂ := fun hset => hcond ⟨hclear.1, hclear.2, hset⟩
    obtain ⟨hzero, -⟩ := hclears ⟨hclear.1, .inr hclear.2⟩
    refine ⟨?_, fun hrequired => absurd (.inr hrequired) hunset⟩
    rw [hzero]
    exact not_lt.mp fun hlt => hunset (.inl hlt)
  · exact hkeeps fun ⟨hdefinitive, hwhich⟩ => hclear ⟨hdefinitive, hwhich.resolve_left hother⟩

/-- The server's answer that there were too many requests. -/
def tooMany : Outcome := { httpStatus := 429, errorCode := 429, err := some .other }

/-- The server's answer to a mutation that succeeded. -/
def succeeded : Outcome := { httpStatus := 200 }

/-- Two leases; the first one enters a cooldown, and the success of the second one keeps it. -/
theorem cooldown_kept_by_success :
    ∃ s₀ s s₁ s₂ s₃ lease, openScheduler true none ⟨0⟩ [] = some s₀ ∧
      exec step (acquire routine 1 ⟨0⟩ ++ [.enter routine]) s₀ = some s ∧
      step (.attempt 2 { now := ⟨40000000⟩ }) s = some s₁ ∧
      s₁.leases.lookup 2 = some lease ∧
      exec step [.finish 1 tooMany { now := ⟨50000000⟩ }] s₁ = some s₂ ∧
      CooldownSet s₂ ∧ step (.finish 2 succeeded { now := ⟨60000000⟩ }) s₂ = some s₃ ∧
      CooldownKept s₂ s₃ := by
  obtain ⟨s₀, hopen, s, hfront, hnew, s₁, hacquire, lease, hlease, hprobe, s₂, hmiddle, hset, s₃,
      hfinish⟩ :
      ∃ s₀, openScheduler true none ⟨0⟩ [] = some s₀ ∧
        ∃ s, exec step (acquire routine 1 ⟨0⟩ ++ [.enter routine]) s₀ = some s ∧
        s.leases.lookup 2 = none ∧
        ∃ s₁, step (.attempt 2 { now := ⟨40000000⟩ }) s = some s₁ ∧
        ∃ lease, s₁.leases.lookup 2 = some lease ∧ lease.probe = false ∧
        ∃ s₂, exec step [.finish 1 tooMany { now := ⟨50000000⟩ }] s₁ = some s₂ ∧
        s₂.scheduler.state.probeRequired ∧
        ∃ s₃, step (.finish 2 succeeded { now := ⟨60000000⟩ }) s₂ = some s₃ :=
    ⟨_, rfl, _, rfl, rfl, _, rfl, _, rfl, rfl, _, rfl, rfl, _, rfl⟩
  have hkept := (cooldown_kept_iff hopen hfront hnew hacquire hlease hmiddle (by simp) (by decide)
    ⟨_, mem_singleton_self _, rfl⟩ hfinish).mpr (by simp [hprobe])
  exact ⟨s₀, s, s₁, s₂, s₃, lease, hopen, hfront, hacquire, hlease, hmiddle, .inr hset, hfinish, hkept⟩

/-- Three leases. The first one enters a cooldown and the third one is the probe after it; while that
is out, the second one extends the cooldown by four seconds; the success of the probe clears it. -/
theorem probe_clears_later_cooldown :
    ∃ s₀ s s₁ s₂ s₃, openScheduler true none ⟨0⟩ [] = some s₀ ∧
      exec step (acquire routine 1 ⟨0⟩ ++ acquire routine 2 ⟨40000000⟩ ++
        [.finish 1 tooMany { now := ⟨50000000⟩ }, .enter routine]) s₀ = some s ∧
      step (.attempt 3 { now := ⟨5000000000⟩ }) s = some s₁ ∧
      (s₁.leases.lookup 3).map (·.probe) = some true ∧
      step (.finish 2 tooMany { now := ⟨5100000000⟩ }) s₁ = some s₂ ∧
      s₂.scheduler.state.cooldownUntil = ⟨9100000000⟩ ∧
      step (.finish 3 succeeded { now := ⟨5200000000⟩ }) s₂ = some s₃ ∧
      s₃.scheduler.state.cooldownUntil = .zero ∧ ¬CooldownKept s₂ s₃ := by
  refine ⟨_, _, _, _, _, rfl, rfl, rfl, rfl, rfl, rfl, rfl, rfl, fun hkept => ?_⟩
  exact absurd hkept.1 (by decide)

end Bria.MutationScheduler
