import Bria.MessageJournal.Steps

/-!
# Hand-off in order

A session's inputs are leased in the order of their sequences. The lease takes the first input that
was not handed off yet, and validation keeps the list in order, so at that moment every input with
a smaller sequence has been handed off or settled. An open recovery stops leases altogether.
-/

namespace Bria.MessageJournal

open Go

variable {limits : Limits}

/-- The inputs before the first that was not handed off, when sequences increase. -/
theorem handedOff_of_lt {s : SessionRecord} (hs : s.Valid limits) {r x : InputRecord}
    (hfirst : s.inputs.find? (!·.phase.handedOff) = some r) (hx : x ∈ s.inputs)
    (hlt : x.sequence < r.sequence) : x.phase.handedOff := by
  obtain ⟨front, back, hsplit, hfront, -⟩ := Table.replaceFirst_split hfirst
  have hsorted := (pairwise_cons.mp hs.inputOrder).2
  rw [hsplit] at hx hsorted
  rw [map_append, map_cons] at hsorted
  have hback := (pairwise_cons.mp (List.pairwise_append.mp hsorted).2.1).1
  rcases mem_append.mp hx with hx | hx
  · simpa using hfront x hx
  rcases mem_cons.mp hx with rfl | hx
  · omega
  have := hback _ (mem_map_of_mem hx)
  omega

variable {ctx : Context} {sessionID owner : GoString} {now : Time} {duration : Int}

/-- The lease refuses with `ErrNoAvailable` only. -/
theorem leaseNextInput_change_eq_error {loaded : Document} {e : Err}
    (h : ((leaseNextInput limits ctx sessionID owner now duration).change loaded).2 = .error e) :
    e = err .noAvailable := by
  rcases changeSession_find_eq_error h with rfl | ⟨s, -, hs⟩
  · rfl
  unfold leaseNextInputRecord at hs
  split_ifs at hs with hopen
  · simpa using hs.symm
  split at hs
  · simpa using hs.symm
  split_ifs at hs
  simpa using hs.symm

/-- What a lease took, if it returned an input or changed the file. -/
theorem leaseNextInput_leased {faults : Faults} {disk : Disk}
    (h : ((leaseNextInput limits ctx sessionID owner now duration).run limits faults disk).1.2 =
        none ∨
      ((leaseNextInput limits ctx sessionID owner now duration).run limits faults disk).2 ≠ disk) :
    ∃ loaded s r, read limits disk = .ok loaded ∧ sessionAt loaded sessionID = some s ∧
      s.inputs.find? (!·.phase.handedOff) = some r ∧
      s.recoveryOpen = false ∧ r.phase = .pending ∧ r.lease.live now = false ∧
      ((leaseNextInput limits ctx sessionID owner now duration).run limits faults disk).1.1 =
        inputFromRecord sessionID { r with lease := newLease owner now duration } := by
  rcases Call.run_cases (leaseNextInput limits ctx sessionID owner now duration) limits faults
    disk with ⟨⟨result, e⟩, hearly, heq⟩ | ⟨-, e, heq⟩ | ⟨-, d, e, -, hchange, heq⟩ |
    ⟨-, -, -, d, d', hread, hchange, heq⟩
  · -- A check that fails returns its error.
    simp only [leaseNextInput, Call.checked, map_eq_some_iff, Prod.mk.injEq] at hearly
    obtain ⟨e', -, -, rfl⟩ := hearly
    simp [heq] at h
  · simp [heq] at h
  · obtain rfl := leaseNextInput_change_eq_error hchange
    simp [heq, settleError, GoError.is, err] at h
  obtain ⟨s, s', hid, hs, hs', -⟩ := changeSession_find_eq_ok hchange
  rw [hid] at hs
  obtain ⟨r, hfirst, hclosed, hpending, hfree, hresult, -⟩ := leaseNextInputRecord_eq_ok hs'
  refine ⟨d, s, r, hread, hs, hfirst, hclosed, hpending, hfree, ?_⟩
  rw [heq]
  exact (changeSession_find_fst hs).trans (by rw [hresult, hid])

/-- Hand-off in order. After any run from the empty journal, whenever `LeaseNextInput` leases an
input, the session has no open recovery and every input of the session with a smaller sequence is
accepted, completed, terminally failed or skipped. -/
theorem lease_in_order (limits : Limits) (before : List Event) (ctx : Context)
    (sessionID owner : GoString) (now : Time) (duration : Int) (faults : Faults)
    (hleased : ((leaseNextInput limits ctx sessionID owner now duration).run limits faults
          (run limits .missing before)).1.2 = none ∨
      ((leaseNextInput limits ctx sessionID owner now duration).run limits faults
          (run limits .missing before)).2 ≠ run limits .missing before) :
    ∃ loaded s r, read limits (run limits .missing before) = .ok loaded ∧
      sessionAt loaded sessionID = some s ∧ r ∈ s.inputs ∧
      ((leaseNextInput limits ctx sessionID owner now duration).run limits faults
          (run limits .missing before)).1.1 =
        inputFromRecord sessionID { r with lease := newLease owner now duration } ∧
      s.recoveryOpen = false ∧ r.phase = .pending ∧ r.lease.live now = false ∧
      ∀ x ∈ s.inputs, x.sequence < r.sequence →
        x.phase = .accepted ∨ x.phase = .completed ∨ x.phase = .terminalFailed ∨
          x.phase = .skipped := by
  obtain ⟨loaded, s, r, hread, hs, hfirst, hclosed, hpending, hfree, hresult⟩ :=
    leaseNextInput_leased hleased
  refine ⟨loaded, s, r, hread, hs, mem_of_find?_eq_some hfirst, hresult, hclosed, hpending,
    hfree, fun x hx hlt => ?_⟩
  have hoff := handedOff_of_lt ((valid_of_read hread).sessions s (mem_of_sessionAt hs)) hfirst hx
    hlt
  cases hp : x.phase <;> simp [hp, InputPhase.handedOff] at hoff ⊢

/-- The first of two inputs is accepted. -/
def acceptedFirst : List Event :=
  [⟨.enqueueInput {} [0x73] [0x6D] [] [], {}⟩, ⟨.enqueueInput {} [0x73] [0x6E] [] [], {}⟩,
    ⟨.leaseNextInput {} [0x73] [0x6F] ⟨1⟩ 1, {}⟩, ⟨.markInputAccepted {} [0x73] [0x6D] [0x6F], {}⟩]

/-- Then the second is leased. -/
theorem lease_in_order_second :
    ∃ loaded s r, read defaultLimits (run defaultLimits .missing acceptedFirst) = .ok loaded ∧
      sessionAt loaded [0x73] = some s ∧ r ∈ s.inputs ∧
      ∀ x ∈ s.inputs, x.sequence < r.sequence →
        x.phase = .accepted ∨ x.phase = .completed ∨ x.phase = .terminalFailed ∨
          x.phase = .skipped := by
  obtain ⟨loaded, s, r, hread, hs, hr, -, -, -, -, hall⟩ := lease_in_order defaultLimits
    acceptedFirst {} [0x73] [0x6F] ⟨3⟩ 1 {} (.inl rfl)
  exact ⟨loaded, s, r, hread, hs, hr, hall⟩

end Bria.MessageJournal
