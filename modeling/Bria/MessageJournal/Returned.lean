import Bria.MessageJournal.Frame
import Bria.MessageJournal.Order

/-!
# What a successful call reports

A caller of the journal sees what an operation returns. If it returns no error, what it returns is
what is stored: the record that the file holds from then on is the one that the caller was given.
-/

namespace Bria.MessageJournal

open Go Call

variable {limits : Limits} {faults : Faults} {disk disk' : Disk} {d : Document}
  {s s' : SessionRecord} {α : Type} {check : Except Err Unit} {r : InputRecord}
  {messageID : GoString} {sessionIDs : List GoString}

/-- A method that starts with checks and returns no error read the journal, and its change had
nothing to do or is what is read from now on. -/
theorem Call.checked_nil {zero result : α} {change : Document → α × Except Err Document}
    (h : (checked check zero change).run limits faults disk = ((result, none), disk')) :
    ∃ d, read limits disk = .ok d ∧ result = (change d).1 ∧
      ((∃ e, (change d).2 = .error e ∧ e.is .noMutation ∧ disk' = disk) ∨
        ∃ d', (change d).2 = .ok d' ∧ read limits disk' = .ok d') := by
  have hnil : ((checked check zero change).run limits faults disk).1.2 = none := by rw [h]
  have hrun := run_nil hnil
  rw [h] at hrun
  rcases hrun with ⟨hearly, -⟩ | ⟨-, d, hread, hresult, hend⟩
  · simp [checked] at hearly
  refine ⟨d, hread, hresult, hend.imp_right ?_⟩
  rintro ⟨d', hchange, -, hread'⟩
  exact ⟨d', hchange, hread'⟩

/-- A method does to the file what it does without its result. -/
theorem Call.forget_run (call : Call α) (limits : Limits) (faults : Faults) (disk : Disk) :
    call.forget.run limits faults disk =
      (((), (call.run limits faults disk).1.2), (call.run limits faults disk).2) := by
  have hmutate : mutate limits faults () call.forget.change disk =
      (((), (mutate limits faults call.zero call.change disk).1.2),
        (mutate limits faults call.zero call.change disk).2) := by
    unfold mutate forget
    split_ifs
    · rfl
    rcases readFile limits faults.read disk with e | loaded
    · rfl
    · rcases hc : call.change loaded with ⟨result, e | loaded'⟩ <;> simp only [hc]
  unfold run
  rcases hearly : call.early with _ | ⟨result, e⟩
  · have hnone : call.forget.early = none := by simp [forget, hearly]
    simp only [hnone]
    rw [show call.forget.zero = () from rfl, hmutate]
  have hsome : call.forget.early = some ((), e) := by simp [forget, hearly]
  simp only [hsome]

variable {sessionID : GoString}

theorem sessionAt_setSession (hs : sessionAt d sessionID = some s)
    (hid : s'.sessionID = s.sessionID) : sessionAt (d.setSession s') sessionID = some s' := by
  have hsid := sessionID_of_sessionAt hs
  unfold Document.setSession
  rw [hid, hsid]
  exact Table.find?_replaceFirst_self hs (by simp [hid, hsid])

/-! ## Inputs -/

/-- An input of a valid document is found by its message id. -/
theorem lookupInput_of_mem (hd : d.Valid limits) (hs : sessionAt d sessionID = some s)
    (hr : r ∈ s.inputs) : lookupInput d sessionID r.messageID = some r := by
  have hnodup := (hd.sessions s (mem_of_sessionAt hs)).messageIDs
  simp only [lookupInput, hs, bind_some]
  exact Table.find?_of_mem hnodup hr

variable {ctx : Context} {owner : GoString} {now : Time} {duration : Int}

/-- A transition that returns no error is stored: the record from now on is the one it reports, what
the transition makes of the input, or the input if there was nothing to do. -/
theorem transitionInput_nil {transition : InputTransition} {result : Input}
    (hid : ∀ s r r', transition s r = .ok r' → r'.messageID = r.messageID)
    (h : (checked check {} fun loaded =>
      changeSession (findSession loaded sessionID (err .notFound)) {}
        (transitionInputRecord messageID transition)).run limits faults disk =
      ((result, none), disk')) :
    ∃ s r d1 r1, read limits disk' = .ok d1 ∧ lookupInput d1 sessionID messageID = some r1 ∧
      result = inputFromRecord sessionID r1 ∧
      (transition s r = .ok r1 ∨ r1 = r ∧ ∃ e, transition s r = .error e ∧ e.is .noMutation) := by
  obtain ⟨d, hread, hresult, ⟨e, hchange, hnoop, rfl⟩ | ⟨d', hchange, hread'⟩⟩ := checked_nil h
  · rcases changeSession_find_eq_error hchange with rfl | ⟨s, hs, hchange⟩
    · simp [err, GoError.is] at hnoop
    rw [changeSession_find_fst hs] at hresult
    unfold transitionInputRecord at hchange hresult
    rcases hr : s.inputs.find? (·.messageID = messageID) with _ | r
    · simp only [hr, error.injEq] at hchange
      subst hchange
      simp [err, GoError.is] at hnoop
    have hlookup : lookupInput d sessionID messageID = some r := by
      simp only [lookupInput, hs, bind_some]
      exact hr
    simp only [hr] at hchange hresult
    rcases ht : transition s r with e' | r'
    · simp only [ht, error.injEq] at hchange hresult
      subst hchange
      rw [sessionID_of_sessionAt hs] at hresult
      exact ⟨s, r, d, r, hread, hlookup, hresult, .inr ⟨rfl, e', ht, hnoop⟩⟩
    · simp [ht] at hchange
  · obtain ⟨s, s', hsid, hs, hsession, rfl⟩ := changeSession_find_eq_ok hchange
    rw [hsid] at hs
    rw [changeSession_find_fst hs] at hresult
    obtain ⟨r, r', hr, hmid, ht, rfl⟩ := transitionInputRecord_eq_ok.mp hsession
    have hmid' : r'.messageID = messageID := (hid s r r' ht).trans hmid
    refine ⟨s, r, _, r', hread', ?_, ?_, .inl ht⟩
    · refine bind_eq_some_iff.mpr ⟨_, sessionAt_setSession hs (by rfl), ?_⟩
      exact Table.find?_replaceFirst_self hr (by simp [hmid'])
    rw [hresult, ← hsid]
    simp only [transitionInputRecord, hr, ht]

/-! ## Outputs -/

/-- An output of a valid document is found by its operation id. -/
theorem lookupOutput_of_mem {r : OutputRecord} (hd : d.Valid limits)
    (hs : sessionAt d sessionID = some s) (hr : r ∈ s.outputs) :
    lookupOutput d sessionID r.operationID = some r := by
  have hnodup := (hd.sessions s (mem_of_sessionAt hs)).operationIDs
  simp only [lookupOutput, hs, bind_some]
  exact Table.find?_of_mem hnodup hr

/-- The lease of an output refuses with `ErrNoAvailable` only. -/
theorem leaseOutputLoop_eq_error {e : Err}
    (h : (leaseOutputLoop owner now duration d sessionIDs).2 = .error e) :
    e = err .noAvailable := by
  induction sessionIDs with
  | nil => simpa [leaseOutputLoop] using h.symm
  | cons sessionID rest ih =>
    simp only [leaseOutputLoop] at h
    split at h
    · exact ih h
    split at h
    · exact ih h
    · cases h

/-- A lease that returns no error is stored: the record from now on is the one it reports, and it
is pending. -/
theorem leaseNextOutputForSessions_nil {output : Output}
    (h : (leaseNextOutputForSessions limits ctx sessionIDs owner now duration).run limits faults
      disk = ((output, none), disk')) :
    ∃ d1 r, read limits disk' = .ok d1 ∧
      lookupOutput d1 output.sessionID output.operationID = some r ∧ r.phase = .pending := by
  rcases sessionIDs with _ | ⟨first, rest⟩
  · simp [leaseNextOutputForSessions, Call.run] at h
  obtain ⟨d, hread, hresult, ⟨e, hchange, hnoop, rfl⟩ | ⟨d', hchange, hread'⟩⟩ := checked_nil h
  · obtain rfl := leaseOutputLoop_eq_error hchange
    simp [err, GoError.is] at hnoop
  obtain ⟨s, leased, s', -, hs, hl, houtput, rfl⟩ := leaseOutputLoop_eq_ok hchange
  obtain ⟨r, hfirst, -, hleased, rfl⟩ := leaseNextOutputRecord_eq_some hl
  obtain rfl : output = leased := hresult.trans houtput
  subst hleased
  have hpending : r.phase = .pending := by simpa using find?_some hfirst
  refine ⟨_, { r with lease := newLease owner now duration }, hread', ?_, hpending⟩
  exact lookupOutput_of_mem (valid_of_read hread') (sessionAt_setSession hs (by rfl))
    (Table.mem_replaceFirst_new hfirst _)

/-- The loop over the sessions that leases from each in a call of its own, until the call does not fail
with `ErrNoAvailable`. -/
def leaseEachOutput (limits : Limits) (ctx : Context) (owner : GoString) (now : Time) (duration : Int)
    (faults : Faults) : List GoString → Disk → (Output × Option Err) × Disk
  | [], disk => (({}, some (err .noAvailable)), disk)
  | sessionID :: rest, disk =>
    let leased := (leaseNextOutput limits ctx sessionID owner now duration).run limits faults disk
    if leased.1.2.any (·.is .noAvailable) then
      leaseEachOutput limits ctx owner now duration faults rest leased.2
    else leased

/-- The checks of a lease do not fail with `ErrNoAvailable`. -/
theorem avoids_validateLeaseRequest (sessionID : GoString) :
    Avoids .noAvailable (validateLeaseRequest limits ctx sessionID owner now duration) := by
  refine .check rfl <| .check rfl <| .check rfl <| ?_
  exact .refuse _ rfl

/-- A lease for several sessions, when no session id is refused: the other checks are those of a lease
for any of them. -/
theorem leaseNextOutputForSessions_run {first sessionID : GoString} {rest : List GoString}
    (hvalid : ∀ sessionID ∈ first :: rest,
      validateOpaqueID sessionID limits.maxIDBytes "session id" = .ok ())
    (hid : validateOpaqueID sessionID limits.maxIDBytes "session id" = .ok ()) :
    (leaseNextOutputForSessions limits ctx (first :: rest) owner now duration).run limits faults disk =
      (checked (validateLeaseRequest limits ctx sessionID owner now duration) {}
        fun loaded => leaseOutputLoop owner now duration loaded (first :: rest)).run limits faults
          disk := by
  obtain ⟨hfirst, hrest⟩ := forall_mem_cons.mp hvalid
  have hforM : (rest.forM fun sessionID =>
      validateOpaqueID sessionID limits.maxIDBytes "session id") = .ok () := forM_eq_ok.mpr hrest
  have hsame : validateLeaseRequest limits ctx first owner now duration =
      validateLeaseRequest limits ctx sessionID owner now duration := by
    simp only [validateLeaseRequest, hfirst, hid]
  have hchecks : (do
      validateLeaseRequest limits ctx first owner now duration
      rest.forM fun sessionID => validateOpaqueID sessionID limits.maxIDBytes "session id") =
        validateLeaseRequest limits ctx sessionID owner now duration := by
    rw [hforM, hsame]
    cases validateLeaseRequest limits ctx sessionID owner now duration <;> rfl
  simp only [leaseNextOutputForSessions, hchecks]

/-- The first turn of the loop in the lease: it goes on, or it ends with a lease. -/
theorem leaseOutputLoop_cons (loaded : Document) (first : GoString) :
    (∀ rest, leaseOutputLoop owner now duration loaded (first :: rest) =
      leaseOutputLoop owner now duration loaded rest) ∨
    ∃ output d', ∀ rest, leaseOutputLoop owner now duration loaded (first :: rest) =
      (output, .ok d') := by
  simp only [leaseOutputLoop]
  split
  · exact .inl fun _ => rfl
  split
  · exact .inl fun _ => rfl
  · exact .inr ⟨_, _, fun _ => rfl⟩

/-- One lease for several sessions leases the same output, fails in the same way and leaves the same
file as the loop over the sessions, when no session id is refused. -/
theorem leaseNextOutputForSessions_eq_each {sessionIDs : List GoString}
    (hvalid : ∀ sessionID ∈ sessionIDs,
      validateOpaqueID sessionID limits.maxIDBytes "session id" = .ok ()) :
    (leaseNextOutputForSessions limits ctx sessionIDs owner now duration).run limits faults disk =
      leaseEachOutput limits ctx owner now duration faults sessionIDs disk := by
  induction sessionIDs with
  | nil => rfl
  | cons first rest ih =>
    obtain ⟨hfirst, hrest⟩ := forall_mem_cons.mp hvalid
    have hone : ∀ sessionID ∈ [first],
        validateOpaqueID sessionID limits.maxIDBytes "session id" = .ok () := by simpa using hfirst
    have hbatch : (leaseNextOutputForSessions limits ctx (first :: rest) owner now duration).run limits
        faults disk = _ := leaseNextOutputForSessions_run hvalid hfirst
    have hsingle : (leaseNextOutputForSessions limits ctx [first] owner now duration).run limits
        faults disk = _ := leaseNextOutputForSessions_run hone hfirst
    -- A lease that fails before the sessions are looked at fails in the first turn of the loop.
    have hfails : ∀ e : Err, e.is .noAvailable = false →
        (∀ change, (checked (validateLeaseRequest limits ctx first owner now duration) {}
          change).run limits faults disk = ((({} : Output), some e), disk)) →
        (leaseNextOutputForSessions limits ctx (first :: rest) owner now duration).run limits faults
          disk = leaseEachOutput limits ctx owner now duration faults (first :: rest) disk := by
      intro e he hrun
      rw [hrun] at hbatch hsingle
      simp [leaseEachOutput, leaseNextOutput, hbatch, hsingle, he]
    rcases hcheck : validateLeaseRequest limits ctx first owner now duration with e | u
    · exact hfails e (avoids_validateLeaseRequest first e hcheck) fun change => by rw [hcheck]; rfl
    cases hlock : faults.lock with
    | true =>
      refine hfails (.message "acquire message journal lock") rfl fun change => ?_
      simp [hcheck, checked, Call.run, errorOf, mutate, hlock, settleError, GoError.is]
    | false =>
      rcases hread : readFile limits faults.read disk with e | loaded
      · have he := avoids_readFile .noMutation (by simp) _ _ _ e hread
        refine hfails e (avoids_readFile .noAvailable (by simp) _ _ _ e hread) fun change => ?_
        simp [hcheck, checked, Call.run, errorOf, mutate, hlock, hread, settleError, he]
      have hchange : ∀ change : Document → Output × Except Err Document,
          (checked (validateLeaseRequest limits ctx first owner now duration) {} change).run
            limits faults disk = concluded limits faults disk (change loaded) := by
        intro change
        refine run_read ?_ hlock hread
        rw [hcheck]
        rfl
      rw [hchange] at hbatch hsingle
      rcases leaseOutputLoop_cons loaded first with hgoes | ⟨output, d', hleases⟩
      · -- There is nothing to lease from the first session.
        have hrests : (leaseNextOutputForSessions limits ctx rest owner now duration).run limits faults
            disk = concluded limits faults disk (leaseOutputLoop owner now duration loaded rest) := by
          cases rest with
          | nil => rfl
          | cons second more => rw [leaseNextOutputForSessions_run hrest hfirst, hchange]
        rw [hgoes] at hbatch hsingle
        have hnone : (settleError (some (err .noAvailable))).any (·.is .noAvailable) := rfl
        simp only [leaseEachOutput, leaseNextOutput, hsingle, leaseOutputLoop, concluded, hnone,
          if_true]
        rw [hbatch, ← ih hrest, hrests]
      · rw [hleases] at hbatch hsingle
        have hends : (persist limits faults d' disk).1.any (·.is .noAvailable) = false := by
          cases hpersist : (persist limits faults d' disk).1 with
          | none => rfl
          | some e => exact avoids_persist .noAvailable (by simp) (by simp) hpersist
        simp only [leaseEachOutput, leaseNextOutput, hsingle, concluded, hends]
        exact hbatch

/-- A session without outputs, and one with a pending output. -/
def waitingDocument : Document where
  version := formatVersion
  sessions := [{ sessionID := [0x73] }, { sessionID := [0x74], nextSequence := 1
                                          outputs := [⟨[0x70], 1, [0x6B], [], .pending, [], {}⟩] }]

/-- The output of the second session is leased. -/
theorem leaseNextOutputForSessions_second :
    let batch := (leaseNextOutputForSessions defaultLimits {} [[0x73], [0x74]] [0x6F] ⟨1⟩ 1).run
      defaultLimits {} (.stored (marshal waitingDocument))
    batch.1.1.operationID = [0x70] ∧ batch.1.2 = none ∧
      batch = leaseEachOutput defaultLimits {} [0x6F] ⟨1⟩ 1 {} [[0x73], [0x74]]
        (.stored (marshal waitingDocument)) := by
  refine ⟨by decide +kernel, by decide +kernel, leaseNextOutputForSessions_eq_each ?_⟩
  decide

variable {operationID : GoString} {result : Output}

/-- A transition that returns no error is stored: the record from now on is what the transition
makes of the output, or the output if there was nothing to do. -/
theorem transitionOutput_nil {first : Except Err Unit} {transition : OutputTransition}
    (hid : ∀ r r', transition r = .ok r' → r'.operationID = r.operationID)
    (h : (transitionOutput limits ctx first sessionID operationID transition).run limits faults
      disk = ((result, none), disk')) :
    ∃ d1 r r1, read limits disk' = .ok d1 ∧ lookupOutput d1 sessionID operationID = some r1 ∧
      (transition r = .ok r1 ∨ r1 = r ∧ ∃ e, transition r = .error e ∧ e.is .noMutation) := by
  obtain ⟨d, hread, -, ⟨e, hchange, hnoop, rfl⟩ | ⟨d', hchange, hread'⟩⟩ := checked_nil h
  · rcases changeSession_find_eq_error hchange with rfl | ⟨s, hs, hchange⟩
    · simp [err, GoError.is] at hnoop
    unfold transitionOutputRecord at hchange
    rcases hr : s.outputs.find? (·.operationID = operationID) with _ | r
    · simp only [hr, error.injEq] at hchange
      subst hchange
      simp [err, GoError.is] at hnoop
    have hlookup : lookupOutput d sessionID operationID = some r := by
      simp only [lookupOutput, hs, bind_some]
      exact hr
    simp only [hr] at hchange
    rcases ht : transition r with e' | r'
    · simp only [ht, error.injEq] at hchange
      subst hchange
      exact ⟨d, r, r, hread, hlookup, .inr ⟨rfl, e', ht, hnoop⟩⟩
    · simp [ht] at hchange
  · obtain ⟨s, s', hsid, hs, hsession, rfl⟩ := changeSession_find_eq_ok hchange
    rw [hsid] at hs
    obtain ⟨r, r', hr, hoid, ht, rfl⟩ := transitionOutputRecord_eq_ok.mp hsession
    have hoid' : r'.operationID = operationID := (hid r r' ht).trans hoid
    refine ⟨_, r, r', hread', ?_, .inl ht⟩
    refine bind_eq_some_iff.mpr ⟨_, sessionAt_setSession hs (by rfl), ?_⟩
    exact Table.find?_replaceFirst_self hr (by simp [hoid'])

/-- A confirmation that returns no error is stored, with the receipt. -/
theorem confirmOutput_nil {receipt : GoString}
    (h : (confirmOutput limits ctx sessionID operationID owner receipt).run limits faults disk =
      ((result, none), disk')) :
    ∃ d1 r, read limits disk' = .ok d1 ∧ lookupOutput d1 sessionID operationID = some r ∧
      r.phase = .confirmed ∧ r.receipt = receipt := by
  have hid : ∀ r r', confirmTransition owner receipt r = .ok r' →
      r'.operationID = r.operationID := by
    intro r r' ht
    simp only [confirmTransition, check_eq_ok, ok.injEq] at ht
    obtain ⟨-, -, -, -, rfl⟩ := ht
    rfl
  obtain ⟨d1, r, r1, hread1, hr1, ht | ⟨rfl, e, ht, hnoop⟩⟩ := transitionOutput_nil hid h
  · simp only [confirmTransition, check_eq_ok, ok.injEq] at ht
    obtain ⟨-, -, -, -, rfl⟩ := ht
    exact ⟨d1, _, hread1, hr1, rfl, rfl⟩
  -- Nothing is to do only for an output that is confirmed with the same receipt.
  simp only [confirmTransition, refuse_bind_eq_error, and_eq_true, and_eq_false_iff,
    decide_eq_true_eq, decide_eq_false_iff_not, not_not, reduceCtorEq, and_false,
    or_false] at ht
  rcases ht with ⟨-, rfl⟩ | ⟨hsame, ⟨hphase, -⟩ | ⟨-, ⟨-, rfl⟩ | ⟨-, -, rfl⟩⟩⟩
  · cases hnoop
  · exact ⟨d1, r1, hread1, hr1, hphase, hsame.resolve_left fun h => h hphase⟩
  · cases hnoop
  · cases hnoop

/-- An output that is finished without an error has the phase from then on. -/
theorem finishOutput_nil {phase : OutputPhase}
    (h : (finishOutput limits ctx sessionID operationID owner phase).run limits faults disk =
      ((result, none), disk')) :
    ∃ d1 r, read limits disk' = .ok d1 ∧ lookupOutput d1 sessionID operationID = some r ∧
      r.phase = phase := by
  have hid : ∀ r r', finishTransition owner phase r = .ok r' → r'.operationID = r.operationID := by
    intro r r' ht
    simp only [finishTransition, check_eq_ok, ok.injEq] at ht
    obtain ⟨-, -, -, rfl⟩ := ht
    rfl
  obtain ⟨d1, r, r1, hread1, hr1, ht | ⟨rfl, e, ht, hnoop⟩⟩ := transitionOutput_nil hid h
  · simp only [finishTransition, check_eq_ok, ok.injEq] at ht
    obtain ⟨-, -, -, rfl⟩ := ht
    exact ⟨d1, _, hread1, hr1, rfl⟩
  simp only [finishTransition, refuse_bind_eq_error, decide_eq_true_eq, reduceCtorEq,
    and_false, or_false] at ht
  rcases ht with ⟨hphase, -⟩ | ⟨-, ⟨-, rfl⟩ | ⟨-, -, rfl⟩⟩
  · exact ⟨d1, r1, hread1, hr1, hphase⟩
  · cases hnoop
  · cases hnoop

end Bria.MessageJournal
